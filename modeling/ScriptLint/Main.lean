import ScriptLint.CommandLine

/-!
# The program

Responds to the arguments it is started with. It starts no other program, so a task that needs one
ends with an error.
-/

open ScriptLint in
/-- Prints the response to the arguments. -/
def main (arguments : List String) : IO UInt32 := do
  let response := respond .listed (fun _ => .unable "no program can be started from here")
    (arguments.map String.toUTF8)
  IO.print response.stdout
  IO.eprint response.stderr
  return response.code.toUInt32
