import ScriptLint.Check.Basic
import ScriptLint.Leak.Walk

/-!
# Auditing a script for leaked handles

Each function of a script is walked on its own from nothing held, wherever in the table it stands,
and so is the list of top-level statements. Whatever was flushed on the way, and whatever any of
these walks holds in the end, may be leaked.

## Main definitions

* `Script.walks`: the walks of all functions and of the top level
* `Script.audit`: all of them side by side
* `Script.findings`: the sets of names to warn of
* `leakWarning`: the warning of a set of names
* `socketLeak`: the check
-/

namespace ScriptLint

namespace Script

variable (script : Script)

/-- The walk of the body of a function, from nothing held. It is noted what is held in the end. -/
def functionWalk (name : String) (body : Option Nat) : Walk :=
  let walk := Walk.optional script.walk body ∅
  if walk.held.isEmpty then walk
  else { walk with notes := walk.notes ++ [.leaking name walk.held] }

/-- The walk of the top-level statements, from nothing held. -/
def topWalk : Walk :=
  Walk.sequence script.walk script.top ∅

/-- The walks of all functions in table order, and then of the top level. -/
def walks : List Walk :=
  script.functions.map (fun (name, body) => script.functionWalk name body) ++ [script.topWalk]

/-- All walks side by side. -/
def audit : Walk :=
  script.walks.foldl Walk.merge (.still ∅)

/-- The sets of names to warn of: what was flushed on the way, and what is held in the end. A set
without names is nothing to warn of. -/
def findings : List NameSet :=
  (script.audit.flushes ++ [script.audit.held]).filter (!·.isEmpty)

end Script

/-- How a name is shown in a warning. -/
def shownName (name : String) : String :=
  if name = unassigned then "<unassigned>" else name

/-- The warning of a set of names. -/
def leakWarning (names : NameSet) : String :=
  "Possibly leaked socket handle(s): " ++ Text.commaSeparated (names.toList.map shownName)

/-- Warns of a set of names. -/
def warnOf (names : NameSet) : Body Unit := do
  .conclude .warn
  .say .warn (leakWarning names)

/-- Audits one file, and warns of its findings in order. -/
def auditFile (file : File) : Body Unit := do
  .note (.scanning file.name)
  file.script.audit.notes.forM .note
  file.script.findings.forM warnOf

/-- The check for socket handles that are opened and neither closed nor returned. -/
def socketLeak : Check Unit where
  name := "SocketLeak"
  requires := [.scripts]
  body := do
    .conclude .pass
    (← Body.files).forM auditFile

end ScriptLint
