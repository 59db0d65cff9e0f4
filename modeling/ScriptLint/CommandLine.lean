import ScriptLint.Arguments
import ScriptLint.Suite

/-!
# The command line

The tasks of a working copy: `checks` lists the checks of the suite and the topics they need, and
`ci` starts the build tool on each of a fixed list of jobs, up to the first that does not succeed.
How arguments are read and what starting the build tool does are parameters, so that a response is a
function of the reader, of what the tool does and of the arguments.

## Main definitions

* `Task`: the tasks; `Task.ofName?` reads the name of one
* `Request`: what a command line asks for; `Request.ofArguments` has a reader tell
* `CommandError`: what can be wrong with it
* `Launch`: what comes of starting the build tool
* `Response`: what is printed, the exit code, and the jobs that were started
* `respond`: the response to a command line
-/

namespace ScriptLint

/-! ## Tasks -/

/-- A task of a working copy. -/
inductive Task where
  /-- Run the build tool on every job. -/
  | ci
  /-- List the checks of the suite. -/
  | checks
deriving DecidableEq, Inhabited

namespace Task

/-- Every task, in the order of the usage text. -/
def all : List Task :=
  [ci, checks]

/-- The name of a task. -/
def name : Task → String
  | ci => "ci"
  | checks => "checks"

/-- What a task does, in a few words. -/
def about : Task → String
  | ci => "build, check formatting and lints, and test"
  | checks => "list the registered checks and the facts they need"

/-- The task of a name. -/
def ofName? (name : String) : Option Task :=
  all.find? (·.name = name)

end Task

/-- The usage text: the names of the tasks in a column of eight characters, and what they do. -/
def usage : String :=
  "usage: cargo xtask <task>\n\ntasks:\n" ++
    String.join (Task.all.map fun task =>
      "  " ++ task.name ++ "".pushn ' ' (8 - task.name.length) ++ task.about ++ "\n")

/-! ## Requests -/

/-- What a command line asks for. -/
inductive Request where
  /-- How to use the tasks. -/
  | usage
  /-- To carry out a task. -/
  | perform (task : Task)
deriving DecidableEq, Inhabited

/-- What can be wrong with a command line, or go wrong in carrying it out. -/
inductive CommandError where
  /-- The task cannot be read, for the reason that the reader gives. -/
  | unreadable (reason : String)
  /-- No task has this name. -/
  | unknownTask (name : String)
  /-- There are arguments after the task. -/
  | unusedArguments (rest : List ByteArray)
  /-- A job did not succeed. -/
  | jobFailed (job : List String) (reason : String)
deriving Inhabited

/-- The arguments of a job as a person would type them. -/
def shownJob (job : List String) : String :=
  String.intercalate " " job

/-- The wording of an error. -/
def CommandError.message : CommandError → String
  | unreadable reason => reason
  | unknownTask name => "unknown task: " ++ name
  | unusedArguments rest =>
    "unused arguments: [" ++ Text.commaSeparated (rest.map Text.quotedBytes) ++ "]"
  | jobFailed job reason => "cargo " ++ shownJob job ++ ": " ++ reason

/-- Reads the task, which stands alone. Without a task, the usage text is asked for. -/
def Request.ofTask (reader : ArgumentReader) (state : reader.State) :
    Except CommandError Request :=
  match reader.subcommand state with
  | .error reason => .error (.unreadable reason)
  | .ok (none, _) => .ok usage
  | .ok (some name, after) =>
    match Task.ofName? name with
    | none => .error (.unknownTask name)
    | some task =>
      let rest := reader.finish after
      if rest.isEmpty then .ok (perform task) else .error (.unusedArguments rest)

/-- Reads a command line. A help flag wins over everything else. -/
def Request.ofArguments (reader : ArgumentReader) (arguments : List ByteArray) :
    Except CommandError Request :=
  let (help, state) := reader.contains helpFlags (reader.load arguments)
  if help then .ok usage else ofTask reader state

/-! ## Carrying out a request -/

/-- What comes of starting the build tool on a job. -/
inductive Launch where
  /-- It cannot be started. -/
  | unable (reason : String)
  /-- It printed something and exited. -/
  | exited (code : UInt8) (printed : String)
deriving DecidableEq, Inhabited

/-- What is printed, the exit code, and the jobs on which the build tool was started, in order. -/
structure Response where
  stdout : String := ""
  stderr : String := ""
  code : UInt8 := 0
  started : List (List String) := []
deriving DecidableEq, Inhabited

/-- The response to an error. -/
def Response.ofError (error : CommandError) : Response :=
  { stderr := "error: " ++ error.message ++ "\n", code := 1 }

/-- The jobs of the build tool, each as its arguments. -/
def jobs : List (List String) :=
  [["build", "--locked"], ["fmt", "--", "--check"], ["clippy", "--locked"],
    ["clippy", "--locked", "--tests"], ["test", "--locked"]]

/-- Starts the build tool on each job in turn, up to the first that does not succeed. -/
def performJobs (launch : List String → Launch) : List (List String) → Response
  | [] => {}
  | job :: rest =>
    match launch job with
    | .unable reason => { Response.ofError (.jobFailed job reason) with started := [job] }
    | .exited code printed =>
      let response :=
        if code = 0 then performJobs launch rest
        else Response.ofError (.jobFailed job ("exit status: " ++ toString code))
      { response with stdout := printed ++ response.stdout, started := job :: response.started }

/-- A topic as the list of checks shows it. -/
def Topic.label : Topic → String
  | scripts => "Trees"
  | testMode => "TestMode"
  | named name => "Named(" ++ Text.quoted name ++ ")"

/-- Topics as the list of checks shows them. -/
def topicList (topics : List Topic) : String :=
  "[" ++ Text.commaSeparated (topics.map Topic.label) ++ "]"

/-- A check as the list of checks shows it: its title and name, and its topics. -/
def Check.summary {α : Type} (check : Check α) : String :=
  check.title ++ " (" ++ check.name ++ ")\n  requires " ++ topicList check.requires ++
    "\n  provides " ++ topicList check.provides ++ "\n"

/-- The list of the checks of the suite. -/
def checkList : String :=
  String.join (suiteCatalog.checks.map Check.summary)

/-- Carries out a request. -/
def Request.respond (launch : List String → Launch) : Request → Response
  | usage => { stdout := ScriptLint.usage }
  | perform .ci => performJobs launch jobs
  | perform .checks => { stdout := checkList }

/-- The response to a command line. -/
def respond (reader : ArgumentReader) (launch : List String → Launch)
    (arguments : List ByteArray) : Response :=
  match Request.ofArguments reader arguments with
  | .ok request => request.respond launch
  | .error error => Response.ofError error

end ScriptLint
