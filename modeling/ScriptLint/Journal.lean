import ScriptLint.NameSet
import ScriptLint.Report
import ScriptLint.Text.Quoted

/-!
# The journal

What happens while checks are run is noted as events. An event has a level of importance and a
wording; the journal of a run is the list of its events, in order.

## Main definitions

* `Level`: the importance of an event
* `Event`: what can happen
* `Event.level`, `Event.message`: how an event is written down
-/

namespace ScriptLint

/-- The importance of an event, from the most to the least. -/
inductive Level where
  | error
  | warn
  | info
  | debug
  | trace
deriving DecidableEq, Inhabited

/-- The tag of a level in the journal. -/
def Level.tag : Level → String
  | error => "ERROR"
  | warn => "WARN"
  | info => "INFO"
  | debug => "DEBUG"
  | trace => "TRACE"

/-- Something that happened while checks were run. -/
inductive Event where
  /-- A run of the checks with these names was asked for; of all checks, if there are none. -/
  | requested (only : List String)
  /-- A later check of a table has the name of an earlier one. -/
  | repeated (name : String)
  /-- A catalog of so many checks was made. -/
  | catalogued (count : Nat)
  /-- Something other than files is filed under the topic of the scripts. -/
  | misfiled
  /-- None of the pending checks is ready. -/
  | deadlock (pending : List String)
  /-- A check is about to be prepared by so many others. -/
  | preparing (name : String) (count : Nat)
  /-- A check ran to prepare another. -/
  | prepared (name forCheck : String) (verdict : Verdict)
  /-- The body of a check starts. -/
  | started (name : String)
  /-- The body of a check ended. -/
  | finished (name : String) (verdict : Verdict)
  /-- A check died while so many others were pending. -/
  | died (name : String) (pending : Nat)
  /-- A run came to its end. -/
  | ended (done notRun : Nat)
  /-- A file is checked for leaks. -/
  | scanning (file : String)
  /-- A function may leave handles open. -/
  | leaking (function : String) (names : NameSet)
  /-- A conditional on the failure to open a handle is skipped. -/
  | guarded (name : String)
  /-- A call that manages its own handles is passed over. -/
  | ignored (callee : String)
deriving DecidableEq

/-- A set of names between braces, each quoted. -/
def NameSet.quoted (names : NameSet) : String :=
  "\x7b" ++ Text.commaSeparated (names.toList.map Text.quoted) ++ "\x7d"

namespace Event

/-- The importance of an event. -/
def level : Event → Level
  | repeated _ | misfiled | deadlock _ | died _ _ => .warn
  | requested _ | catalogued _ | ended _ _ => .info
  | preparing _ _ | prepared _ _ _ | started _ | finished _ _ | scanning _ | leaking _ _ => .debug
  | guarded _ | ignored _ => .trace

/-- The wording of an event. -/
def message : Event → String
  | requested only => "run with Init \x7b only: " ++ Text.quotedList only ++ " \x7d"
  | repeated name => "check " ++ name ++ " registered more than once"
  | catalogued count => "registered " ++ toString count ++ " checks"
  | misfiled => "Trees holds something other than trees"
  | deadlock pending =>
    "deadlock, requirements never met for: " ++ Text.commaSeparated pending
  | preparing name count =>
    "prepare " ++ name ++ " by running " ++ toString count ++ " checks first"
  | prepared name forCheck verdict =>
    "prerequisite " ++ name ++ " of " ++ forCheck ++ ": " ++ verdict.tag
  | started name => "run " ++ name
  | finished name verdict => "finish " ++ name ++ ": " ++ verdict.tag
  | died name pending => name ++ " died, not running " ++ toString pending ++ " more checks"
  | ended done notRun => toString done ++ " checks done, " ++ toString notRun ++ " not run"
  | scanning file => "check " ++ file ++ " for socket leaks"
  | leaking function names => function ++ " may leak " ++ names.quoted
  | guarded name => "skip if on !" ++ name
  | ignored callee => "ignore " ++ callee

end Event

end ScriptLint
