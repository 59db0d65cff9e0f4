import ScriptLint.Text.Title
import ScriptLint.Error

/-!
# Reports

What one run of a check says: a verdict, and lines of text that each have a severity. A report is
shown at a level, which keeps the lines that are at least as severe.

## Main definitions

* `Severity`: how bad a line is; `Severity.ofLevel` reads the name of a level
* `Verdict`: how a check ended
* `Report`: a verdict and the lines reported so far
* `Report.kept`: the texts of the lines shown at a level
* `Report.display`: the report of a check as it is printed
-/

namespace ScriptLint

/-- How bad a reported line is, from the most to the least severe. -/
inductive Severity where
  /-- An error. -/
  | error
  /-- A warning. -/
  | warn
  /-- Further information. -/
  | info
deriving DecidableEq, Inhabited

namespace Severity

/-- The rank of a severity: the most severe comes first. -/
def rank : Severity → Nat
  | error => 0
  | warn => 1
  | info => 2

instance : LE Severity where
  le a b := a.rank ≤ b.rank

instance (a b : Severity) : Decidable (a ≤ b) :=
  inferInstanceAs (Decidable (a.rank ≤ b.rank))

/-- The severity that a level names. -/
def ofLevel (level : String) : Except Error Severity :=
  match level with
  | "error" => .ok error
  | "warn" => .ok warn
  | "info" => .ok info
  | _ => .error (.unknownSeverity level)

end Severity

/-- How a check ended. -/
inductive Verdict where
  /-- No verdict was given. -/
  | void
  /-- The check passed. -/
  | pass
  /-- The check failed. -/
  | fail
  /-- The check passed with warnings. -/
  | warn
  /-- The check did not apply. -/
  | skip
  /-- The check met a fatal error, after which no further check runs. -/
  | died
deriving DecidableEq, Inhabited

/-- The tag that stands for a verdict in reports. -/
def Verdict.tag : Verdict → String
  | void => "VOID"
  | pass => "PASS"
  | fail => "FAIL"
  | warn => "WARN"
  | skip => "SKIP"
  | died => "DIED"

/-- One reported line. -/
structure Line where
  severity : Severity
  text : String
deriving DecidableEq, Inhabited

/-- The verdict of a check and the lines it reported, in order. -/
structure Report where
  verdict : Verdict := .void
  lines : List Line := []
deriving DecidableEq, Inhabited

namespace Report

/-- The report with another verdict. -/
def conclude (report : Report) (verdict : Verdict) : Report :=
  { report with verdict }

/-- The report with one more line. -/
def add (report : Report) (line : Line) : Report :=
  { report with lines := report.lines ++ [line] }

/-- The texts of the lines that are at least as severe as a level, in order. -/
def kept (report : Report) (level : Severity) : List String :=
  (report.lines.filter (·.severity ≤ level)).map (·.text)

/-- The kept texts, one a line. -/
def filtered (report : Report) (level : Severity) : String :=
  String.intercalate "\n" (report.kept level)

/-- The report of the check called `name`, at a level: the verdict and the title of the check,
then the kept texts. -/
def display (report : Report) (name : String) (level : Severity) : String :=
  let body := report.filtered level
  "[" ++ report.verdict.tag ++ "] " ++ Text.title name ++ "\n" ++
    if body = "" then "" else body ++ "\n"

end Report

end ScriptLint
