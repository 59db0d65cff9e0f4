/-!
# Errors

What can be wrong with a request. Verdicts of checks, even fatal ones, are results and not errors.
-/

namespace ScriptLint

/-- Why a request was refused. -/
inductive Error where
  /-- No severity has this name. -/
  | unknownSeverity (level : String)
  /-- No check of the catalog has this name or title. -/
  | unknownCheck (name : String)
deriving DecidableEq, Inhabited

/-- The wording of an error. -/
def Error.message : Error → String
  | unknownSeverity level => "reporting level " ++ level ++ " is not known"
  | unknownCheck name => "no check named " ++ name

end ScriptLint
