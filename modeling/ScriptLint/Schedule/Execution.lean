import ScriptLint.Check.Basic

/-!
# Executions

One execution of a check: what was known when its turn came, the executions that prepared it, and
what its body made of the facts it started from. An execution is a tree, since the checks that
prepare another may be prepared in turn.

## Main definitions

* `Execution α`: one execution of a check
* `Execution.history`: every execution that took place for one, in the order of their bodies
* `Preparation α`: what comes between the turn of a check and its body
* `Execution.ofPreparation`: a prepared check carried out
-/

namespace ScriptLint

/-- One execution of a check. -/
structure Execution (α : Type) where
  /-- The check that ran. -/
  check : Check α
  /-- The checks under preparation when its turn came, the innermost first: it ran to prepare
  these. -/
  preparing : List String
  /-- The facts when its turn came. -/
  arrival : Facts
  /-- The executions that prepared it, in order. -/
  prerequisites : List (Execution α)
  /-- The facts that its body started from. -/
  start : Facts
  /-- What its body handed back and left behind. -/
  outcome : Outcome α

namespace Execution

variable {α : Type}

mutual

/-- Every execution that took place for one, in the order of their bodies: those that prepared it,
each with its own history, and then itself. -/
def history : Execution α → List (Execution α)
  | ⟨check, preparing, arrival, prerequisites, start, outcome⟩ =>
    histories prerequisites ++ [⟨check, preparing, arrival, prerequisites, start, outcome⟩]

/-- The histories of a list of executions, one after the other. -/
def histories : List (Execution α) → List (Execution α)
  | [] => []
  | execution :: rest => history execution ++ histories rest

end

/-- The verdict of the check. -/
def verdict (execution : Execution α) : Verdict :=
  execution.outcome.report.verdict

/-- Whether the check died. -/
def died (execution : Execution α) : Bool :=
  execution.verdict = .died

/-- The events of an execution from the start of its body on. If the check ran to prepare
another, the last one says so. -/
def journal (execution : Execution α) : List Event :=
  let name := execution.check.name
  .started name :: execution.outcome.journal ++ .finished name execution.verdict ::
    match execution.preparing with
    | [] => []
    | prepared :: _ => [.prepared name prepared execution.verdict]

end Execution

/-- What comes between the turn of a check and its body: the executions that prepare it, with the
facts and the events they leave behind. -/
structure Preparation (α : Type) where
  prerequisites : List (Execution α)
  facts : Facts
  journal : List Event := []

/-- No preparation at all. -/
def Preparation.none {α : Type} (facts : Facts) : Preparation α :=
  { prerequisites := [], facts }

/-- Carries out a check after its preparation. -/
def Execution.ofPreparation {α : Type} (check : Check α) (preparing : List String)
    (arrival : Facts) (preparation : Preparation α) : Execution α where
  check
  preparing
  arrival
  prerequisites := preparation.prerequisites
  start := preparation.facts
  outcome := check.body.run {} preparation.facts

end ScriptLint
