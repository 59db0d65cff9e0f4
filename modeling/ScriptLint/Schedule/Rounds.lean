import ScriptLint.Schedule.Execution

/-!
# Rounds

Pending checks run in rounds. A round takes the checks that are ready when it begins, in pending
order, and carries them out one after the other; a check that becomes ready in the meantime waits
for the next round. The rounds end when nothing is pending, when nothing pending is ready, or as
soon as a check dies.

How a check is prepared before its body runs is a parameter of the rounds.

## Main definitions

* `Halt`: why rounds end before every pending check ran
* `Run α`: how the rounds went
* `Round.carryOut`: one round
* `rounds`: all rounds

## Main results

* `Round.length_carryOut_lt`: a round leaves fewer checks pending than it found
* `rounds_congr`: only the preparation of pending checks matters
-/

namespace ScriptLint

variable {α : Type}

/-- Why rounds end before every pending check ran. -/
inductive Halt where
  /-- A check died. -/
  | fatal
  /-- None of the pending checks is ready. -/
  | deadlock
deriving DecidableEq, Inhabited

/-- How the rounds went. -/
structure Run (α : Type) where
  /-- The executions of pending checks, in order. -/
  done : List (Execution α)
  /-- Why the rounds ended early, if they did. -/
  halt : Option Halt
  /-- The checks that are still pending, in order. -/
  notRun : List (Check α)
  /-- The facts afterwards. -/
  facts : Facts
  /-- The events on the way. -/
  journal : List Event

/-- How one round went. -/
structure Round (α : Type) where
  /-- The executions of the round, in order. -/
  done : List (Execution α)
  /-- Whether the last of them died. -/
  died : Bool
  /-- The checks that are still pending, in order. -/
  pending : List (Check α)
  /-- The facts afterwards. -/
  facts : Facts
  /-- The events on the way. -/
  journal : List Event

/-- Whatever prepares a check in view of the facts when its turn comes. -/
abbrev Prepare (α : Type) := Check α → Facts → Preparation α

/-- The checks of other names than a given one. -/
def Check.others (name : String) (checks : List (Check α)) : List (Check α) :=
  checks.filter (·.name ≠ name)

namespace Round

/-- Carries out the checks of a round in order, up to the first that dies. Each check that ran is
no longer pending, nor is any other of its name. -/
def carryOut (preparing : List String) (prepare : Prepare α) :
    List (Check α) → List (Check α) → Facts → Round α
  | [], pending, facts => { done := [], died := false, pending, facts, journal := [] }
  | check :: ready, pending, facts =>
    let preparation := prepare check facts
    let execution := Execution.ofPreparation check preparing facts preparation
    let pending := Check.others check.name pending
    let facts := execution.outcome.facts
    let journal := preparation.journal ++ execution.journal
    if execution.died then
      { done := [execution], died := true, pending, facts,
        journal := journal ++ [.died check.name pending.length] }
    else
      let rest := carryOut preparing prepare ready pending facts
      { rest with done := execution :: rest.done, journal := journal ++ rest.journal }

/-- What is pending after a round was pending before it. -/
theorem pending_carryOut_sublist (preparing : List String) (prepare : Prepare α)
    (ready pending : List (Check α)) (facts : Facts) :
    (carryOut preparing prepare ready pending facts).pending.Sublist pending := by
  induction ready generalizing pending facts with
  | nil => exact List.Sublist.refl pending
  | cons check ready ih =>
    rw [carryOut]
    dsimp only
    split
    · exact List.filter_sublist
    · exact (ih _ _).trans List.filter_sublist

/-- A round that carries out a pending check leaves fewer checks pending than it found. -/
theorem length_carryOut_lt (preparing : List String) (prepare : Prepare α) {check : Check α}
    (ready : List (Check α)) {pending : List (Check α)} (facts : Facts) (h : check ∈ pending) :
    (carryOut preparing prepare (check :: ready) pending facts).pending.length <
      pending.length := by
  have hlt : (Check.others check.name pending).length < pending.length :=
    List.length_filter_lt_length_iff_exists.2 ⟨check, h, by simp⟩
  rw [carryOut]
  dsimp only
  split
  · exact hlt
  · exact Nat.lt_of_le_of_lt (pending_carryOut_sublist ..).length_le hlt

/-- A round depends only on how the checks it carries out are prepared. -/
theorem carryOut_congr (preparing : List String) {prepare other : Prepare α}
    {ready : List (Check α)} (h : ∀ check ∈ ready, prepare check = other check)
    (pending : List (Check α)) (facts : Facts) :
    carryOut preparing prepare ready pending facts =
      carryOut preparing other ready pending facts := by
  induction ready generalizing pending facts with
  | nil => rfl
  | cons check ready ih =>
    have hrest := ih fun check hcheck => h check (List.mem_cons_of_mem _ hcheck)
    simp only [carryOut, h check List.mem_cons_self, hrest]

end Round

/-- The checks of a round are pending. -/
theorem mem_of_ready {pending ready : List (Check α)} {facts : Facts} {check : Check α}
    (hready : pending.filter (·.ready facts) = ready) (h : check ∈ ready) : check ∈ pending :=
  (List.mem_filter.1 (hready ▸ h)).1

/-- Runs the pending checks in rounds. Each round takes the pending checks that are ready when it
begins. -/
def rounds (preparing : List String) (prepare : Prepare α) (pending : List (Check α))
    (facts : Facts) : Run α :=
  match _hready : pending.filter (·.ready facts) with
  | [] =>
    if pending.isEmpty then { done := [], halt := none, notRun := [], facts, journal := [] }
    else
      { done := [], halt := some .deadlock, notRun := pending, facts,
        journal := [.deadlock (pending.map Check.name)] }
  | check :: ready =>
    let round := Round.carryOut preparing prepare (check :: ready) pending facts
    if round.died then
      { done := round.done, halt := some .fatal, notRun := round.pending, facts := round.facts,
        journal := round.journal }
    else
      let rest := rounds preparing prepare round.pending round.facts
      { rest with done := round.done ++ rest.done, journal := round.journal ++ rest.journal }
termination_by pending.length
decreasing_by
  exact Round.length_carryOut_lt preparing prepare ready facts
    (mem_of_ready _hready List.mem_cons_self)

/-- Nothing is left to do when nothing is pending. -/
@[simp]
theorem rounds_nil (preparing : List String) (prepare : Prepare α) (facts : Facts) :
    rounds preparing prepare [] facts =
      { done := [], halt := none, notRun := [], facts, journal := [] } := by
  rw [rounds]
  rfl

/-- The rounds end in deadlock when checks are pending and none of them is ready. -/
theorem rounds_of_filter_eq_nil (preparing : List String) (prepare : Prepare α)
    {pending : List (Check α)} {facts : Facts} (hne : pending ≠ [])
    (hready : pending.filter (·.ready facts) = []) :
    rounds preparing prepare pending facts =
      { done := [], halt := some .deadlock, notRun := pending, facts,
        journal := [.deadlock (pending.map Check.name)] } := by
  rw [rounds.eq_def]
  split
  · simp [hne]
  · next h => exact absurd (hready.symm.trans h) (by simp)

/-- Otherwise a round is carried out. The rounds end if a check died, and go on with what is still
pending if none did. -/
theorem rounds_of_filter_eq_cons (preparing : List String) (prepare : Prepare α)
    {pending ready : List (Check α)} {facts : Facts} {check : Check α}
    (hready : pending.filter (·.ready facts) = check :: ready) :
    rounds preparing prepare pending facts =
      let round := Round.carryOut preparing prepare (check :: ready) pending facts
      if round.died then
        { done := round.done, halt := some .fatal, notRun := round.pending, facts := round.facts,
          journal := round.journal }
      else
        let rest := rounds preparing prepare round.pending round.facts
        { rest with done := round.done ++ rest.done, journal := round.journal ++ rest.journal } := by
  rw [rounds.eq_def]
  split
  · next h => exact absurd (h.symm.trans hready) (by simp)
  · next h =>
    obtain ⟨rfl, rfl⟩ := List.cons.inj (h.symm.trans hready)
    rfl

/-- Rounds depend only on how the pending checks are prepared. -/
theorem rounds_congr (preparing : List String) {prepare other : Prepare α}
    {pending : List (Check α)} (h : ∀ check ∈ pending, prepare check = other check)
    (facts : Facts) :
    rounds preparing prepare pending facts = rounds preparing other pending facts := by
  induction hn : pending.length using Nat.strongRecOn generalizing pending facts with
  | ind n ih =>
    subst hn
    rcases hready : pending.filter (·.ready facts) with _ | ⟨check, ready⟩
    · rcases pending with _ | ⟨first, rest⟩
      · simp
      · rw [rounds_of_filter_eq_nil _ _ (by simp) hready,
          rounds_of_filter_eq_nil _ _ (by simp) hready]
    · have hround := Round.carryOut_congr preparing
        (fun c hc => h c (mem_of_ready hready hc)) pending facts
      have hrest := ih _ (Round.length_carryOut_lt preparing other ready facts
          (mem_of_ready hready List.mem_cons_self))
        (fun c hc => h c ((Round.pending_carryOut_sublist ..).subset hc))
        (Round.carryOut preparing other (check :: ready) pending facts).facts rfl
      rw [rounds_of_filter_eq_cons _ _ hready, rounds_of_filter_eq_cons _ _ hready, hround]
      simp only [hrest]

end ScriptLint
