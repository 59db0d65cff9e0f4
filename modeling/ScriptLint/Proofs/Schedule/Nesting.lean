import ScriptLint.Proofs.Schedule.History

/-!
# The names under preparation

Checks may provide for each other in a circle, and a check that is not in the catalog may be run
with it. What makes the preparation of checks end all the same is the list of names under
preparation: it is shared by all calls, a name is put on it before the prerequisites of a check run
and taken off when they are done, and a check whose name is on it prepares nothing.

Here the runner is stated once more, as rules for calls that share that one list. A derivation by
these rules is a finite tree of calls, so the existence of one for every catalog, all pending checks
and all facts says that runs end. What a call does to the list is part of what the rules relate, and
so are all calls made on the way.

## Main definitions

* `Call`: a call, with the names under preparation as it is entered and as it returns
* `Catalog.Runs`, `Catalog.CarriesOut`, `Catalog.Prepares`: the rules for a run, for a round and for
  the preparation of a check
* `Catalog.Nested`: what is true of the names under preparation while checks are pending

## Main results

* `Catalog.Runs.eq`: a run by the rules is the run of the catalog, and leaves the list as it was
* `Catalog.exists_runs`: there is a run by the rules
* `Catalog.Nested.push`: the preparation of a pending check keeps the list as it should be
* `Catalog.Nested.length_le`: the list is never longer than the catalog
* `Catalog.suffix_of_mem_prepare`: what runs to prepare a check runs with its name on the list
* `Catalog.run_ends_without_reentry`: runs end, and no check runs while it is being prepared
-/

namespace ScriptLint

variable {α : Type}

/-- A call of the runner: the checks that it is to run or to prepare, and the names under
preparation as it is entered and as it returns, the innermost first. -/
structure Call (α : Type) where
  checks : List (Check α)
  entry : List String
  exit : List String

namespace Catalog

/-! ## The rules

In each of the three relations the names under preparation come first, then what the call is given,
then its result, the names under preparation as it returns, and the calls it made. -/

mutual

/-- The rounds of a run on pending checks. -/
inductive Runs (catalog : Catalog α) : List String → List (Check α) → Facts →
    Run α → List String → List (Call α) → Prop
  /-- Nothing is pending. -/
  | nothing (stack : List String) (facts : Facts) :
      Runs catalog stack [] facts
        { done := [], halt := none, notRun := [], facts, journal := [] } stack []
  /-- Checks are pending, and none is ready. -/
  | deadlock (stack : List String) {pending : List (Check α)} {facts : Facts} (hne : pending ≠ [])
      (hready : pending.filter (·.ready facts) = []) :
      Runs catalog stack pending facts
        { done := [], halt := some .deadlock, notRun := pending, facts,
          journal := [.deadlock (pending.map Check.name)] } stack []
  /-- A check dies in the first round. -/
  | death {stack after : List String} {pending : List (Check α)} {facts : Facts}
      {round : Round α} {calls : List (Call α)} (hne : pending.filter (·.ready facts) ≠ [])
      (hround : CarriesOut catalog stack (pending.filter (·.ready facts)) pending facts
        round after calls) (hdied : round.died = true) :
      Runs catalog stack pending facts
        { done := round.done, halt := some .fatal, notRun := round.pending, facts := round.facts,
          journal := round.journal } after calls
  /-- No check dies in the first round, and the other rounds follow. -/
  | next {stack middle after : List String} {pending : List (Check α)} {facts : Facts}
      {round : Round α} {rest : Run α} {calls more : List (Call α)}
      (hne : pending.filter (·.ready facts) ≠ [])
      (hround : CarriesOut catalog stack (pending.filter (·.ready facts)) pending facts
        round middle calls) (hlive : round.died = false)
      (hrest : Runs catalog middle round.pending round.facts rest after more) :
      Runs catalog stack pending facts
        { rest with done := round.done ++ rest.done, journal := round.journal ++ rest.journal }
        after (calls ++ more)

/-- A round: the checks found ready, and those pending. -/
inductive CarriesOut (catalog : Catalog α) : List String → List (Check α) → List (Check α) →
    Facts → Round α → List String → List (Call α) → Prop
  /-- No check is left in the round. -/
  | nil (stack : List String) (pending : List (Check α)) (facts : Facts) :
      CarriesOut catalog stack [] pending facts
        { done := [], died := false, pending, facts, journal := [] } stack []
  /-- The next check dies. -/
  | died {stack after : List String} {check : Check α} {ready pending : List (Check α)}
      {facts : Facts} {preparation : Preparation α} {execution : Execution α}
      {calls : List (Call α)} (hprepare : Prepares catalog stack check facts preparation after calls)
      (hexecution : execution = .ofPreparation check stack facts preparation)
      (hdied : execution.died = true) :
      CarriesOut catalog stack (check :: ready) pending facts
        { done := [execution], died := true, pending := Check.others check.name pending,
          facts := execution.outcome.facts,
          journal := preparation.journal ++ execution.journal ++
            [.died check.name (Check.others check.name pending).length] }
        after (⟨[check], stack, after⟩ :: calls)
  /-- The next check does not die, and the rest of the round follows. -/
  | next {stack middle after : List String} {check : Check α} {ready pending : List (Check α)}
      {facts : Facts} {preparation : Preparation α} {execution : Execution α} {rest : Round α}
      {calls more : List (Call α)}
      (hprepare : Prepares catalog stack check facts preparation middle calls)
      (hexecution : execution = .ofPreparation check stack facts preparation)
      (hlive : execution.died = false)
      (hrest : CarriesOut catalog middle ready (Check.others check.name pending)
        execution.outcome.facts rest after more) :
      CarriesOut catalog stack (check :: ready) pending facts
        { rest with done := execution :: rest.done,
                    journal := preparation.journal ++ execution.journal ++ rest.journal }
        after (⟨[check], stack, middle⟩ :: (calls ++ more))

/-- The preparation of a check. -/
inductive Prepares (catalog : Catalog α) : List String → Check α → Facts →
    Preparation α → List String → List (Call α) → Prop
  /-- Outside test mode, for a check under preparation, or with no prerequisite available. -/
  | idle {stack : List String} {check : Check α} {facts : Facts}
      (hidle : ¬ (facts.testMode ∧ check.name ∉ stack ∧ catalog.available stack check ≠ [])) :
      Prepares catalog stack check facts (.none facts) stack []
  /-- The name of the check is put on the list, its prerequisites run, and the name that was put on
  the list last is taken off. -/
  | nested {stack after : List String} {check : Check α} {facts : Facts} {run : Run α}
      {calls : List (Call α)}
      (hnested : facts.testMode ∧ check.name ∉ stack ∧ catalog.available stack check ≠ [])
      (hrun : Runs catalog (check.name :: stack) (catalog.available stack check) facts
        run after calls) :
      Prepares catalog stack check facts
        { prerequisites := run.done, facts := run.facts,
          journal := .preparing check.name (catalog.available stack check).length :: run.journal }
        after.tail (⟨catalog.available stack check, check.name :: stack, after⟩ :: calls)

end

/-! ## The rules describe the runner

By induction on the derivation: what a call returns is what the runner computes, and the list is
handed back as it was. Both are needed at once, since the list that a call leaves is the one that
the next call finds. -/

mutual

/-- **A run by the rules is the run of the catalog**, and leaves the names under preparation as they
were. -/
theorem Runs.eq {catalog : Catalog α} {stack after : List String} {pending : List (Check α)}
    {facts : Facts} {run : Run α} {calls : List (Call α)}
    (h : catalog.Runs stack pending facts run after calls) :
    run = rounds stack (catalog.prepare stack) pending facts ∧ after = stack := by
  match h with
  | .nothing _ _ => exact ⟨(rounds_nil ..).symm, rfl⟩
  | .deadlock _ hne hready => exact ⟨(rounds_of_filter_eq_nil _ _ hne hready).symm, rfl⟩
  | .death hne hround hdied =>
    obtain ⟨rfl, rfl⟩ := hround.eq
    obtain ⟨check, ready, hready⟩ := List.exists_cons_of_ne_nil hne
    rw [hready] at hdied ⊢
    rw [rounds_of_filter_eq_cons _ _ hready]
    exact ⟨(if_pos hdied).symm, rfl⟩
  | .next hne hround hlive hrest =>
    -- the other rounds find the list that this round left, so they are read off first
    obtain ⟨hrest, hafter⟩ := hrest.eq
    obtain ⟨rfl, rfl⟩ := hround.eq
    subst hrest hafter
    obtain ⟨check, ready, hready⟩ := List.exists_cons_of_ne_nil hne
    rw [hready] at hlive ⊢
    rw [rounds_of_filter_eq_cons _ _ hready]
    exact ⟨(if_neg (by simp [hlive])).symm, rfl⟩
termination_by structural h

/-- A round by the rules is the round of the catalog. -/
theorem CarriesOut.eq {catalog : Catalog α} {stack after : List String}
    {ready pending : List (Check α)} {facts : Facts} {round : Round α} {calls : List (Call α)}
    (h : catalog.CarriesOut stack ready pending facts round after calls) :
    round = Round.carryOut stack (catalog.prepare stack) ready pending facts ∧ after = stack := by
  match h with
  | .nil _ _ _ => exact ⟨rfl, rfl⟩
  | .died hprepare hexecution hdied =>
    obtain ⟨rfl, rfl⟩ := hprepare.eq
    subst hexecution
    rw [Round.carryOut]
    exact ⟨(if_pos hdied).symm, rfl⟩
  | .next hprepare hexecution hlive hrest =>
    obtain ⟨hrest, hafter⟩ := hrest.eq
    obtain ⟨rfl, rfl⟩ := hprepare.eq
    subst hexecution hrest hafter
    rw [Round.carryOut]
    exact ⟨(if_neg (by simp [hlive])).symm, rfl⟩
termination_by structural h

/-- Preparation by the rules is that of the catalog: the name that was put on the list is the one
that is taken off. -/
theorem Prepares.eq {catalog : Catalog α} {stack after : List String} {check : Check α}
    {facts : Facts} {preparation : Preparation α} {calls : List (Call α)}
    (h : catalog.Prepares stack check facts preparation after calls) :
    preparation = catalog.prepare stack check facts ∧ after = stack := by
  match h with
  | .idle hidle =>
    rw [prepare_eq]
    exact ⟨(if_neg hidle).symm, rfl⟩
  | .nested hnested hrun =>
    obtain ⟨rfl, rfl⟩ := hrun.eq
    rw [prepare_eq]
    exact ⟨(if_pos hnested).symm, rfl⟩
termination_by structural h

end

/-! ## Runs end

The measure that makes preparation end, the number of checks of the catalog that are not under
preparation, is inside `prepare_induction`; here it only has to be said which rule applies. -/

/-- There is a round by the rules, if there is a preparation for each of its checks. -/
theorem exists_carriesOut {catalog : Catalog α} {stack : List String} {ready : List (Check α)}
    (hprepare : ∀ check ∈ ready, ∀ later, ∃ calls, catalog.Prepares stack check later
      (catalog.prepare stack check later) stack calls)
    (pending : List (Check α)) (facts : Facts) :
    ∃ calls, catalog.CarriesOut stack ready pending facts
      (Round.carryOut stack (catalog.prepare stack) ready pending facts) stack calls := by
  induction ready generalizing pending facts with
  | nil => exact ⟨[], .nil stack pending facts⟩
  | cons check ready ih =>
    obtain ⟨calls, hcheck⟩ := hprepare check List.mem_cons_self facts
    obtain ⟨more, hrest⟩ := ih (fun c hc => hprepare c (List.mem_cons_of_mem _ hc))
      (Check.others check.name pending)
      (Execution.ofPreparation check stack facts (catalog.prepare stack check facts)).outcome.facts
    rw [Round.carryOut]
    dsimp only
    split
    · next hdied => exact ⟨_, .died hcheck rfl hdied⟩
    · next hlive => exact ⟨_, .next hcheck rfl (by simpa using hlive) hrest⟩

/-- There is a run by the rules, if there is a preparation for each of the pending checks. -/
theorem exists_runs_of_prepares {catalog : Catalog α} {stack : List String}
    {pending : List (Check α)}
    (hprepare : ∀ check ∈ pending, ∀ later, ∃ calls, catalog.Prepares stack check later
      (catalog.prepare stack check later) stack calls) (facts : Facts) :
    ∃ calls, catalog.Runs stack pending facts
      (rounds stack (catalog.prepare stack) pending facts) stack calls := by
  revert hprepare
  refine rounds_induction stack (catalog.prepare stack)
    (motive := fun pending facts run =>
      (∀ check ∈ pending, ∀ later, ∃ calls, catalog.Prepares stack check later
        (catalog.prepare stack check later) stack calls) →
        ∃ calls, catalog.Runs stack pending facts run stack calls)
    ?nothing ?deadlock ?death ?next pending facts
  case nothing =>
    intro facts _
    exact ⟨[], .nothing stack facts⟩
  case deadlock =>
    intro pending facts hne hready _
    exact ⟨[], .deadlock stack hne hready⟩
  case death =>
    rintro pending facts round hne rfl hdied hprepare
    obtain ⟨calls, hround⟩ := exists_carriesOut
      (fun check hcheck => hprepare check (List.mem_filter.mp hcheck).1) pending facts
    exact ⟨calls, .death hne hround hdied⟩
  case next =>
    rintro pending facts round rest hne rfl hlive - ih hprepare
    obtain ⟨calls, hround⟩ := exists_carriesOut
      (fun check hcheck => hprepare check (List.mem_filter.mp hcheck).1) pending facts
    obtain ⟨more, hrest⟩ := ih fun check hcheck =>
      hprepare check ((Round.pending_carryOut_sublist ..).subset hcheck)
    exact ⟨calls ++ more, .next hne hround hlive hrest⟩

/-- The preparation of any check ends, also where checks provide for each other in a circle. -/
theorem exists_prepares (catalog : Catalog α) (stack : List String) (check : Check α)
    (facts : Facts) :
    ∃ calls, catalog.Prepares stack check facts (catalog.prepare stack check facts) stack calls := by
  refine catalog.prepare_induction
    (motive := fun stack check facts preparation =>
      ∃ calls, catalog.Prepares stack check facts preparation stack calls)
    ?idle ?nested stack check facts
  case idle =>
    intro stack check facts hidle
    exact ⟨[], .idle hidle⟩
  case nested =>
    rintro stack check facts run htest hnew hne rfl ih
    obtain ⟨calls, hrun⟩ := exists_runs_of_prepares ih facts
    exact ⟨_, .nested ⟨htest, hnew, hne⟩ hrun⟩

/-- **There is a run by the rules**, whatever is pending and whatever is under preparation. -/
theorem exists_runs (catalog : Catalog α) (stack : List String) (pending : List (Check α))
    (facts : Facts) :
    ∃ calls, catalog.Runs stack pending facts
      (rounds stack (catalog.prepare stack) pending facts) stack calls :=
  exists_runs_of_prepares (fun check _ later => catalog.exists_prepares stack check later) facts

/-! ## What the list looks like

A check that is not in the catalog can only be under preparation if it was pending at top level, so
at most the outermost name is not in the catalog. In exchange, at least one pending check of the
catalog is not on the list, which leaves room for that name. -/

/-- What is true of the names under preparation while checks are pending. -/
structure Nested (catalog : Catalog α) (stack : List String) (pending : List (Check α)) : Prop where
  /-- No name is under preparation twice. -/
  nodup : stack.Nodup
  /-- No pending check is under preparation. -/
  disjoint : ∀ check ∈ pending, check.name ∉ stack
  /-- Below the top level, the pending checks are in the catalog. -/
  pending_mem : stack ≠ [] → ∀ check ∈ pending, check.name ∈ catalog.names
  /-- All names under preparation but the outermost are in the catalog. -/
  dropLast_mem : ∀ name ∈ stack.dropLast, name ∈ catalog.names

namespace Nested

variable {catalog : Catalog α} {stack : List String} {pending fewer : List (Check α)}

/-- At top level nothing is under preparation. -/
theorem top (catalog : Catalog α) (pending : List (Check α)) : catalog.Nested [] pending where
  nodup := List.nodup_nil
  disjoint := by simp
  pending_mem := by simp
  dropLast_mem := by simp

theorem mono (h : catalog.Nested stack pending) (hsub : fewer ⊆ pending) :
    catalog.Nested stack fewer where
  nodup := h.nodup
  disjoint := fun check hcheck => h.disjoint check (hsub hcheck)
  pending_mem := fun hne check hcheck => h.pending_mem hne check (hsub hcheck)
  dropLast_mem := h.dropLast_mem

/-- **The preparation of a pending check** keeps the names under preparation as they should be. -/
theorem push (h : catalog.Nested stack pending) {check : Check α} (hcheck : check ∈ pending) :
    catalog.Nested (check.name :: stack) (catalog.available stack check) where
  nodup := List.nodup_cons.mpr ⟨h.disjoint check hcheck, h.nodup⟩
  disjoint := fun _ hmem => (mem_available hmem).2
  pending_mem := fun _ _ hmem => (mem_available hmem).1
  dropLast_mem := by
    intro name hname
    by_cases hne : stack = []
    · subst hne
      cases hname
    · rw [List.dropLast_cons_of_ne_nil hne] at hname
      rcases List.mem_cons.mp hname with rfl | hname
      · exact h.pending_mem hne check hcheck
      · exact h.dropLast_mem name hname

/-- **The names under preparation are never more than the checks of the catalog**, while a check is
pending: the outermost name may not be in the catalog, but the pending check is, and is not among
them. -/
theorem length_le (h : catalog.Nested stack pending) {check : Check α} (hcheck : check ∈ pending) :
    stack.length ≤ catalog.checks.length := by
  by_cases hne : stack = []
  · simp [hne]
  -- the outermost name, which need not be in the catalog, makes room for the pending check
  have hnodup : (check.name :: stack.dropLast).Nodup := by
    refine List.nodup_cons.mpr ⟨fun hmem => ?_, h.nodup.sublist (List.dropLast_sublist stack)⟩
    exact h.disjoint check hcheck ((List.dropLast_sublist stack).subset hmem)
  have hsub : check.name :: stack.dropLast ⊆ catalog.names :=
    List.cons_subset.mpr ⟨h.pending_mem hne check hcheck, h.dropLast_mem⟩
  have hle := hnodup.length_le_of_subset hsub
  have hpos : 0 < stack.length := List.length_pos_iff.mpr hne
  simp only [List.length_cons, List.length_dropLast, names, List.length_map] at hle
  omega

end Nested

/-- A call that is made as it should be: it hands the list back as it found it, without repeats, no
longer than the catalog and without the name of any check that it is to run or to prepare. -/
structure ProperCall (catalog : Catalog α) (call : Call α) : Prop where
  exit_eq : call.exit = call.entry
  nodup : call.entry.Nodup
  length_le : call.entry.length ≤ catalog.checks.length
  disjoint : ∀ check ∈ call.checks, check.name ∉ call.entry

/-- A call on checks for which the list is as it should be, and which hands it back, is proper. -/
theorem Nested.properCall {catalog : Catalog α} {stack : List String} {checks : List (Check α)}
    (h : catalog.Nested stack checks) (hne : stack = [] ∨ checks ≠ []) :
    catalog.ProperCall ⟨checks, stack, stack⟩ where
  exit_eq := rfl
  nodup := h.nodup
  length_le := by
    rcases hne with rfl | hne
    · exact Nat.zero_le _
    · obtain ⟨check, rest, rfl⟩ := List.exists_cons_of_ne_nil hne
      exact h.length_le List.mem_cons_self
  disjoint := h.disjoint

mutual

/-- All calls that a run makes are proper. -/
theorem Runs.properCall {catalog : Catalog α} {stack after : List String}
    {pending : List (Check α)} {facts : Facts} {run : Run α} {calls : List (Call α)}
    (h : catalog.Runs stack pending facts run after calls) (hstack : catalog.Nested stack pending) :
    ∀ call ∈ calls, catalog.ProperCall call := by
  match h with
  | .nothing _ _ => simp
  | .deadlock _ _ _ => simp
  | .death _ hround _ => exact hround.properCall (hstack.mono List.filter_sublist.subset)
  | .next _ hround _ hrest =>
    have hfirst := hround.properCall (hstack.mono List.filter_sublist.subset)
    have hlater := hrest.properCall
    obtain ⟨rfl, rfl⟩ := hround.eq
    intro call hcall
    rcases List.mem_append.mp hcall with hcall | hcall
    · exact hfirst call hcall
    · exact hlater (hstack.mono (Round.pending_carryOut_sublist ..).subset) call hcall
termination_by structural h

/-- All calls that a round makes are proper. -/
theorem CarriesOut.properCall {catalog : Catalog α} {stack after : List String}
    {ready pending : List (Check α)} {facts : Facts} {round : Round α} {calls : List (Call α)}
    (h : catalog.CarriesOut stack ready pending facts round after calls)
    (hstack : catalog.Nested stack ready) : ∀ call ∈ calls, catalog.ProperCall call := by
  match h with
  | .nil _ _ _ => simp
  | .died hprepare _ _ => exact hprepare.properCall (hstack.mono (by simp))
  | .next hprepare _ _ hrest =>
    have hfirst := hprepare.properCall (hstack.mono (by simp))
    have hlater := hrest.properCall
    obtain ⟨-, rfl⟩ := hprepare.eq
    intro call hcall
    rcases List.mem_cons.mp hcall with hcall | hcall
    · exact hfirst call (hcall ▸ List.mem_cons_self)
    rcases List.mem_append.mp hcall with hcall | hcall
    · exact hfirst call (List.mem_cons_of_mem _ hcall)
    · exact hlater (hstack.mono (List.subset_cons_self _ _)) call hcall
termination_by structural h

/-- The preparation of a check, and all calls that it makes, are proper. -/
theorem Prepares.properCall {catalog : Catalog α} {stack after : List String} {check : Check α}
    {facts : Facts} {preparation : Preparation α} {calls : List (Call α)}
    (h : catalog.Prepares stack check facts preparation after calls)
    (hstack : catalog.Nested stack [check]) :
    ∀ call ∈ ⟨[check], stack, after⟩ :: calls, catalog.ProperCall call := by
  match h with
  | .idle _ =>
    intro call hcall
    obtain rfl := List.mem_singleton.mp hcall
    exact hstack.properCall (Or.inr (by simp))
  | .nested hnested hrun =>
    have hpush := hstack.push List.mem_cons_self
    have hbelow := hrun.properCall hpush
    obtain ⟨-, rfl⟩ := hrun.eq
    intro call hcall
    rcases List.mem_cons.mp hcall with rfl | hcall
    · exact hstack.properCall (Or.inr (by simp))
    rcases List.mem_cons.mp hcall with rfl | hcall
    · exact hpush.properCall (Or.inr hnested.2.2)
    · exact hbelow call hcall
termination_by structural h

end

/-! ## No check runs while it is being prepared -/

/-- What runs to prepare a check runs with the name of the check on the list, on top of what was
there, and is itself not on it. -/
theorem suffix_of_mem_prepare (catalog : Catalog α) (preparing : List String) (check : Check α)
    (facts : Facts) :
    ∀ execution ∈ Execution.histories (catalog.prepare preparing check facts).prerequisites,
      check.name :: preparing <:+ execution.preparing ∧
        execution.check.name ∉ execution.preparing := by
  refine catalog.prepare_induction
    (motive := fun preparing check _ preparation =>
      ∀ execution ∈ Execution.histories preparation.prerequisites,
        check.name :: preparing <:+ execution.preparing ∧
          execution.check.name ∉ execution.preparing) ?idle ?nested preparing check facts
  case idle =>
    intro _ _ _ _ execution hmem
    simp [Preparation.none] at hmem
  case nested =>
    -- a prerequisite itself is available, hence not on the list; what prepares a prerequisite runs
    -- with more on the list, by induction
    rintro preparing check facts run - - - rfl ih execution hmem
    obtain ⟨direct, hdirect, hcase⟩ := Execution.mem_histories.mp hmem
    obtain ⟨hcheck, -, heq⟩ := (catalog.turns_rounds_prepare _ _ facts).of_mem hdirect
    rcases hcase with rfl | hbelow
    · have hlist : execution.preparing = check.name :: preparing :=
        congrArg Execution.preparing heq
      rw [hlist]
      exact ⟨List.suffix_refl _, (mem_available hcheck).2⟩
    · rw [heq] at hbelow
      obtain ⟨hsuffix, hnew⟩ := ih _ hcheck _ execution hbelow
      exact ⟨(List.suffix_cons _ _).trans hsuffix, hnew⟩

/-- **Runs end, and no check runs while it is being prepared.** For every catalog, also one whose
checks provide for each other in a circle, all pending checks and all facts there is a run by the
rules, and every run by the rules is the run of the catalog. At each of its calls the names under
preparation are without repeats, no more than the checks of the catalog, do not include the name of
any check that the call is to run or to prepare, and are the same as the call returns. So nothing
that runs to prepare a check has the name of that check. -/
theorem run_ends_without_reentry (catalog : Catalog α) (pending : List (Check α)) (facts : Facts) :
    (∃ run after calls, catalog.Runs [] pending facts run after calls) ∧
    (∀ run after calls, catalog.Runs [] pending facts run after calls →
      run = catalog.run pending facts ∧
      ∀ call ∈ (⟨pending, [], after⟩ : Call α) :: calls,
        call.entry.Nodup ∧ call.entry.length ≤ catalog.checks.length ∧
          (∀ check ∈ call.checks, check.name ∉ call.entry) ∧ call.exit = call.entry) ∧
    ∀ execution ∈ Execution.histories (catalog.run pending facts).done,
      ∀ prerequisite ∈ Execution.histories execution.prerequisites,
        prerequisite.check.name ≠ execution.check.name := by
  refine ⟨?_, ?_, ?_⟩
  · obtain ⟨calls, hrun⟩ := catalog.exists_runs [] pending facts
    exact ⟨_, _, calls, hrun⟩
  · intro run after calls hrun
    obtain ⟨heq, rfl⟩ := hrun.eq
    refine ⟨heq, fun call hcall => ?_⟩
    have hproper : catalog.ProperCall call := by
      rcases List.mem_cons.mp hcall with rfl | hcall
      · exact (Nested.top catalog pending).properCall (Or.inl rfl)
      · exact hrun.properCall (Nested.top catalog pending) call hcall
    exact ⟨hproper.nodup, hproper.length_le, hproper.disjoint, hproper.exit_eq⟩
  · intro execution hexecution prerequisite hmem
    rw [(genuine_of_mem_histories hexecution).prerequisites_eq] at hmem
    obtain ⟨hsuffix, hnew⟩ := catalog.suffix_of_mem_prepare _ _ _ prerequisite hmem
    intro hname
    exact hnew (hname ▸ hsuffix.subset List.mem_cons_self)

end Catalog

end ScriptLint
