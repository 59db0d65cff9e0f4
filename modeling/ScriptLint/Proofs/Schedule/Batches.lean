import ScriptLint.Proofs.Schedule.Stages

/-!
# Runs that no catalog has a part in

The catalog comes into a run only where a check is prepared: when its turn comes in test mode, and
only if the catalog has prerequisites for it. So if at each turn test mode is off, or two catalogs
have no prerequisites for the check, then both lead to one and the same run. It is that of a plain
loop: pending checks run in batches, and nothing comes between the turn of a check and its body.

Test mode may go on and off in the run, since bodies may file anything. What counts is each turn, so
the condition is about the executions that took place. Two ways of preparing checks that agree on
these lead to the same executions, turn after turn.

## Main definitions

* `Batches`, `batches`: the plain loop, with what it delivers and how it ends
* `Run.plain`: a run as the plain loop tells of it

## Main results

* `rounds_eq_of_agree`: rounds depend only on how the checks that ran were prepared
* `plain_rounds_eq`: the rounds without preparation are the plain loop
* `Catalog.catalog_matters_only_by_preparation`: when a run is the same with any catalog
-/

namespace ScriptLint

variable {α : Type}

/-! ## The plain loop -/

/-- What a loop over batches delivers, in order, and how it ends. -/
structure Batches (α : Type) where
  /-- The checks that ran, each with what its body handed back and left behind. -/
  delivered : List (Check α × Outcome α)
  /-- Why the loop ended early, if it did. -/
  halt : Option Halt
  /-- The checks that are still pending, in order. -/
  notRun : List (Check α)
  /-- The facts afterwards. -/
  facts : Facts

/-- Runs the checks of a batch one after the other, up to the first that dies. With a check that
ran, every check of its name is no longer pending. -/
def batch : List (Check α) → List (Check α) → Facts → Batches α
  | [], pending, facts => { delivered := [], halt := none, notRun := pending, facts }
  | check :: ready, pending, facts =>
    let outcome := check.body.run {} facts
    let pending := pending.filter (·.name ≠ check.name)
    if outcome.report.verdict = .died then
      { delivered := [(check, outcome)], halt := some .fatal, notRun := pending,
        facts := outcome.facts }
    else
      let rest := batch ready pending outcome.facts
      { rest with delivered := (check, outcome) :: rest.delivered }

/-- A run as the plain loop tells of it: how the checks were prepared is left aside. -/
def Run.plain (run : Run α) : Batches α where
  delivered := run.done.map Execution.result
  halt := run.halt
  notRun := run.notRun
  facts := run.facts

/-- A round as the plain loop tells of it. -/
def Round.plain (round : Round α) : Batches α where
  delivered := round.done.map Execution.result
  halt := if round.died then some .fatal else none
  notRun := round.pending
  facts := round.facts

/-- Prepares no check. -/
def Prepare.nothing : Prepare α :=
  fun _ => .none

/-- A round without preparation is a batch. -/
theorem Round.plain_carryOut (preparing : List String) (ready pending : List (Check α))
    (facts : Facts) :
    (carryOut preparing Prepare.nothing ready pending facts).plain = batch ready pending facts := by
  induction ready generalizing pending facts with
  | nil => rfl
  | cons check ready ih =>
    rw [carryOut, batch]
    dsimp only
    split
    · next hdied =>
      have hverdict : (check.body.run {} facts).report.verdict = .died := of_decide_eq_true hdied
      rw [if_pos hverdict]
      rfl
    · next hlive =>
      have hverdict : (check.body.run {} facts).report.verdict ≠ .died := mt decide_eq_true hlive
      have hrest := ih (pending.filter (·.name ≠ check.name)) (check.body.run {} facts).facts
      rw [if_neg hverdict, ← hrest]
      rfl

/-- Runs the pending checks in batches. Each batch is every pending check that is ready when it
begins, in pending order. -/
def batches (pending : List (Check α)) (facts : Facts) : Batches α :=
  match _hready : pending.filter (·.ready facts) with
  | [] =>
    { delivered := [], halt := if pending.isEmpty then none else some .deadlock, notRun := pending,
      facts }
  | check :: ready =>
    let first := batch (check :: ready) pending facts
    if first.halt = some .fatal then first
    else
      let rest := batches first.notRun first.facts
      { rest with delivered := first.delivered ++ rest.delivered }
termination_by pending.length
decreasing_by
  rw [← Round.plain_carryOut []]
  exact Round.length_carryOut_lt [] _ ready facts (mem_of_ready _hready List.mem_cons_self)

theorem batches_of_filter_eq_nil {pending : List (Check α)} {facts : Facts}
    (hready : pending.filter (·.ready facts) = []) :
    batches pending facts =
      { delivered := [], halt := if pending.isEmpty then none else some .deadlock,
        notRun := pending, facts } := by
  rw [batches.eq_def]
  split
  · rfl
  · next h => exact absurd (hready.symm.trans h) (by simp)

theorem batches_of_filter_ne_nil {pending : List (Check α)} {facts : Facts}
    (hready : pending.filter (·.ready facts) ≠ []) :
    batches pending facts =
      let first := batch (pending.filter (·.ready facts)) pending facts
      if first.halt = some .fatal then first
      else
        let rest := batches first.notRun first.facts
        { rest with delivered := first.delivered ++ rest.delivered } := by
  rw [batches.eq_def]
  split
  · next h => exact absurd h hready
  · next h => rw [h]

/-- **The rounds without preparation are the plain loop.** -/
theorem plain_rounds_eq (preparing : List String) (pending : List (Check α)) (facts : Facts) :
    (rounds preparing Prepare.nothing pending facts).plain = batches pending facts := by
  refine rounds_induction preparing Prepare.nothing
    (motive := fun pending facts run => run.plain = batches pending facts)
    ?nothing ?deadlock ?death ?next pending facts
  case nothing =>
    intro facts
    rw [batches_of_filter_eq_nil rfl]
    rfl
  case deadlock =>
    intro pending facts hne hready
    rw [batches_of_filter_eq_nil hready, if_neg (mt List.isEmpty_iff.mp hne)]
    rfl
  case death =>
    rintro pending facts round hne rfl hdied
    rw [batches_of_filter_ne_nil hne, ← Round.plain_carryOut preparing]
    simp [Run.plain, Round.plain, hdied]
  case next =>
    rintro pending facts round rest hne rfl hlive - ih
    rw [batches_of_filter_ne_nil hne, ← Round.plain_carryOut preparing]
    simp [Run.plain, Round.plain, hlive, ← ih]

/-! ## Preparations that agree where it counts -/

/-- A round depends only on how the checks that ran in it were prepared. -/
theorem Round.carryOut_eq_of_agree {preparing : List String} {prepare other : Prepare α}
    {ready pending : List (Check α)} {facts : Facts}
    (h : ∀ execution ∈ (carryOut preparing prepare ready pending facts).done,
      prepare execution.check execution.arrival = other execution.check execution.arrival) :
    carryOut preparing prepare ready pending facts =
      carryOut preparing other ready pending facts := by
  induction ready generalizing pending facts with
  | nil => rfl
  | cons check ready ih =>
    rw [carryOut] at h ⊢
    rw [carryOut]
    dsimp only at h ⊢
    -- the first check runs whether it dies or not, so the preparations agree on it
    have hfirst : prepare check facts = other check facts := by
      split at h
      · exact h (.ofPreparation check preparing facts (prepare check facts)) List.mem_cons_self
      · exact h (.ofPreparation check preparing facts (prepare check facts)) List.mem_cons_self
    rw [← hfirst]
    split
    · rfl
    · next hlive =>
      rw [if_neg hlive] at h
      rw [ih fun execution hmem => h execution (List.mem_cons_of_mem _ hmem)]

/-- **Rounds depend only on how the checks that ran were prepared**, at the turns that they had. -/
theorem rounds_eq_of_agree {preparing : List String} {prepare other : Prepare α}
    {pending : List (Check α)} {facts : Facts}
    (h : ∀ execution ∈ (rounds preparing prepare pending facts).done,
      prepare execution.check execution.arrival = other execution.check execution.arrival) :
    rounds preparing prepare pending facts = rounds preparing other pending facts := by
  revert h
  refine rounds_induction preparing prepare
    (motive := fun pending facts run =>
      (∀ execution ∈ run.done,
        prepare execution.check execution.arrival = other execution.check execution.arrival) →
      run = rounds preparing other pending facts)
    ?nothing ?deadlock ?death ?next pending facts
  case nothing =>
    intro facts _
    rw [rounds_nil]
  case deadlock =>
    intro pending facts hne hready _
    rw [rounds_of_filter_eq_nil _ _ hne hready]
  case death =>
    rintro pending facts round hne rfl hdied h
    obtain ⟨check, ready, hready⟩ := List.exists_cons_of_ne_nil hne
    rw [rounds_of_filter_eq_cons _ _ hready, ← hready, ← Round.carryOut_eq_of_agree h]
    dsimp only
    rw [if_pos hdied]
  case next =>
    rintro pending facts round rest hne rfl hlive - ih h
    obtain ⟨check, ready, hready⟩ := List.exists_cons_of_ne_nil hne
    have hround := Round.carryOut_eq_of_agree fun execution hmem =>
      h execution (List.mem_append_left _ hmem)
    have hrest := ih fun execution hmem => h execution (List.mem_append_right _ hmem)
    rw [rounds_of_filter_eq_cons _ _ hready, ← hready, ← hround]
    dsimp only
    rw [if_neg (by simp [hlive]), ← hrest]

/-! ## Catalogs that have no part in a run -/

/-- If nothing prepared the executions, nothing else took place. -/
theorem Execution.histories_eq_self {done : List (Execution α)}
    (h : ∀ execution ∈ done, execution.prerequisites = []) : histories done = done := by
  induction done with
  | nil => exact histories_nil
  | cons execution rest ih =>
    obtain ⟨hnone, hrest⟩ := List.forall_mem_cons.mp h
    rw [histories_cons, hnone, histories_nil, ih hrest, List.nil_append]

namespace Catalog

theorem prepare_of_prerequisites_eq_nil (catalog : Catalog α) (preparing : List String)
    {check : Check α} (facts : Facts) (hnone : catalog.prerequisites check = []) :
    catalog.prepare preparing check facts = .none facts := by
  rw [prepare_eq]
  exact if_neg fun h => by simp [available, hnone] at h

/-- A check is not prepared if its turn comes outside test mode, or if it has no prerequisites. -/
theorem prepare_eq_nothing {catalog : Catalog α} {check : Check α} {facts : Facts}
    (h : facts.testMode = false ∨ catalog.prerequisites check = []) (preparing : List String) :
    catalog.prepare preparing check facts = Prepare.nothing check facts := by
  rcases h with hoff | hnone
  · exact catalog.prepare_of_testMode_eq_false preparing check hoff
  · exact catalog.prepare_of_prerequisites_eq_nil preparing facts hnone

/-- **A catalog has a part in a run only by preparation.** Take any two catalogs. If at each turn of
the run with the first one test mode is off, or both catalogs have no prerequisites for the check
whose turn it is, then the run with the second is the same in everything. It is the plain loop: what
is delivered, the halt, what is left and the facts are those of the loop, and no body ran but those
of what is delivered. -/
theorem catalog_matters_only_by_preparation (first second : Catalog α) (pending : List (Check α))
    (facts : Facts)
    (h : ∀ execution ∈ Execution.histories (first.run pending facts).done,
      execution.arrival.testMode = false ∨
        first.prerequisites execution.check = [] ∧ second.prerequisites execution.check = []) :
    let run := first.run pending facts
    second.run pending facts = run ∧ run.plain = batches pending facts ∧
      Execution.histories run.done = run.done := by
  intro run
  have hdone : ∀ execution ∈ run.done, execution ∈ Execution.histories run.done :=
    fun execution hmem => Execution.mem_histories.mpr ⟨execution, hmem, .inl rfl⟩
  have hfirst : run = rounds [] Prepare.nothing pending facts := by
    refine rounds_eq_of_agree fun execution hmem => prepare_eq_nothing ?_ []
    exact (h execution (hdone execution hmem)).imp_right And.left
  -- the turns of the plain loop are those of the first run, so the second agrees on them too
  have hsecond : rounds [] Prepare.nothing pending facts = second.run pending facts := by
    refine rounds_eq_of_agree fun execution hmem => (prepare_eq_nothing ?_ []).symm
    rw [← hfirst] at hmem
    exact (h execution (hdone execution hmem)).imp_right And.right
  refine ⟨hsecond.symm.trans hfirst.symm, ?_, ?_⟩
  · rw [hfirst]
    exact plain_rounds_eq [] pending facts
  · refine Execution.histories_eq_self fun execution hmem => ?_
    have hturn := h execution (hdone execution hmem)
    rw [(genuine_of_mem_histories (hdone execution hmem)).prerequisites_eq,
      prepare_eq_nothing (hturn.imp_right And.left)]
    rfl

/-- A check that turns test mode on. -/
def switchCheck : Check Unit :=
  { name := "switch", requires := [.named "link"], body := Body.setTestMode true }

/-- A check that turns test mode on, and one whose turn comes in test mode. -/
def switchover : List (Check Unit) :=
  [switchCheck, { name := "probe", body := .done () }]

/-- The run of the switchover with a catalog, with the link known. -/
def switchRun (catalog : Catalog Unit) : Run Unit :=
  catalog.run switchover (Facts.none.insert (.named "link") (.text ""))

/-- The catalogs differ in the prerequisites of the check that turns test mode on, but its turn
comes before that; the other check has none in either. -/
theorem switchover_runs_alike :
    (ofTable [dyingLinker]).prerequisites switchCheck ≠ [] ∧
      (switchRun (ofTable [])).facts.testMode = true ∧
      switchRun (ofTable [dyingLinker]) = switchRun (ofTable []) ∧
      (switchRun (ofTable [])).plain =
        batches switchover (Facts.none.insert (.named "link") (.text "")) := by
  have hturns : (Execution.histories (switchRun (ofTable [])).done).all (fun execution =>
      !execution.arrival.testMode || ((ofTable []).prerequisites execution.check).isEmpty &&
        ((ofTable [dyingLinker]).prerequisites execution.check).isEmpty) = true := by
    cbv
  obtain ⟨hrun, hplain, -⟩ := catalog_matters_only_by_preparation (ofTable [])
    (ofTable [dyingLinker]) switchover (Facts.none.insert (.named "link") (.text ""))
    fun execution hmem => by simpa using List.all_eq_true.mp hturns execution hmem
  refine ⟨?_, by cbv, hrun, hplain⟩
  intro hnone
  exact absurd (congrArg List.length hnone) (by decide)

end Catalog

end ScriptLint
