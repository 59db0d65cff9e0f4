import ScriptLint.Proofs.Schedule.History

/-!
# How a run ends

A run says why it halted. What it says can be read off what it delivered and what it left: it halted
fatally if an execution that it delivered died, in deadlock if none died and checks are left, and not
at all if none died and nothing is left. A death ends the run at once, so the execution that died is
the last one; in deadlock no check that is left is ready for the final facts, so a run of what is
left only finds the same deadlock again.

The runs that prepare a check have ends of their own, which are dropped. What is left of such a run
is only the facts: a preparation that leaves the same facts leads to the same end, whatever died or
got stuck in it.

## Main definitions

* `EndInDeath`: executions of which only the last died
* `Ending`: the three ends of rounds
* `Run.Alike`: runs that differ at most in how their checks were prepared

## Main results

* `ending_rounds`: rounds have one of the three ends
* `Ending.fatal_iff`, `Ending.deadlock_iff`, `Ending.none_iff`: each end by what is delivered and left
* `rounds_alike`: only the facts of a preparation matter
* `Catalog.run_in_deadlock`: what is left in deadlock stays so
* `Catalog.halt_tells_how_run_ended`: what the halt of a run says
-/

namespace ScriptLint

variable {α : Type}

/-! ## Deaths -/

/-- Executions of which the last died, and no other. -/
def EndInDeath (done : List (Execution α)) : Prop :=
  ∃ before last, done = before ++ [last] ∧ last.died = true ∧
    ∀ execution ∈ before, execution.died = false

theorem EndInDeath.append {done later : List (Execution α)}
    (hlive : ∀ execution ∈ done, execution.died = false) (h : EndInDeath later) :
    EndInDeath (done ++ later) := by
  obtain ⟨before, last, rfl, hlast, hbefore⟩ := h
  refine ⟨done ++ before, last, (List.append_assoc _ _ _).symm, hlast, ?_⟩
  intro execution hmem
  rcases List.mem_append.mp hmem with hmem | hmem
  · exact hlive execution hmem
  · exact hbefore execution hmem

theorem EndInDeath.exists_died {done : List (Execution α)} (h : EndInDeath done) :
    ∃ execution ∈ done, execution.died = true := by
  obtain ⟨before, last, rfl, hlast, -⟩ := h
  exact ⟨last, by simp, hlast⟩

theorem EndInDeath.not_forall_live {done : List (Execution α)} (h : EndInDeath done) :
    ¬ ∀ execution ∈ done, execution.died = false := by
  intro hlive
  obtain ⟨execution, hmem, hdied⟩ := h.exists_died
  simp [hlive execution hmem] at hdied

/-- A round says whether a check died in it, and goes on up to the first that does. -/
theorem Round.deaths_carryOut (preparing : List String) (prepare : Prepare α)
    (ready pending : List (Check α)) (facts : Facts) :
    let round := carryOut preparing prepare ready pending facts
    (round.died = true → EndInDeath round.done) ∧
      (round.died = false → ∀ execution ∈ round.done, execution.died = false) := by
  induction ready generalizing pending facts with
  | nil => simp [carryOut]
  | cons check ready ih =>
    rw [carryOut]
    dsimp only
    split
    · next hdied =>
      constructor
      · intro _
        exact ⟨[], _, rfl, hdied, by simp⟩
      · intro hlive
        cases hlive
    · next hlive =>
      obtain ⟨hdeath, hnone⟩ := ih (Check.others check.name pending)
        (Execution.ofPreparation check preparing facts (prepare check facts)).outcome.facts
      have hfirst : ∀ execution ∈
          [Execution.ofPreparation check preparing facts (prepare check facts)],
          execution.died = false := by
        simpa using hlive
      constructor
      · intro hdied
        exact (hdeath hdied).append hfirst
      · intro hrest execution hmem
        rcases List.mem_cons.mp hmem with rfl | hmem
        · exact hfirst _ (by simp)
        · exact hnone hrest execution hmem

theorem Round.died_carryOut_iff (preparing : List String) (prepare : Prepare α)
    (ready pending : List (Check α)) (facts : Facts) :
    (carryOut preparing prepare ready pending facts).died = true ↔
      ∃ execution ∈ (carryOut preparing prepare ready pending facts).done,
        execution.died = true := by
  obtain ⟨hdeath, hnone⟩ := deaths_carryOut preparing prepare ready pending facts
  constructor
  · intro hdied
    exact (hdeath hdied).exists_died
  · rintro ⟨execution, hmem, hdied⟩
    by_contra hlive
    simp [hnone (by simpa using hlive) execution hmem] at hdied

/-! ## The three ends -/

/-- How rounds end that delivered executions and left checks on given facts. -/
inductive Ending (done : List (Execution α)) (left : List (Check α)) (facts : Facts) :
    Option Halt → Prop
  /-- None died, and nothing is left. -/
  | complete (hlive : ∀ execution ∈ done, execution.died = false) (hleft : left = []) :
      Ending done left facts none
  /-- None died, and nothing that is left is ready. -/
  | deadlock (hlive : ∀ execution ∈ done, execution.died = false) (hleft : left ≠ [])
      (hstuck : ∀ check ∈ left, check.ready facts = false) :
      Ending done left facts (some .deadlock)
  /-- The last died, whatever is left. -/
  | fatal (hdeath : EndInDeath done) : Ending done left facts (some .fatal)

/-- **Rounds have one of the three ends.** -/
theorem ending_rounds (preparing : List String) (prepare : Prepare α)
    (pending : List (Check α)) (facts : Facts) :
    let run := rounds preparing prepare pending facts
    Ending run.done run.notRun run.facts run.halt := by
  refine rounds_induction preparing prepare
    (motive := fun _ _ run => Ending run.done run.notRun run.facts run.halt)
    ?nothing ?deadlock ?death ?next pending facts
  case nothing =>
    intro facts
    exact .complete (by simp) rfl
  case deadlock =>
    intro pending facts hne hready
    refine .deadlock (by simp) hne fun check hcheck => ?_
    simpa using List.filter_eq_nil_iff.mp hready check hcheck
  case death =>
    rintro pending facts round - rfl hdied
    exact .fatal ((Round.deaths_carryOut ..).1 hdied)
  case next =>
    -- no check of this round died, so the end of the other rounds is the end of all
    rintro pending facts round rest - rfl hlive - ih
    have hround := (Round.deaths_carryOut ..).2 hlive
    have hall : (∀ execution ∈ rest.done, execution.died = false) →
        ∀ execution ∈ (Round.carryOut preparing prepare (pending.filter (·.ready facts)) pending
          facts).done ++ rest.done, execution.died = false := by
      intro hrest execution hmem
      rcases List.mem_append.mp hmem with hmem | hmem
      · exact hround execution hmem
      · exact hrest execution hmem
    generalize rest.halt = halt at ih ⊢
    cases ih with
    | complete hrest hleft => exact .complete (hall hrest) hleft
    | deadlock hrest hleft hstuck => exact .deadlock (hall hrest) hleft hstuck
    | fatal hdeath => exact .fatal (hdeath.append hround)

namespace Ending

variable {done : List (Execution α)} {left : List (Check α)} {facts : Facts} {halt : Option Halt}

/-- An end is fatal just if an execution died. -/
theorem fatal_iff (h : Ending done left facts halt) :
    halt = some .fatal ↔ ∃ execution ∈ done, execution.died = true := by
  cases h with
  | complete hlive hleft => simpa using hlive
  | deadlock hlive hleft hstuck => simpa using hlive
  | fatal hdeath => simpa using hdeath.exists_died

theorem deadlock_iff (h : Ending done left facts halt) :
    halt = some .deadlock ↔ (∀ execution ∈ done, execution.died = false) ∧ left ≠ [] := by
  cases h with
  | complete hlive hleft => simp [hleft]
  | deadlock hlive hleft hstuck => simpa using ⟨hlive, hleft⟩
  | fatal hdeath =>
    constructor
    · intro heq
      cases heq
    · rintro ⟨hlive, -⟩
      exact absurd hlive hdeath.not_forall_live

theorem none_iff (h : Ending done left facts halt) :
    halt = none ↔ left = [] ∧ ∀ execution ∈ done, execution.died = false := by
  cases h with
  | complete hlive hleft => simpa using ⟨hleft, hlive⟩
  | deadlock hlive hleft hstuck => simp [hleft]
  | fatal hdeath =>
    constructor
    · intro heq
      cases heq
    · rintro ⟨-, hlive⟩
      exact absurd hlive hdeath.not_forall_live

/-- Unless a check died, nothing that is left is ready. -/
theorem not_ready (h : Ending done left facts halt)
    (hlive : ∀ execution ∈ done, execution.died = false) :
    ∀ check ∈ left, check.ready facts = false := by
  cases h with
  | complete _ hleft => simp [hleft]
  | deadlock _ _ hstuck => exact hstuck
  | fatal hdeath => exact absurd hlive hdeath.not_forall_live

end Ending

/-! ## Only the facts of a preparation matter -/

/-- What comes of an execution, its preparation left aside. -/
def Execution.result (execution : Execution α) : Check α × Outcome α :=
  (execution.check, execution.outcome)

/-- Runs that differ at most in how their checks were prepared. -/
structure Run.Alike (run other : Run α) : Prop where
  done_eq : run.done.map Execution.result = other.done.map Execution.result
  halt_eq : run.halt = other.halt
  notRun_eq : run.notRun = other.notRun
  facts_eq : run.facts = other.facts

/-- Rounds that differ at most in how their checks were prepared. -/
structure Round.Alike (round other : Round α) : Prop where
  done_eq : round.done.map Execution.result = other.done.map Execution.result
  died_eq : round.died = other.died
  pending_eq : round.pending = other.pending
  facts_eq : round.facts = other.facts

theorem Round.carryOut_alike (preparing : List String) {prepare other : Prepare α}
    (hfacts : ∀ check facts, (prepare check facts).facts = (other check facts).facts)
    (ready pending : List (Check α)) (facts : Facts) :
    (carryOut preparing prepare ready pending facts).Alike
      (carryOut preparing other ready pending facts) := by
  induction ready generalizing pending facts with
  | nil => exact ⟨rfl, rfl, rfl, rfl⟩
  | cons check ready ih =>
    -- the body runs on the facts that the preparation leaves, so its outcome is the same
    have houtcome :
        (Execution.ofPreparation check preparing facts (prepare check facts)).outcome =
          (Execution.ofPreparation check preparing facts (other check facts)).outcome :=
      congrArg (check.body.run {}) (hfacts check facts)
    have hdied : (Execution.ofPreparation check preparing facts (prepare check facts)).died =
        (Execution.ofPreparation check preparing facts (other check facts)).died := by
      rw [Execution.died, Execution.died, Execution.verdict, Execution.verdict, houtcome]
    have hresult : (Execution.ofPreparation check preparing facts (prepare check facts)).result =
        (Execution.ofPreparation check preparing facts (other check facts)).result :=
      congrArg (Prod.mk check) houtcome
    have hrest := ih (Check.others check.name pending)
      (Execution.ofPreparation check preparing facts (other check facts)).outcome.facts
    rw [carryOut, carryOut]
    dsimp only
    rw [hdied, houtcome]
    split
    · exact ⟨by simp [hresult], rfl, rfl, rfl⟩
    · refine ⟨?_, hrest.died_eq, hrest.pending_eq, hrest.facts_eq⟩
      simp only [List.map_cons, hresult, hrest.done_eq]

/-- **Only the facts of a preparation matter**: whatever else differs, what is delivered, the halt,
what is left and the facts are the same. -/
theorem rounds_alike (preparing : List String) {prepare other : Prepare α}
    (hfacts : ∀ check facts, (prepare check facts).facts = (other check facts).facts)
    (pending : List (Check α)) (facts : Facts) :
    (rounds preparing prepare pending facts).Alike (rounds preparing other pending facts) := by
  refine rounds_induction preparing prepare
    (motive := fun pending facts run => run.Alike (rounds preparing other pending facts))
    ?nothing ?deadlock ?death ?next pending facts
  case nothing =>
    intro facts
    rw [rounds_nil]
    exact ⟨rfl, rfl, rfl, rfl⟩
  case deadlock =>
    intro pending facts hne hready
    rw [rounds_of_filter_eq_nil _ _ hne hready]
    exact ⟨rfl, rfl, rfl, rfl⟩
  case death =>
    rintro pending facts round hne rfl hdied
    have hround := Round.carryOut_alike preparing hfacts (pending.filter (·.ready facts)) pending facts
    obtain ⟨check, ready, hready⟩ := List.exists_cons_of_ne_nil hne
    rw [rounds_of_filter_eq_cons _ _ hready]
    rw [hready] at hround hdied ⊢
    dsimp only
    rw [if_pos (hround.died_eq ▸ hdied)]
    exact ⟨hround.done_eq, rfl, hround.pending_eq, hround.facts_eq⟩
  case next =>
    rintro pending facts round rest hne rfl hlive - ih
    have hround := Round.carryOut_alike preparing hfacts (pending.filter (·.ready facts)) pending facts
    obtain ⟨check, ready, hready⟩ := List.exists_cons_of_ne_nil hne
    rw [rounds_of_filter_eq_cons _ _ hready]
    rw [hready] at hround hlive ih ⊢
    rw [hround.pending_eq, hround.facts_eq] at ih
    dsimp only
    rw [if_neg (by simp [← hround.died_eq, hlive])]
    refine ⟨?_, ih.halt_eq, ih.notRun_eq, ih.facts_eq⟩
    simp only [List.map_append, hround.done_eq, ih.done_eq]

/-! ## The halt of a run -/

namespace Catalog

theorem ending_run (catalog : Catalog α) (pending : List (Check α)) (facts : Facts) :
    Ending (catalog.run pending facts).done (catalog.run pending facts).notRun
      (catalog.run pending facts).facts (catalog.run pending facts).halt :=
  ending_rounds [] (catalog.prepare []) pending facts

/-- A run of checks of which none is ready is in deadlock at once, and changes nothing. -/
theorem run_in_deadlock (catalog : Catalog α) {left : List (Check α)} {facts : Facts}
    (hne : left ≠ []) (hstuck : ∀ check ∈ left, check.ready facts = false) :
    catalog.run left facts =
      { done := [], halt := some .deadlock, notRun := left, facts,
        journal := [.deadlock (left.map Check.name)] } := by
  refine rounds_of_filter_eq_nil _ _ hne (List.filter_eq_nil_iff.mpr fun check hcheck => ?_)
  simp [hstuck check hcheck]

/-- **The halt of a run says how it ended**, in test mode or not. It is fatal just if an execution
that was delivered died, and then that is the last and no other did; it is a deadlock just if none
died and checks are left, and then none of these is ready for the final facts; there is none just if
nothing is left and none died. How the runs that prepare checks ended has no influence: with any
other preparation that leaves the same facts, the same is delivered and left, with the same halt and
the same final facts. After a deadlock, a run of what is left on the final facts runs nothing, and
returns the same deadlock, the same checks and the same facts. -/
theorem halt_tells_how_run_ended (catalog : Catalog α) (pending : List (Check α)) (facts : Facts) :
    let run := catalog.run pending facts
    (run.halt = some .fatal ↔ ∃ execution ∈ run.done, execution.died = true) ∧
    (run.halt = some .fatal → ∃ before last, run.done = before ++ [last] ∧ last.died = true ∧
      ∀ execution ∈ before, execution.died = false) ∧
    (run.halt = some .deadlock ↔
      (∀ execution ∈ run.done, execution.died = false) ∧ run.notRun ≠ []) ∧
    (run.halt = some .deadlock → ∀ check ∈ run.notRun, check.ready run.facts = false) ∧
    (run.halt = none ↔ run.notRun = [] ∧ ∀ execution ∈ run.done, execution.died = false) ∧
    (∀ other : Prepare α,
      (∀ check facts, (catalog.prepare [] check facts).facts = (other check facts).facts) →
        run.Alike (rounds [] other pending facts)) ∧
    (run.halt = some .deadlock → catalog.run run.notRun run.facts =
      { done := [], halt := some .deadlock, notRun := run.notRun, facts := run.facts,
        journal := [.deadlock (run.notRun.map Check.name)] }) := by
  intro run
  have hending : Ending run.done run.notRun run.facts run.halt := catalog.ending_run pending facts
  have hstuck : run.halt = some .deadlock → ∀ check ∈ run.notRun, check.ready run.facts = false :=
    fun hhalt => hending.not_ready (hending.deadlock_iff.mp hhalt).1
  refine ⟨hending.fatal_iff, ?_, hending.deadlock_iff, hstuck, hending.none_iff, ?_, ?_⟩
  · intro hhalt
    rw [hhalt] at hending
    cases hending with
    | fatal hdeath => exact hdeath
  · intro other hfacts
    exact rounds_alike [] hfacts pending facts
  · intro hhalt
    exact catalog.run_in_deadlock (hending.deadlock_iff.mp hhalt).2 (hstuck hhalt)

/-- A check that is prepared by another in test mode, and one that nobody helps. -/
def stranding : List (Check Unit) :=
  [{ name := "probe", requires := [.named "link"], body := .done () },
    { name := "stranded", requires := [.named "other"], body := .done () }]

/-- A check that provides what the first check of the stranding requires, and dies. -/
def dyingLinker : Check Unit :=
  { name := "linker", provides := [.named "link"], body := Body.fatal }

/-- The run of the stranding in test mode, with the link known. -/
def strandedRun : Run Unit :=
  (ofTable [dyingLinker]).run stranding
    ((Facts.none.insert (.named "link") (.text "")).setTestMode true)

theorem halt_of_strandedRun :
    strandedRun.halt = some .deadlock ∧
      (Execution.histories strandedRun.done).map (fun e => (e.check.name, e.died)) =
        [("linker", true), ("probe", false)] ∧
      (∀ check ∈ strandedRun.notRun, check.ready strandedRun.facts = false) ∧
      (ofTable [dyingLinker]).run strandedRun.notRun strandedRun.facts =
        { done := [], halt := some .deadlock, notRun := strandedRun.notRun,
          facts := strandedRun.facts,
          journal := [.deadlock (strandedRun.notRun.map Check.name)] } := by
  have hhalt : strandedRun.halt = some .deadlock := by cbv
  obtain ⟨-, -, -, hstuck, -, -, hagain⟩ :=
    halt_tells_how_run_ended (ofTable [dyingLinker]) stranding _
  exact ⟨hhalt, by cbv, hstuck hhalt, hagain hhalt⟩

end Catalog

end ScriptLint
