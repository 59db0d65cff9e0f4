import Mathlib.Data.List.Pairwise
import ScriptLint.Schedule.Preparation

/-!
# The history of a run

A run is a tree of executions: a check that is prepared has the executions of its prerequisites
below it, and these may be prepared in turn. Its history lists all of them in the order of their
bodies. Two things are shown of the history of any run, in test mode or not: the body of a check
starts only once everything that the check requires is known, and no topic that is known at some
moment is unknown later.

A round decides once which checks are ready, and their bodies run later, after other bodies and
after whole nested runs. What carries the decision over is that facts only grow, which is shown
for bodies, for rounds and, by induction on the nesting, for preparation.

## Main definitions

* `Facts.GrowTo`: the topics known at one moment are known at another
* `Body.passage`: the facts that a body passes through
* `Turns`: executions one after the other, each of a check that is ready when its turn comes
* `Catalog.Genuine`: an execution that took place as the catalog has it
* `Course`: executions whose bodies follow one another on the same facts

## Main results

* `Catalog.prepare_induction`: induction on the nesting of preparation
* `rounds_induction`: induction on the rounds
* `Catalog.growTo_prepare`: preparation keeps every topic known
* `Catalog.genuine_of_mem_histories`: every execution of a run is genuine
* `Catalog.course_run`: the bodies of a run follow one another from its first to its last facts
* `Catalog.requires_known_and_facts_grow`: required topics are known when a body starts, and the
  known topics only grow
-/

namespace ScriptLint

variable {α : Type}

/-! ## Facts grow -/

namespace Facts

/-- Every topic that is known is known later, too. -/
def GrowTo (facts later : Facts) : Prop :=
  ∀ topic, facts.Knows topic → later.Knows topic

theorem GrowTo.refl (facts : Facts) : facts.GrowTo facts := fun _ h => h

theorem GrowTo.trans {facts later last : Facts} (h : facts.GrowTo later)
    (h' : later.GrowTo last) : facts.GrowTo last := fun topic hknown => h' topic (h topic hknown)

theorem growTo_insert (facts : Facts) (topic : Topic) (fact : Fact) :
    facts.GrowTo (facts.insert topic fact) := fun _ h => h.insert topic fact

end Facts

namespace Body

/-- The facts that a body passes through, from those it starts from to those it leaves behind. -/
def passage : Body α → Report → Facts → List Facts
  | done _, _, facts => [facts]
  | readFacts next, report, facts => (next facts).passage report facts
  | fileFact topic fact next, report, facts =>
    facts :: (next (facts.get? topic)).passage report (facts.insert topic fact)
  | readReport next, report, facts => (next report).passage report facts
  | setVerdict verdict next, report, facts => next.passage (report.conclude verdict) facts
  | addLine line next, report, facts => next.passage (report.add line) facts
  | noteEvent _ next, report, facts => next.passage report facts

/-- The passage of a body ends with the facts that the body leaves behind. -/
theorem getLast?_passage (body : Body α) (report : Report) (facts : Facts) :
    (body.passage report facts).getLast? = some (body.run report facts).facts := by
  induction body generalizing report facts with
  | done value => rfl
  | readFacts next ih => exact ih facts report facts
  | fileFact topic fact next ih =>
    rw [passage, run, List.getLast?_cons, ih]
    rfl
  | readReport next ih => exact ih report report facts
  | setVerdict verdict next ih => exact ih (report.conclude verdict) facts
  | addLine line next ih => exact ih (report.add line) facts
  | noteEvent event next ih => exact ih report facts

theorem growTo_run (body : Body α) (report : Report) (facts : Facts) :
    facts.GrowTo (body.run report facts).facts := fun _ h => body.knows_run report h

/-- All that a body passes through has grown from what it starts from. -/
theorem growTo_of_mem_passage {body : Body α} {report : Report} {facts state : Facts}
    (h : state ∈ body.passage report facts) : facts.GrowTo state := by
  induction body generalizing report facts with
  | done value =>
    obtain rfl := List.mem_singleton.mp h
    exact .refl _
  | readFacts next ih => exact ih facts h
  | fileFact topic fact next ih =>
    rcases List.mem_cons.mp h with rfl | h
    · exact .refl _
    · exact (facts.growTo_insert topic fact).trans (ih (facts.get? topic) h)
  | readReport next ih => exact ih report h
  | setVerdict verdict next ih => exact ih h
  | addLine line next ih => exact ih h
  | noteEvent event next ih => exact ih h

/-- Along the passage of a body, facts only grow. -/
theorem pairwise_passage (body : Body α) (report : Report) (facts : Facts) :
    (body.passage report facts).Pairwise Facts.GrowTo := by
  induction body generalizing report facts with
  | done value => exact List.pairwise_singleton _ _
  | readFacts next ih => exact ih facts report facts
  | fileFact topic fact next ih =>
    refine List.pairwise_cons.mpr ⟨fun state hstate => ?_, ih _ report _⟩
    exact (facts.growTo_insert topic fact).trans (growTo_of_mem_passage hstate)
  | readReport next ih => exact ih report report facts
  | setVerdict verdict next ih => exact ih (report.conclude verdict) facts
  | addLine line next ih => exact ih (report.add line) facts
  | noteEvent event next ih => exact ih report facts

/-- All that a body passes through grows to what it leaves behind. -/
theorem growTo_run_of_mem_passage {body : Body α} {report : Report} {facts state : Facts}
    (h : state ∈ body.passage report facts) : state.GrowTo (body.run report facts).facts := by
  have hne : body.passage report facts ≠ [] := List.ne_nil_of_mem h
  have hlast : (body.passage report facts).getLast hne = (body.run report facts).facts := by
    apply Option.some.inj
    rw [← List.getLast?_eq_some_getLast hne, getLast?_passage]
  rw [← hlast]
  exact (body.pairwise_passage report facts).rel_getLast_of_rel_getLast_getLast h (.refl _)

end Body

/-- A check that is ready stays so while facts grow. -/
theorem Check.ready_of_growTo {check : Check α} {facts later : Facts}
    (h : check.ready facts = true) (hgrow : facts.GrowTo later) : check.ready later = true :=
  check.ready_mono h hgrow

theorem Check.ready_iff {check : Check α} {facts : Facts} :
    check.ready facts = true ↔ ∀ topic ∈ check.requires, facts.Knows topic := by
  rw [ready, List.all_eq_true]
  rfl

/-! ## Histories -/

namespace Execution

theorem history_eq (execution : Execution α) :
    execution.history = histories execution.prerequisites ++ [execution] := by
  obtain ⟨check, preparing, arrival, prerequisites, start, outcome⟩ := execution
  rw [history]

@[simp]
theorem histories_nil : histories ([] : List (Execution α)) = [] := by
  rw [histories]

theorem histories_cons (execution : Execution α) (rest : List (Execution α)) :
    histories (execution :: rest) =
      histories execution.prerequisites ++ execution :: histories rest := by
  rw [histories, history_eq, List.append_assoc]
  rfl

/-- What took place for a list of executions is what took place to prepare one of them, or one of
them itself. -/
theorem mem_histories {execution : Execution α} {done : List (Execution α)} :
    execution ∈ histories done ↔
      ∃ direct ∈ done, execution = direct ∨ execution ∈ histories direct.prerequisites := by
  induction done with
  | nil => simp
  | cons first rest ih =>
    rw [histories_cons, List.mem_append, List.mem_cons, ih]
    constructor
    · rintro (h | h | ⟨direct, hdirect, h⟩)
      · exact ⟨first, List.mem_cons_self, Or.inr h⟩
      · exact ⟨first, List.mem_cons_self, Or.inl h⟩
      · exact ⟨direct, List.mem_cons_of_mem _ hdirect, h⟩
    · rintro ⟨direct, hdirect, h⟩
      rcases List.mem_cons.mp hdirect with rfl | hdirect
      · rcases h with h | h
        · exact Or.inr (Or.inl h)
        · exact Or.inl h
      · exact Or.inr (Or.inr ⟨direct, hdirect, h⟩)

end Execution

/-! ## Two inductions

Everything about runs is shown by one of these two, or by both: by the rounds of a run, and by
the nesting of runs in the preparation of checks. -/

/-- **Induction on the rounds**: the rounds end with nothing pending, in deadlock or with a death,
or else a round is carried out and the rounds go on. -/
theorem rounds_induction (preparing : List String) (prepare : Prepare α)
    {motive : List (Check α) → Facts → Run α → Prop}
    (nothing : ∀ facts, motive [] facts
      { done := [], halt := none, notRun := [], facts, journal := [] })
    (deadlock : ∀ pending facts, pending ≠ [] → pending.filter (·.ready facts) = [] →
      motive pending facts
        { done := [], halt := some .deadlock, notRun := pending, facts,
          journal := [.deadlock (pending.map Check.name)] })
    (death : ∀ pending facts round, pending.filter (·.ready facts) ≠ [] →
      round = Round.carryOut preparing prepare (pending.filter (·.ready facts)) pending facts →
      round.died = true →
      motive pending facts
        { done := round.done, halt := some .fatal, notRun := round.pending, facts := round.facts,
          journal := round.journal })
    (next : ∀ pending facts round rest, pending.filter (·.ready facts) ≠ [] →
      round = Round.carryOut preparing prepare (pending.filter (·.ready facts)) pending facts →
      round.died = false → rest = rounds preparing prepare round.pending round.facts →
      motive round.pending round.facts rest →
      motive pending facts
        { rest with done := round.done ++ rest.done, journal := round.journal ++ rest.journal })
    (pending : List (Check α)) (facts : Facts) :
    motive pending facts (rounds preparing prepare pending facts) := by
  -- a round leaves fewer checks pending than it found, so the induction is on their number
  induction hn : pending.length using Nat.strongRecOn generalizing pending facts with
  | ind n ih =>
    subst hn
    rcases hready : pending.filter (·.ready facts) with _ | ⟨check, ready⟩
    · by_cases hne : pending = []
      · subst hne
        rw [rounds_nil]
        exact nothing facts
      · rw [rounds_of_filter_eq_nil _ _ hne hready]
        exact deadlock pending facts hne hready
    · have hlt := Round.length_carryOut_lt preparing prepare ready facts
        (mem_of_ready hready List.mem_cons_self)
      have hne : pending.filter (·.ready facts) ≠ [] := by simp [hready]
      rw [rounds_of_filter_eq_cons _ _ hready]
      dsimp only
      split
      · next hdied => exact death pending facts _ hne (by rw [hready]) hdied
      · next hlive =>
        exact next pending facts _ _ hne (by rw [hready]) (by simpa using hlive) rfl
          (ih _ hlt _ _ rfl)

namespace Catalog

/-- **Induction on the nesting of preparation**: either a check is not prepared at all, or it is
prepared by the rounds of its available prerequisites, each of them prepared with the check under
preparation too. -/
theorem prepare_induction (catalog : Catalog α)
    {motive : List String → Check α → Facts → Preparation α → Prop}
    (idle : ∀ preparing check facts,
      ¬ (facts.testMode = true ∧ check.name ∉ preparing ∧
        catalog.available preparing check ≠ []) →
      motive preparing check facts (.none facts))
    (nested : ∀ preparing check facts run, facts.testMode = true → check.name ∉ preparing →
      catalog.available preparing check ≠ [] →
      run = rounds (check.name :: preparing) (catalog.prepare (check.name :: preparing))
        (catalog.available preparing check) facts →
      (∀ prerequisite ∈ catalog.available preparing check, ∀ later,
        motive (check.name :: preparing) prerequisite later
          (catalog.prepare (check.name :: preparing) prerequisite later)) →
      motive preparing check facts
        { prerequisites := run.done, facts := run.facts,
          journal := .preparing check.name (catalog.available preparing check).length ::
            run.journal })
    (preparing : List String) (check : Check α) (facts : Facts) :
    motive preparing check facts (catalog.prepare preparing check facts) := by
  -- a prerequisite is idle until it is prepared itself, so the induction is on the idle checks
  induction hn : catalog.idle (check.name :: preparing) using Nat.strongRecOn
    generalizing preparing check facts with
  | ind n ih =>
    subst hn
    rw [prepare_eq]
    dsimp only
    split
    · next h =>
      refine nested preparing check facts _ h.1 h.2.1 h.2.2 rfl fun prerequisite hmem later => ?_
      exact ih _ (idle_cons_lt (mem_available hmem).1 (mem_available hmem).2) _ _ _ rfl
    · next h => exact idle preparing check facts h

end Catalog

/-! ## Turns

The executions of a run, its prerequisites left aside, take turns: each finds the facts that the
one before it left, and is of a check that is ready for them. That the check is still ready when
its turn comes, and not only when its round begins, is where growth is used. -/

/-- The preparation of a check keeps every topic known. -/
def Prepare.KeepsKnown (prepare : Prepare α) (check : Check α) : Prop :=
  ∀ facts : Facts, facts.GrowTo (prepare check facts).facts

/-- Executions of given checks that take turns on the facts, each of a check that is ready when its
turn comes. -/
inductive Turns (preparing : List String) (prepare : Prepare α) (checks : List (Check α)) :
    Facts → List (Execution α) → Facts → Prop
  /-- Nothing is carried out, and the facts stay as they are. -/
  | nil (facts : Facts) : Turns preparing prepare checks facts [] facts
  /-- A check that is ready is carried out, and then the rest on what it left behind. -/
  | cons {check : Check α} {facts finish : Facts} {execution : Execution α}
      {rest : List (Execution α)} (hmem : check ∈ checks) (hready : check.ready facts = true)
      (hexecution : execution =
        Execution.ofPreparation check preparing facts (prepare check facts))
      (hrest : Turns preparing prepare checks execution.outcome.facts rest finish) :
      Turns preparing prepare checks facts (execution :: rest) finish

namespace Turns

variable {preparing : List String} {prepare : Prepare α} {checks more : List (Check α)}
  {facts middle finish : Facts} {done later : List (Execution α)}

theorem append (h : Turns preparing prepare checks facts done middle)
    (h' : Turns preparing prepare checks middle later finish) :
    Turns preparing prepare checks facts (done ++ later) finish := by
  induction h with
  | nil facts => exact h'
  | cons hmem hready hexecution hrest ih => exact .cons hmem hready hexecution (ih h')

theorem mono (h : Turns preparing prepare checks facts done finish) (hsub : checks ⊆ more) :
    Turns preparing prepare more facts done finish := by
  induction h with
  | nil facts => exact .nil facts
  | cons hmem hready hexecution hrest ih => exact .cons (hsub hmem) hready hexecution ih

/-- Each execution among the turns is that of one of the checks, which was ready when its turn
came. -/
theorem of_mem (h : Turns preparing prepare checks facts done finish) {execution : Execution α}
    (hmem : execution ∈ done) :
    execution.check ∈ checks ∧ execution.check.ready execution.arrival = true ∧
      execution = Execution.ofPreparation execution.check preparing execution.arrival
        (prepare execution.check execution.arrival) := by
  induction h with
  | nil facts => cases hmem
  | cons hcheck hready hexecution hrest ih =>
    rcases List.mem_cons.mp hmem with rfl | hmem
    · subst hexecution
      exact ⟨hcheck, hready, rfl⟩
    · exact ih hmem

end Turns

/-- Carrying out a prepared check keeps every topic known, if its preparation does. -/
theorem Execution.growTo_ofPreparation {facts : Facts} {preparation : Preparation α}
    (check : Check α) (preparing : List String) (hgrow : facts.GrowTo preparation.facts) :
    facts.GrowTo (ofPreparation check preparing facts preparation).outcome.facts :=
  hgrow.trans (check.body.growTo_run {} preparation.facts)

/-- Facts grow along turns. -/
theorem Turns.growTo {preparing : List String} {prepare : Prepare α} {checks : List (Check α)}
    {facts finish : Facts} {done : List (Execution α)}
    (h : Turns preparing prepare checks facts done finish)
    (hgrow : ∀ check ∈ checks, prepare.KeepsKnown check) : facts.GrowTo finish := by
  induction h with
  | nil facts => exact .refl facts
  | @cons check facts _ _ _ hmem _ hexecution _ ih =>
    subst hexecution
    exact (Execution.growTo_ofPreparation check preparing (hgrow check hmem facts)).trans ih

/-- The checks of a round take turns, though they were only found ready as the round began. -/
theorem Round.turns_carryOut {preparing : List String} {prepare : Prepare α}
    {ready : List (Check α)} (hgrow : ∀ check ∈ ready, prepare.KeepsKnown check)
    {facts : Facts} (hready : ∀ check ∈ ready, check.ready facts = true)
    (pending : List (Check α)) :
    Turns preparing prepare ready facts (carryOut preparing prepare ready pending facts).done
      (carryOut preparing prepare ready pending facts).facts := by
  induction ready generalizing pending facts with
  | nil => exact .nil facts
  | cons check ready ih =>
    have hcheck := hready check List.mem_cons_self
    have hstep := Execution.growTo_ofPreparation check preparing
      (hgrow check List.mem_cons_self facts)
    rw [carryOut]
    dsimp only
    split
    · exact .cons List.mem_cons_self hcheck rfl (.nil _)
    · refine .cons List.mem_cons_self hcheck rfl (Turns.mono ?_ (List.subset_cons_self _ _))
      refine ih (fun c hc => hgrow c (List.mem_cons_of_mem _ hc)) ?_ _
      -- the others were found ready before this check ran, and its preparation and body only add
      intro c hc
      exact Check.ready_of_growTo (hready c (List.mem_cons_of_mem _ hc)) hstep

/-- The executions of all rounds take turns. -/
theorem turns_rounds {preparing : List String} {prepare : Prepare α} {pending : List (Check α)}
    (hgrow : ∀ check ∈ pending, prepare.KeepsKnown check) (facts : Facts) :
    Turns preparing prepare pending facts (rounds preparing prepare pending facts).done
      (rounds preparing prepare pending facts).facts := by
  -- a round, be it the last one or not
  have hround : ∀ {pending : List (Check α)} {facts : Facts},
      (∀ check ∈ pending, prepare.KeepsKnown check) →
      let round := Round.carryOut preparing prepare (pending.filter (·.ready facts)) pending facts
      Turns preparing prepare pending facts round.done round.facts := by
    intro pending facts hgrow
    refine (Round.turns_carryOut ?_ ?_ pending).mono List.filter_sublist.subset
    · exact fun check hcheck => hgrow check (List.mem_filter.mp hcheck).1
    · exact fun check hcheck => (List.mem_filter.mp hcheck).2
  revert hgrow
  refine rounds_induction preparing prepare
    (motive := fun pending facts run =>
      (∀ check ∈ pending, prepare.KeepsKnown check) →
        Turns preparing prepare pending facts run.done run.facts)
    ?nothing ?deadlock ?death ?next pending facts
  case nothing =>
    intro facts _
    exact .nil facts
  case deadlock =>
    intro pending facts _ _ _
    exact .nil facts
  case death =>
    rintro pending facts round - rfl - hgrow
    exact hround hgrow
  case next =>
    rintro pending facts round rest - rfl - - ih hgrow
    have hsub := (Round.pending_carryOut_sublist preparing prepare
      (pending.filter (·.ready facts)) pending facts).subset
    exact (hround hgrow).append ((ih fun check hcheck => hgrow check (hsub hcheck)).mono hsub)

namespace Catalog

/-- **Preparation keeps every topic known**, however deep it is nested. -/
theorem growTo_prepare (catalog : Catalog α) (preparing : List String) (check : Check α) :
    Prepare.KeepsKnown (catalog.prepare preparing) check := by
  intro facts
  refine catalog.prepare_induction
    (motive := fun _ _ facts preparation => facts.GrowTo preparation.facts) ?idle ?nested
    preparing check facts
  case idle =>
    intro _ _ facts _
    exact .refl facts
  case nested =>
    -- that the prerequisites keep topics known is needed twice: they take turns because of it, and
    -- facts grow along turns because of it
    rintro preparing check facts run - - - rfl ih
    exact (turns_rounds ih facts).growTo ih

/-- The executions that the catalog carries out for pending checks take turns. -/
theorem turns_rounds_prepare (catalog : Catalog α) (preparing : List String)
    (pending : List (Check α)) (facts : Facts) :
    let run := rounds preparing (catalog.prepare preparing) pending facts
    Turns preparing (catalog.prepare preparing) pending facts run.done run.facts :=
  turns_rounds (fun check _ => catalog.growTo_prepare preparing check) facts

/-! ## Genuine executions -/

/-- An execution that took place as the catalog has it: its check was ready when its turn came, was
then prepared, and its body ran on what the preparation left. -/
structure Genuine (catalog : Catalog α) (execution : Execution α) : Prop where
  /-- The check was ready when its turn came. -/
  ready : execution.check.ready execution.arrival = true
  /-- The check was prepared and carried out. -/
  carriedOut : execution = .ofPreparation execution.check execution.preparing execution.arrival
    (catalog.prepare execution.preparing execution.check execution.arrival)

namespace Genuine

variable {catalog : Catalog α} {execution : Execution α}

theorem start_eq (h : catalog.Genuine execution) : execution.start =
    (catalog.prepare execution.preparing execution.check execution.arrival).facts :=
  congrArg Execution.start h.carriedOut

theorem prerequisites_eq (h : catalog.Genuine execution) : execution.prerequisites =
    (catalog.prepare execution.preparing execution.check execution.arrival).prerequisites :=
  congrArg Execution.prerequisites h.carriedOut

/-- The check of a genuine execution is ready as its body starts. -/
theorem ready_start (h : catalog.Genuine execution) :
    execution.check.ready execution.start = true := by
  rw [h.start_eq]
  exact Check.ready_of_growTo h.ready (catalog.growTo_prepare _ _ _)

end Genuine

/-- What took place for genuine turns is genuine, if what prepares their checks is. -/
theorem genuine_of_turns {catalog : Catalog α} {preparing : List String}
    {checks : List (Check α)} {facts finish : Facts} {done : List (Execution α)}
    (h : Turns preparing (catalog.prepare preparing) checks facts done finish)
    (hnested : ∀ check ∈ checks, ∀ later, ∀ execution ∈
      Execution.histories (catalog.prepare preparing check later).prerequisites,
        catalog.Genuine execution) :
    ∀ execution ∈ Execution.histories done, catalog.Genuine execution := by
  intro execution hmem
  obtain ⟨direct, hdirect, hcase⟩ := Execution.mem_histories.mp hmem
  obtain ⟨hcheck, hready, heq⟩ := h.of_mem hdirect
  rcases hcase with rfl | hbelow
  · obtain rfl : execution.preparing = preparing := congrArg Execution.preparing heq
    exact ⟨hready, heq⟩
  · rw [heq] at hbelow
    exact hnested _ hcheck _ _ hbelow

theorem genuine_of_mem_prepare (catalog : Catalog α) (preparing : List String)
    (check : Check α) (facts : Facts) :
    ∀ execution ∈ Execution.histories (catalog.prepare preparing check facts).prerequisites,
      catalog.Genuine execution := by
  refine catalog.prepare_induction
    (motive := fun _ _ _ preparation =>
      ∀ execution ∈ Execution.histories preparation.prerequisites, catalog.Genuine execution)
    ?idle ?nested preparing check facts
  case idle =>
    intro _ _ _ _ execution hmem
    simp [Preparation.none] at hmem
  case nested =>
    rintro preparing check facts run - - - rfl ih
    exact genuine_of_turns (catalog.turns_rounds_prepare _ _ facts) ih

/-- **Every execution of a run is genuine**, at whatever depth it took place. -/
theorem genuine_of_mem_histories {catalog : Catalog α} {pending : List (Check α)} {facts : Facts}
    {execution : Execution α}
    (h : execution ∈ Execution.histories (catalog.run pending facts).done) :
    catalog.Genuine execution :=
  genuine_of_turns (catalog.turns_rounds_prepare [] pending facts)
    (fun check _ later => catalog.genuine_of_mem_prepare [] check later) execution h

end Catalog

/-! ## The course of the facts

Between two bodies nothing changes the facts. So the facts of a run, at all its moments, are those
that the bodies of its history pass through. -/

/-- Executions whose bodies follow one another: each starts from what the one before it left. -/
inductive Course : Facts → List (Execution α) → Facts → Prop
  /-- No body runs. -/
  | nil (facts : Facts) : Course facts [] facts
  /-- A body runs, and then the others from what it left. -/
  | cons {execution : Execution α} {rest : List (Execution α)} {finish : Facts}
      (hbody : execution.outcome = execution.check.body.run {} execution.start)
      (hrest : Course execution.outcome.facts rest finish) :
      Course execution.start (execution :: rest) finish

namespace Course

variable {facts middle finish : Facts} {first second : List (Execution α)}

theorem append (h : Course facts first middle) (h' : Course middle second finish) :
    Course facts (first ++ second) finish := by
  induction h with
  | nil facts => exact h'
  | cons hbody hrest ih => exact .cons hbody (ih h')

end Course

/-- The facts that the body of an execution passes through. -/
def Execution.passage (execution : Execution α) : List Facts :=
  execution.check.body.passage {} execution.start

/-- Along a course, facts only grow, also within its bodies. -/
theorem Course.pairwise_growTo {facts finish : Facts} {history : List (Execution α)}
    (h : Course facts history finish) :
    (facts :: (history.flatMap Execution.passage ++ [finish])).Pairwise Facts.GrowTo := by
  induction h with
  | nil facts => simp [Facts.GrowTo.refl]
  | @cons execution rest finish hbody _ ih =>
    obtain ⟨hleft, hrest⟩ := List.pairwise_cons.mp ih
    have hpassage : ∀ state ∈ execution.passage, execution.start.GrowTo state ∧
        state.GrowTo execution.outcome.facts := by
      intro state hstate
      rw [hbody]
      exact ⟨Body.growTo_of_mem_passage hstate, Body.growTo_run_of_mem_passage hstate⟩
    have hbodyGrow : execution.start.GrowTo execution.outcome.facts := by
      rw [hbody]
      exact execution.check.body.growTo_run {} execution.start
    -- before: what the body starts from; then its passage; then the rest, which starts where the
    -- passage ends
    rw [List.flatMap_cons, List.append_assoc, List.pairwise_cons, List.pairwise_append]
    refine ⟨fun state hstate => ?_, execution.check.body.pairwise_passage {} _, hrest, ?_⟩
    · rcases List.mem_append.mp hstate with hstate | hstate
      · exact (hpassage state hstate).1
      · exact hbodyGrow.trans (hleft state hstate)
    · intro state hstate later hlater
      exact (hpassage state hstate).2.trans (hleft later hlater)

/-- The bodies of turns follow one another, if those that prepare their checks do. -/
theorem Turns.course {preparing : List String} {prepare : Prepare α} {checks : List (Check α)}
    {facts finish : Facts} {done : List (Execution α)}
    (h : Turns preparing prepare checks facts done finish)
    (hprepare : ∀ check ∈ checks, ∀ later,
      Course later (Execution.histories (prepare check later).prerequisites)
        (prepare check later).facts) :
    Course facts (Execution.histories done) finish := by
  induction h with
  | nil facts =>
    rw [Execution.histories_nil]
    exact .nil facts
  | @cons check facts finish execution rest hmem _ hexecution _ ih =>
    subst hexecution
    rw [Execution.histories_cons]
    exact (hprepare check hmem facts).append (.cons rfl ih)

namespace Catalog

theorem course_prepare (catalog : Catalog α) (preparing : List String) (check : Check α)
    (facts : Facts) :
    Course facts (Execution.histories (catalog.prepare preparing check facts).prerequisites)
      (catalog.prepare preparing check facts).facts := by
  refine catalog.prepare_induction
    (motive := fun _ _ facts preparation =>
      Course facts (Execution.histories preparation.prerequisites) preparation.facts)
    ?idle ?nested preparing check facts
  case idle =>
    intro _ _ facts _
    rw [Preparation.none, Execution.histories_nil]
    exact .nil facts
  case nested =>
    rintro preparing check facts run - - - rfl ih
    exact (catalog.turns_rounds_prepare _ _ facts).course ih

/-- **The bodies of a run follow one another**, from the facts it starts from to those it leaves
behind. -/
theorem course_run (catalog : Catalog α) (pending : List (Check α)) (facts : Facts) :
    Course facts (Execution.histories (catalog.run pending facts).done)
      (catalog.run pending facts).facts :=
  (catalog.turns_rounds_prepare [] pending facts).course
    fun check _ later => catalog.course_prepare [] check later

/-- **A check never runs before what it requires is known, and facts only grow.** In every run the
bodies of the history follow one another on the facts, and each starts when every topic that its
check requires is known; over all moments of the run, those within bodies included, a topic that is
known stays known. -/
theorem requires_known_and_facts_grow (catalog : Catalog α) (pending : List (Check α))
    (facts : Facts) :
    let run := catalog.run pending facts
    let history := Execution.histories run.done
    Course facts history run.facts ∧
      (∀ execution ∈ history, ∀ topic ∈ execution.check.requires,
        execution.start.Knows topic) ∧
      (facts :: (history.flatMap Execution.passage ++ [run.facts])).Pairwise
        fun earlier later => ∀ topic, earlier.Knows topic → later.Knows topic := by
  intro run history
  have hcourse := catalog.course_run pending facts
  refine ⟨hcourse, fun execution hmem => ?_, hcourse.pairwise_growTo⟩
  exact Check.ready_iff.mp (genuine_of_mem_histories hmem).ready_start

end Catalog

end ScriptLint
