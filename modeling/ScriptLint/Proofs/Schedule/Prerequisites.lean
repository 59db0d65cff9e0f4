import ScriptLint.Proofs.Schedule.Delivery
import ScriptLint.Proofs.Schedule.Ending

/-!
# Prerequisites run first

In test mode a check is prepared by a run of its prerequisites, and these may be prepared in turn.
Here it is said which of them run, and when. Those that are available and ready when the preparation
begins run in it directly and come first, in the order of the catalog, all of them or up to one that
dies. The body of the check follows after all of them with all that prepared them, on the facts that
they left, however their run ended.

Whether a check of a run is carried out depends on what is ready and on the deaths in this run
alone. This is said of runs at every depth, so what becomes of the prerequisites of a check never
keeps the check itself from being carried out: neither a check at top level, nor one that runs to
prepare another.

## Main definitions

* `Thorough`: a run that carries out all it can, up to a death

## Main results

* `thorough_rounds`: rounds are thorough, however checks are prepared
* `Catalog.prepare_of_testMode`: in test mode, preparation is a run of the available prerequisites
* `Execution.exists_append_of_mem_histories`: in a history, what prepared a check comes right before
  it
* `Catalog.not_mem_preparing_of_mem_histories`: a check that runs is not under preparation
* `Catalog.prerequisites_run_before_check`: which prerequisites run, and that the check follows
-/

namespace ScriptLint

variable {α : Type}

/-! ## Thorough runs -/

/-- A run of pending checks from given facts to others that carries out all it can: the checks that
are ready as it begins come first and in order, and no check that is ready as it ends is left. Only
a death in the run itself cuts it short. -/
structure Thorough (pending : List (Check α)) (facts finish : Facts) (done : List (Execution α)) :
    Prop where
  /-- What is ready comes first: all of it, or what is carried out up to a death. -/
  ready_first : pending.filter (·.ready facts) <+: done.map (·.check) ∨
    done.map (·.check) <+: pending.filter (·.ready facts) ∧ EndInDeath done
  /-- Without a death, no check that is ready in the end is left out. -/
  ready_last : (∀ execution ∈ done, execution.died = false) → ∀ check ∈ pending,
    check.ready finish = true → check.name ∈ done.map (·.check.name)

theorem ready_first_rounds (preparing : List String) (prepare : Prepare α)
    (pending : List (Check α)) (facts : Facts) :
    let done := (rounds preparing prepare pending facts).done
    pending.filter (·.ready facts) <+: done.map (·.check) ∨
      done.map (·.check) <+: pending.filter (·.ready facts) ∧ EndInDeath done := by
  -- only the first round matters, and it either dies or takes all that is ready
  refine rounds_induction preparing prepare
    (motive := fun pending facts run =>
      pending.filter (·.ready facts) <+: run.done.map (·.check) ∨
        run.done.map (·.check) <+: pending.filter (·.ready facts) ∧ EndInDeath run.done)
    ?nothing ?deadlock ?death ?next pending facts
  case nothing =>
    intro facts
    exact Or.inl (List.nil_prefix)
  case deadlock =>
    intro pending facts _ hready
    rw [hready]
    exact Or.inl (List.nil_prefix)
  case death =>
    rintro pending facts round - rfl hdied
    exact Or.inr ⟨Round.map_check_carryOut_isPrefix .., (Round.deaths_carryOut ..).1 hdied⟩
  case next =>
    rintro pending facts round rest - rfl hlive - -
    apply Or.inl
    rw [List.map_append, Round.map_check_carryOut_of_live hlive]
    exact List.prefix_append _ _

/-- **Rounds are thorough**, however checks are prepared. -/
theorem thorough_rounds (preparing : List String) (prepare : Prepare α) (pending : List (Check α))
    (facts : Facts) :
    let run := rounds preparing prepare pending facts
    Thorough pending facts run.facts run.done := by
  intro run
  refine ⟨ready_first_rounds preparing prepare pending facts, ?_⟩
  intro hlive check hcheck hready
  have hstuck := (ending_rounds preparing prepare pending facts).not_ready hlive
  exact (accounted_rounds preparing prepare pending facts).name_mem_of_ready hstuck hcheck hready

/-! ## The place of an execution in a history -/

namespace Execution

mutual

/-- The history of an execution, split at one of its executions. -/
theorem exists_append_of_mem_history (execution : Execution α) {inner : Execution α}
    (h : inner ∈ execution.history) : ∃ before after,
      execution.history = before ++ (histories inner.prerequisites ++ inner :: after) := by
  match execution with
  | ⟨check, preparing, arrival, prerequisites, start, outcome⟩ =>
    rw [history] at h ⊢
    rcases List.mem_append.mp h with h | h
    · obtain ⟨before, after, hsplit⟩ := exists_append_of_mem_histories prerequisites h
      refine ⟨before, after ++ [⟨check, preparing, arrival, prerequisites, start, outcome⟩], ?_⟩
      rw [hsplit]
      simp only [List.append_assoc, List.cons_append]
    · obtain rfl := List.mem_singleton.mp h
      exact ⟨[], [], rfl⟩
termination_by structural execution

/-- **What prepared a check comes right before it** in every history in which it is. -/
theorem exists_append_of_mem_histories (done : List (Execution α)) {inner : Execution α}
    (h : inner ∈ histories done) : ∃ before after,
      histories done = before ++ (histories inner.prerequisites ++ inner :: after) := by
  match done with
  | [] =>
    rw [histories] at h
    cases h
  | execution :: rest =>
    rw [histories] at h ⊢
    rcases List.mem_append.mp h with h | h
    · obtain ⟨before, after, hsplit⟩ := exists_append_of_mem_history execution h
      refine ⟨before, after ++ histories rest, ?_⟩
      rw [hsplit]
      simp only [List.append_assoc, List.cons_append]
    · obtain ⟨before, after, hsplit⟩ := exists_append_of_mem_histories rest h
      refine ⟨history execution ++ before, after, ?_⟩
      rw [hsplit, List.append_assoc]
termination_by structural done

end

end Execution

/-! ## Preparation in test mode -/

namespace Catalog

/-- **In test mode, preparation is a run of the available prerequisites**, with the check under
preparation too, and it leaves the facts that the run leaves. If none is available, that run does
nothing. -/
theorem prepare_of_testMode (catalog : Catalog α) {preparing : List String} {check : Check α}
    {facts : Facts} (hon : facts.testMode = true) (hnew : check.name ∉ preparing) :
    let nested := check.name :: preparing
    let run := rounds nested (catalog.prepare nested) (catalog.available preparing check) facts
    (catalog.prepare preparing check facts).prerequisites = run.done ∧
      (catalog.prepare preparing check facts).facts = run.facts := by
  intro nested run
  rw [prepare_eq]
  dsimp only
  split
  · exact ⟨rfl, rfl⟩
  · next hidle =>
    have hnone : catalog.available preparing check = [] := by
      by_contra hne
      exact hidle ⟨hon, hnew, hne⟩
    simp only [run, hnone, rounds_nil]
    exact ⟨rfl, rfl⟩

/-- What is under preparation at top level is nothing. -/
theorem preparing_of_mem_run {catalog : Catalog α} {pending : List (Check α)} {facts : Facts}
    {execution : Execution α} (h : execution ∈ (catalog.run pending facts).done) :
    execution.preparing = [] :=
  congrArg Execution.preparing ((catalog.turns_rounds_prepare [] pending facts).of_mem h).2.2

/-- A check that runs is not under preparation, at whatever depth it runs. -/
theorem not_mem_preparing_of_mem_histories {catalog : Catalog α} {pending : List (Check α)}
    {facts : Facts} {execution : Execution α}
    (h : execution ∈ Execution.histories (catalog.run pending facts).done) :
    execution.check.name ∉ execution.preparing := by
  obtain ⟨direct, hdirect, rfl | hbelow⟩ := Execution.mem_histories.mp h
  · rw [preparing_of_mem_run hdirect]
    exact List.not_mem_nil
  · obtain ⟨-, -, heq⟩ := (catalog.turns_rounds_prepare [] pending facts).of_mem hdirect
    rw [heq] at hbelow
    exact (catalog.suffix_of_mem_prepare _ _ _ execution hbelow).2

/-- **Prerequisites run first, and the check follows.** In every run, take any execution, at top
level or at any depth, of a check that finds test mode on when its turn comes. Its prerequisites are
the executions of a run of the checks of the catalog that provide what it requires and are not under
preparation. This run is thorough: those of them that are ready as it begins come first, in the
order of the catalog, all of them or up to one that dies. They run directly, with the check itself
under preparation on top of what was. In the history of the whole run all that prepared the check
comes right before it, and its body ran on the facts that the run of its prerequisites left, whether
that run had ended with a death, in deadlock or complete.

The run at top level is thorough as well, so at no depth does a check that is ready stay out because
of what became of its prerequisites. -/
theorem prerequisites_run_before_check (catalog : Catalog α) (pending : List (Check α))
    (facts : Facts) :
    let run := catalog.run pending facts
    let history := Execution.histories run.done
    Thorough pending facts run.facts run.done ∧
    (∀ execution ∈ run.done, execution.preparing = []) ∧
    ∀ execution ∈ history, execution.arrival.testMode = true →
      let nested := execution.check.name :: execution.preparing
      let available := (catalog.prerequisites execution.check).filter
        (·.name ∉ execution.preparing)
      let preparation := rounds nested (catalog.prepare nested) available execution.arrival
      execution.prerequisites = preparation.done ∧
      Thorough available execution.arrival preparation.facts execution.prerequisites ∧
      (∀ prerequisite ∈ execution.prerequisites, prerequisite.preparing = nested) ∧
      (∃ before after, history =
        before ++ (Execution.histories execution.prerequisites ++ execution :: after)) ∧
      execution.outcome = execution.check.body.run {} preparation.facts := by
  intro run history
  refine ⟨thorough_rounds [] (catalog.prepare []) pending facts, fun _ => preparing_of_mem_run, ?_⟩
  intro execution hmem hon nested available preparation
  have hgenuine := genuine_of_mem_histories hmem
  have hprepare := catalog.prepare_of_testMode hon (not_mem_preparing_of_mem_histories hmem)
  have hdone : execution.prerequisites = preparation.done :=
    hgenuine.prerequisites_eq.trans hprepare.1
  have hstart : execution.start = preparation.facts := hgenuine.start_eq.trans hprepare.2
  refine ⟨hdone, ?_, ?_, Execution.exists_append_of_mem_histories run.done hmem, ?_⟩
  · rw [hdone]
    exact thorough_rounds nested (catalog.prepare nested) available execution.arrival
  · intro prerequisite hprerequisite
    rw [hdone] at hprerequisite
    have hturns := catalog.turns_rounds_prepare nested available execution.arrival
    exact congrArg Execution.preparing (hturns.of_mem hprerequisite).2.2
  · rw [← hstart, hgenuine.start_eq]
    exact congrArg Execution.outcome hgenuine.carriedOut

/-- Checks that provide a link, of which the first is prepared itself and dies, and checks that
provide a signal, of which the second never gets what it requires. -/
def workshop : List (Check Unit) :=
  [{ name := "smith", provides := [.named "tool"], body := .done () },
    { name := "broken", requires := [.named "tool"], provides := [.named "link"],
      body := Body.fatal },
    { name := "spare", provides := [.named "link"], body := .done () },
    { name := "antenna", provides := [.named "signal"], body := .done () },
    { name := "amplifier", requires := [.named "power"], provides := [.named "signal"],
      body := .done () }]

/-- The run in test mode of a check that requires the link and one that requires the signal. The
power is all that is not known. -/
def workshopRun : Run Unit :=
  (ofTable workshop).run
    [{ name := "probe", requires := [.named "link"], body := .done () },
      { name := "sensor", requires := [.named "signal"], body := .done () }]
    ((((Facts.none.insert (.named "tool") (.text "")).insert (.named "link") (.text "")).insert
      (.named "signal") (.text "")).setTestMode true)

theorem workshop_prerequisites_run_first :
    (Execution.histories workshopRun.done).map (fun execution =>
        (execution.check.name, execution.died)) =
        [("smith", false), ("broken", true), ("probe", false), ("antenna", false),
          ("sensor", false)] ∧
      ∀ execution ∈ Execution.histories workshopRun.done, execution.arrival.testMode = true ∧
        (∃ finish, Thorough ((ofTable workshop).available execution.preparing execution.check)
          execution.arrival finish execution.prerequisites) ∧
        ∃ before after, Execution.histories workshopRun.done =
          before ++ (Execution.histories execution.prerequisites ++ execution :: after) := by
  have hon : ∀ execution ∈ Execution.histories workshopRun.done,
      execution.arrival.testMode = true := by
    have hall : (Execution.histories workshopRun.done).all (·.arrival.testMode) = true := by cbv
    exact List.all_eq_true.mp hall
  refine ⟨by cbv, fun execution hmem => ⟨hon execution hmem, ?_⟩⟩
  obtain ⟨-, -, hprepared⟩ := prerequisites_run_before_check (ofTable workshop) _ _
  obtain ⟨-, hthorough, -, hplace, -⟩ := hprepared execution hmem (hon execution hmem)
  exact ⟨⟨_, hthorough⟩, hplace⟩

end Catalog

end ScriptLint
