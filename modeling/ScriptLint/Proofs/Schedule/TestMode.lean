import ScriptLint.Proofs.Schedule.Stages

/-!
# Test mode never keeps a check from running

Two runs of the same pending checks are compared, which differ in test mode only. Outside test mode
nothing is prepared. In test mode every check is prepared first, by runs that may file facts, die or
get stuck, so checks move to other rounds and the two runs cannot be followed step by step.

They are compared by what is known in the end. If no pending check dies, the final topics of a run
are closed: a pending check that requires only these was carried out, and what it adds is among them.
And a run outside test mode never leaves a closed set that it starts within. So all that the run
outside test mode carries out requires only what is known at the end of the other, and is carried out
there, too.

## Main definitions

* `Closed`: topics that have all that pending checks add once these have what they require
* `Check.NeverDies`: a check that does not die whatever is known

## Main results

* `Turns.within_of_closed`: outside test mode, closed topics are not left
* `Catalog.check_mem_done_of_within`: a pending check that requires only what is known in the end was
  carried out
* `Catalog.closed_topics_run`: the final topics of a run without a death are closed
* `Catalog.testMode_keeps_no_check_from_running`: the comparison
-/

namespace ScriptLint

variable {α : Type}

/-- Topics that have all that pending checks add, as soon as they have what these require. -/
def Closed (added : Check α → Set Topic) (pending : List (Check α)) (known : Set Topic) : Prop :=
  ∀ check ∈ pending, check.Within known → added check ⊆ known

/-- A check that does not die, whatever is known. -/
def Check.NeverDies (check : Check α) : Prop :=
  ∀ facts : Facts, (check.body.run {} facts).report.verdict ≠ .died

theorem Facts.GrowTo.topics_subset {facts later : Facts} (h : facts.GrowTo later) :
    facts.topics ⊆ later.topics := h

theorem Facts.topics_setTestMode (facts : Facts) (on off : Bool) :
    (facts.setTestMode on).topics = (facts.setTestMode off).topics := by
  ext topic
  exact knows_insert_iff.trans knows_insert_iff.symm

namespace Turns

variable {preparing : List String} {prepare : Prepare α} {pending : List (Check α)}
  {facts finish : Facts} {done : List (Execution α)}

/-- What an execution leaves behind grows to what all turns leave behind. -/
theorem growTo_of_mem (h : Turns preparing prepare pending facts done finish)
    (hgrow : ∀ check ∈ pending, prepare.KeepsKnown check) {execution : Execution α}
    (hmem : execution ∈ done) : execution.outcome.facts.GrowTo finish := by
  induction h with
  | nil facts => cases hmem
  | cons _ _ _ hrest ih =>
    rcases List.mem_cons.mp hmem with rfl | hmem
    · exact hrest.growTo hgrow
    · exact ih hmem

/-- What a check adds is known once all turns are over, if the check is among those that had one. -/
theorem added_subset (h : Turns preparing prepare pending facts done finish)
    (hgrow : ∀ check ∈ pending, prepare.KeepsKnown check) {added : Check α → Set Topic}
    (hsteady : ∀ check ∈ pending, check.Steady (added check)) {execution : Execution α}
    (hmem : execution ∈ done) : added execution.check ⊆ finish.topics := by
  obtain ⟨hcheck, -, heq⟩ := h.of_mem hmem
  have hadded : added execution.check ⊆ execution.outcome.facts.topics := by
    rw [heq]
    show _ ⊆ (execution.check.body.run {} _).facts.topics
    rw [(hsteady execution.check hcheck).topics_run]
    exact Set.subset_union_right
  exact hadded.trans (h.growTo_of_mem hgrow hmem).topics_subset

/-- **Outside test mode, closed topics are not left**: from facts within closed topics, all that is
carried out requires only these. -/
theorem within_of_closed (h : Turns preparing prepare pending facts done finish)
    (hprepare : ∀ check facts, facts.testMode = false → prepare check facts = .none facts)
    {added : Check α → Set Topic} (hsteady : ∀ check ∈ pending, check.Steady (added check))
    {known : Set Topic} (hclosed : Closed added pending known) (hoff : facts.testMode = false)
    (hknown : facts.topics ⊆ known) : ∀ execution ∈ done, execution.check.Within known := by
  induction h with
  | nil facts => simp
  | @cons check facts finish execution rest hcheck hready hexecution _ ih =>
    have hwithin : check.Within known := fun topic htopic =>
      hknown (Check.ready_iff_within.mp hready topic htopic)
    rw [hprepare check facts hoff] at hexecution
    -- the body starts from the facts as they are, and adds what the closed topics have
    have hsteady' := hsteady check hcheck
    have hlater : execution.outcome.facts.topics ⊆ known := by
      rw [hexecution]
      change (check.body.run {} facts).facts.topics ⊆ known
      rw [hsteady'.topics_run]
      exact Set.union_subset hknown (hclosed check hcheck hwithin)
    have hoff' : execution.outcome.facts.testMode = false := by
      rw [hexecution]
      exact hsteady'.testMode_run facts hoff
    intro later hmem
    rcases List.mem_cons.mp hmem with rfl | hmem
    · rw [hexecution]
      exact hwithin
    · exact ih hoff' hlater later hmem

end Turns

namespace Catalog

/-- Checks that never die do not die in a run, in whatever way they are prepared. -/
theorem died_eq_false_of_neverDies (catalog : Catalog α) {pending : List (Check α)}
    (hlive : ∀ check ∈ pending, check.NeverDies) (facts : Facts) :
    ∀ execution ∈ (catalog.run pending facts).done, execution.died = false := by
  intro execution hmem
  obtain ⟨hcheck, -, heq⟩ := (catalog.turns_rounds_prepare [] pending facts).of_mem hmem
  have hverdict : execution.verdict ≠ .died := by
    rw [heq]
    exact hlive execution.check hcheck _
  simpa [Execution.died] using hverdict

/-- A pending check that requires only what is known in the end was carried out, if no check dies and
the pending names are distinct. -/
theorem check_mem_done_of_within (catalog : Catalog α) {pending : List (Check α)}
    (hnames : (pending.map Check.name).Nodup) (hlive : ∀ check ∈ pending, check.NeverDies)
    (facts : Facts) {check : Check α} (hcheck : check ∈ pending)
    (hwithin : check.Within (catalog.run pending facts).facts.topics) :
    check ∈ (catalog.run pending facts).done.map (·.check) := by
  have haccount := catalog.accounted_run pending facts
  have hstuck := (catalog.ending_run pending facts).not_ready
    (catalog.died_eq_false_of_neverDies hlive facts)
  apply haccount.check_mem_done hnames hcheck
  exact haccount.name_mem_of_ready hstuck hcheck (Check.ready_iff_within.mpr hwithin)

/-- **The final topics of a run are closed**, if no check dies and the pending names are distinct. -/
theorem closed_topics_run (catalog : Catalog α) {added : Check α → Set Topic}
    {pending : List (Check α)} (hnames : (pending.map Check.name).Nodup)
    (hsteady : ∀ check ∈ pending, check.Steady (added check))
    (hlive : ∀ check ∈ pending, check.NeverDies) (facts : Facts) :
    Closed added pending (catalog.run pending facts).facts.topics := by
  intro check hcheck hwithin
  have hturns := catalog.turns_rounds_prepare [] pending facts
  have hmem := catalog.check_mem_done_of_within hnames hlive facts hcheck hwithin
  obtain ⟨execution, hexecution, rfl⟩ := List.mem_map.mp hmem
  exact hturns.added_subset (fun check _ => catalog.growTo_prepare [] check) hsteady hexecution

/-- **Test mode never keeps a check from running.** The pending checks have distinct names, each
files the same topics whatever is known, none leaves test mode on and none dies; the other checks of
the catalog may do anything, and may die. Then, on facts that differ in test mode only, every check
that is carried out outside test mode is carried out in test mode, and every check that is not run in
test mode is not run outside it. -/
theorem testMode_keeps_no_check_from_running (catalog : Catalog α) {added : Check α → Set Topic}
    {pending : List (Check α)} (hnames : (pending.map Check.name).Nodup)
    (hsteady : ∀ check ∈ pending, check.Steady (added check))
    (hlive : ∀ check ∈ pending, check.NeverDies) (facts : Facts) :
    let off := catalog.run pending (facts.setTestMode false)
    let on := catalog.run pending (facts.setTestMode true)
    (∀ check ∈ off.done.map (·.check), check ∈ on.done.map (·.check)) ∧
      ∀ check ∈ on.notRun, check ∈ off.notRun := by
  intro off on
  have hoff : Accounted pending off.done off.notRun := catalog.accounted_run ..
  have hon : Accounted pending on.done on.notRun := catalog.accounted_run ..
  have hstart : (facts.setTestMode false).topics ⊆ on.facts.topics := by
    rw [facts.topics_setTestMode false true]
    have hturns := catalog.turns_rounds_prepare [] pending (facts.setTestMode true)
    exact (hturns.growTo fun check _ => catalog.growTo_prepare [] check).topics_subset
  have hdone : ∀ check ∈ off.done.map (·.check), check ∈ on.done.map (·.check) := by
    intro check hmem
    obtain ⟨execution, hexecution, rfl⟩ := List.mem_map.mp hmem
    have hturns := catalog.turns_rounds_prepare [] pending (facts.setTestMode false)
    have hwithin := hturns.within_of_closed
      (fun check _ => catalog.prepare_of_testMode_eq_false [] check) hsteady
      (catalog.closed_topics_run hnames hsteady hlive (facts.setTestMode true)) rfl hstart
      execution hexecution
    exact catalog.check_mem_done_of_within hnames hlive _ (hoff.check_mem execution hexecution)
      hwithin
  refine ⟨hdone, ?_⟩
  intro check hmem
  have hcheck := hon.left_sublist.subset hmem
  refine hoff.mem_left_iff.mpr ⟨hcheck, fun hname => ?_⟩
  -- were its name carried out outside test mode, the check would be carried out in test mode
  obtain ⟨execution, hexecution, rfl⟩ := List.mem_map.mp
    (hdone check (hoff.check_mem_done hnames hcheck hname))
  exact hon.not_mem_and_mem execution.check.name
    ⟨List.mem_map.mpr ⟨execution, hexecution, rfl⟩, List.mem_map_of_mem hmem⟩

/-- A check that waits for a word, and one that can run at once. -/
def errand : List (Check Unit) :=
  [{ name := "reader", requires := [.named "word"], body := .done () },
    { name := "starter", requires := [.named "link"], body := .done () }]

/-- A check that provides what the second of these requires, files the word and dies. -/
def messenger : Check Unit :=
  { name := "messenger", provides := [.named "link"]
    body := .fileFact (.named "word") (.text "") fun _ => Body.fatal }

theorem errand_runs_in_testMode :
    let facts := Facts.none.insert (.named "link") (.text "")
    let off := (ofTable [messenger]).run errand (facts.setTestMode false)
    let on := (ofTable [messenger]).run errand (facts.setTestMode true)
    ((∀ check ∈ off.done.map (·.check), check ∈ on.done.map (·.check)) ∧
        ∀ check ∈ on.notRun, check ∈ off.notRun) ∧
      off.done.map (·.check.name) = ["starter"] ∧
      on.done.map (·.check.name) = ["starter", "reader"] := by
  have hnames : (errand.map Check.name).Nodup := by decide
  have hsteady : ∀ check ∈ errand, check.Steady (∅ : Set Topic) := by
    simp only [errand, List.mem_cons, List.not_mem_nil, or_false]
    rintro check (rfl | rfl)
    · exact ⟨fun facts => by simp [Body.run], fun facts hoff => hoff⟩
    · exact ⟨fun facts => by simp [Body.run], fun facts hoff => hoff⟩
  have hlive : ∀ check ∈ errand, check.NeverDies := by
    simp only [errand, List.mem_cons, List.not_mem_nil, or_false]
    rintro check (rfl | rfl)
    · intro facts
      simp [Body.run]
    · intro facts
      simp [Body.run]
  refine ⟨testMode_keeps_no_check_from_running (ofTable [messenger]) hnames hsteady hlive _, ?_⟩
  exact ⟨by cbv, by cbv⟩

end Catalog

end ScriptLint
