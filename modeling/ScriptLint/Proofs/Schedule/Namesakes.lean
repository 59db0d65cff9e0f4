import ScriptLint.Proofs.Schedule.Delivery
import ScriptLint.Proofs.Schedule.Ending

/-!
# Pending checks that share a name

A check may be pending more than once, and different checks may have the same name. Here the pending
checks are balanced entry by entry, and not only by name. What is delivered and what is left are
distinct entries of the pending checks, so no entry is on both sides and none is delivered more
often than it is pending. But the two sides need not be all of them: as soon as a check has run,
every other check of its name is taken off, whether it ran or not. Such a check is lost, since it is
neither delivered nor left.

There are two ways to be lost. A check may not be ready in the round in which another of its name
runs, or the round may end with a death before its turn comes. If checks of one name require the
same and no check dies, nothing is lost: a round then takes all checks of a name at once.

## Main definitions

* `Itemized`: the account of pending checks entry by entry, with those that are lost

## Main results

* `Round.exists_itemized_carryOut`: a round loses only checks of a name that it delivers
* `Round.itemized_carryOut_of_live`: a round without a death loses nothing, if checks of one name
  require the same
* `exists_itemized_rounds`, `itemized_rounds_of_live`: the same of all rounds
* `Catalog.run_loses_only_namesakes`: which entries a run loses, and when it loses none
* `Catalog.namesakes_are_lost`: the two ways to be lost
-/

namespace ScriptLint

variable {α : Type}

/-! ## The account of entries -/

/-- The account of pending checks entry by entry: each is delivered, left or lost, and those that
are lost have the name of one that is delivered. -/
structure Itemized (pending : List (Check α)) (done : List (Execution α))
    (left lost : List (Check α)) : Prop where
  perm : (done.map (·.check) ++ (left ++ lost)).Perm pending
  name_mem : ∀ check ∈ lost, check.name ∈ done.map (·.check.name)

namespace Itemized

variable {pending middle left lost more : List (Check α)} {done later : List (Execution α)}

theorem nil (pending : List (Check α)) : Itemized pending [] pending [] where
  perm := by simp
  name_mem := by simp

/-- Accounts add up: what one leaves is what the next one is kept of, and both lose their own. -/
theorem append (h : Itemized pending done middle lost) (h' : Itemized middle later left more) :
    Itemized pending (done ++ later) left (lost ++ more) where
  perm := by
    have hmiddle : (later.map (·.check) ++ (left ++ (lost ++ more))).Perm (middle ++ lost) := by
      -- what the second account loses changes places with what the first one loses
      have hswap : (left ++ (lost ++ more)).Perm ((left ++ more) ++ lost) := by
        rw [List.append_assoc]
        exact List.perm_append_comm.append_left left
      refine (hswap.append_left _).trans ?_
      rw [← List.append_assoc]
      exact h'.perm.append_right lost
    rw [List.map_append, List.append_assoc]
    exact (hmiddle.append_left _).trans h.perm
  name_mem := by
    intro check hcheck
    rw [List.map_append, List.mem_append]
    rcases List.mem_append.mp hcheck with hcheck | hcheck
    · exact Or.inl (h.name_mem check hcheck)
    · exact Or.inr (h'.name_mem check hcheck)

end Itemized

/-! ## Rounds -/

/-- Checks of one name require the same. -/
def AgreeByName (pending : List (Check α)) : Prop :=
  ∀ check ∈ pending, ∀ other ∈ pending, check.name = other.name → check.requires ⊆ other.requires

theorem AgreeByName.sublist {pending fewer : List (Check α)} (h : AgreeByName pending)
    (hsub : fewer.Sublist pending) : AgreeByName fewer := by
  intro check hcheck other hother
  exact h check (hsub.subset hcheck) other (hsub.subset hother)

/-- Checks of one name become ready together. -/
theorem AgreeByName.ready {pending : List (Check α)} (h : AgreeByName pending)
    {check other : Check α} (hcheck : check ∈ pending) (hother : other ∈ pending)
    (hname : check.name = other.name) {facts : Facts} (hready : check.ready facts = true) :
    other.ready facts = true := by
  rw [Check.ready_iff] at hready ⊢
  intro topic htopic
  exact hready topic (h other hother check hcheck hname.symm htopic)

namespace Round

/-- **A round loses only checks of a name that it delivers.** -/
theorem exists_itemized_carryOut (preparing : List String) (prepare : Prepare α)
    {ready pending : List (Check α)} (hready : ready.Sublist pending) (facts : Facts) :
    ∃ lost, Itemized pending (carryOut preparing prepare ready pending facts).done
      (carryOut preparing prepare ready pending facts).pending lost := by
  have hpending := pending_carryOut preparing prepare ready pending facts
  have hstart := map_check_carryOut_isPrefix preparing prepare ready pending facts
  generalize carryOut preparing prepare ready pending facts = round at hpending hstart ⊢
  -- what is delivered is among the pending checks of the delivered names; the rest of these is lost
  have hnamed : (round.done.map (·.check)).filter (·.name ∈ round.done.map (·.check.name)) =
      round.done.map (·.check) := by
    apply List.filter_eq_self.mpr
    intro check hcheck
    obtain ⟨execution, hexecution, rfl⟩ := List.mem_map.mp hcheck
    exact decide_eq_true (List.mem_map.mpr ⟨execution, hexecution, rfl⟩)
  have hdone := (hstart.sublist.trans hready).filter (·.name ∈ round.done.map (·.check.name))
  rw [hnamed] at hdone
  obtain ⟨lost, hlost⟩ := hdone.exists_perm_append
  refine ⟨lost, ?_, ?_⟩
  · have hsplit := List.filter_append_perm (·.name ∈ round.done.map (·.check.name)) pending
    refine List.Perm.trans ?_ hsplit
    rw [hpending]
    simp only [decide_not]
    refine (List.perm_append_comm.append_left _).trans ?_
    rw [← List.append_assoc]
    exact hlost.symm.append_right _
  · intro check hcheck
    have hmem := hlost.mem_iff.mpr (List.mem_append_right _ hcheck)
    simpa using (List.mem_filter.mp hmem).2

/-- **A round without a death loses nothing**, if checks of one name require the same: it takes all
that are ready, and those are all of their names. -/
theorem itemized_carryOut_of_live {preparing : List String} {prepare : Prepare α}
    {pending : List (Check α)} {facts : Facts} (hagree : AgreeByName pending)
    (hlive : (carryOut preparing prepare (pending.filter (·.ready facts)) pending facts).died =
      false) :
    let round := carryOut preparing prepare (pending.filter (·.ready facts)) pending facts
    Itemized pending round.done round.pending [] := by
  intro round
  have hdone : round.done.map (·.check) = pending.filter (·.ready facts) :=
    map_check_carryOut_of_live hlive
  have hnames : round.done.map (·.check.name) =
      (pending.filter (·.ready facts)).map Check.name := by
    rw [← hdone, List.map_map]
    rfl
  have hpending : round.pending = pending.filter (!·.ready facts) := by
    rw [← Check.filter_name_of_filter fun check hcheck other hother hname hready =>
      hagree.ready hcheck hother hname hready, ← hnames]
    exact pending_carryOut preparing prepare _ pending facts
  constructor
  · rw [hdone, hpending, List.append_nil]
    exact List.filter_append_perm (·.ready facts) pending
  · simp

end Round

/-- All rounds together lose only checks of a name that they deliver, whichever way they end. -/
theorem exists_itemized_rounds (preparing : List String) (prepare : Prepare α)
    (pending : List (Check α)) (facts : Facts) :
    ∃ lost, Itemized pending (rounds preparing prepare pending facts).done
      (rounds preparing prepare pending facts).notRun lost := by
  refine rounds_induction preparing prepare
    (motive := fun pending _ run => ∃ lost, Itemized pending run.done run.notRun lost)
    ?nothing ?deadlock ?death ?next pending facts
  case nothing =>
    intro _
    exact ⟨[], .nil []⟩
  case deadlock =>
    intro pending _ _ _
    exact ⟨[], .nil pending⟩
  case death =>
    rintro pending facts round - rfl -
    exact Round.exists_itemized_carryOut preparing prepare List.filter_sublist facts
  case next =>
    rintro pending facts round rest - rfl - - ⟨more, hrest⟩
    obtain ⟨lost, hround⟩ :=
      Round.exists_itemized_carryOut preparing prepare List.filter_sublist facts
    exact ⟨lost ++ more, hround.append hrest⟩

/-- All rounds together lose nothing, if checks of one name require the same and no check dies. -/
theorem itemized_rounds_of_live {preparing : List String} {prepare : Prepare α}
    {pending : List (Check α)} {facts : Facts} (hagree : AgreeByName pending)
    (hlive : ∀ execution ∈ (rounds preparing prepare pending facts).done,
      execution.died = false) :
    Itemized pending (rounds preparing prepare pending facts).done
      (rounds preparing prepare pending facts).notRun [] := by
  revert hagree hlive
  refine rounds_induction preparing prepare
    (motive := fun pending _ run => AgreeByName pending →
      (∀ execution ∈ run.done, execution.died = false) → Itemized pending run.done run.notRun [])
    ?nothing ?deadlock ?death ?next pending facts
  case nothing =>
    intro _ _ _
    exact .nil []
  case deadlock =>
    intro pending _ _ _ _ _
    exact .nil pending
  case death =>
    rintro pending facts round - rfl hdied - hlive
    exact absurd hlive ((Round.deaths_carryOut ..).1 hdied).not_forall_live
  case next =>
    rintro pending facts round rest - rfl hround - ih hagree hlive
    have hleft := hagree.sublist (Round.pending_carryOut_sublist preparing prepare
      (pending.filter (·.ready facts)) pending facts)
    have hrest := ih hleft fun execution hmem => hlive execution (List.mem_append_right _ hmem)
    exact (Round.itemized_carryOut_of_live hagree hround).append hrest

/-! ## Runs -/

namespace Catalog

/-- **A run loses only namesakes of what it delivers.** In every run, in test mode or not, and also
where names are repeated, the checks delivered and those left are distinct entries of the pending
checks; an entry that is neither has the name of one that was delivered. If checks of one name
require the same and no check that is delivered dies, there is no such entry: the checks delivered
and those left are together the pending checks. -/
theorem run_loses_only_namesakes (catalog : Catalog α) (pending : List (Check α)) (facts : Facts) :
    let run := catalog.run pending facts
    let delivered := run.done.map (·.check)
    (∃ lost, (delivered ++ run.notRun ++ lost).Perm pending ∧
      ∀ check ∈ lost, check.name ∈ delivered.map Check.name) ∧
    ((∀ check ∈ pending, ∀ other ∈ pending, check.name = other.name →
        check.requires ⊆ other.requires) →
      (∀ execution ∈ run.done, execution.died = false) →
        (delivered ++ run.notRun).Perm pending) := by
  intro run delivered
  have hdelivered : delivered.map Check.name = run.done.map (·.check.name) := List.map_map
  constructor
  · obtain ⟨lost, hrun⟩ := exists_itemized_rounds [] (catalog.prepare []) pending facts
    refine ⟨lost, ?_, ?_⟩
    · rw [List.append_assoc]
      exact hrun.perm
    · rw [hdelivered]
      exact hrun.name_mem
  · intro hagree hlive
    have hrun : Itemized pending run.done run.notRun [] := itemized_rounds_of_live hagree hlive
    simpa using hrun.perm

/-- The run of checks that are all there is, with nothing known. -/
def runAlone (pending : List (Check Unit)) : Run Unit :=
  (ofTable pending).run pending .none

/-- A check that is pending twice, and between the two one that nobody helps. -/
def rerun : List (Check Unit) :=
  [{ name := "probe", body := .done () },
    { name := "stranded", requires := [.named "link"], body := .done () },
    { name := "probe", body := .done () }]

theorem run_loses_nothing_of_rerun :
    (∀ check ∈ rerun, ∀ other ∈ rerun, check.name = other.name →
        check.requires ⊆ other.requires) ∧
      (∀ execution ∈ (runAlone rerun).done, execution.died = false) ∧
      ((runAlone rerun).done.map (·.check) ++ (runAlone rerun).notRun).Perm rerun ∧
      (runAlone rerun).done.map (·.check.name) = ["probe", "probe"] ∧
      (runAlone rerun).notRun.map (·.name) = ["stranded"] := by
  have hagree : ∀ check ∈ rerun, ∀ other ∈ rerun, check.name = other.name →
      check.requires ⊆ other.requires := by
    simp [rerun]
  have hlive : ∀ execution ∈ (runAlone rerun).done, execution.died = false := by
    have hall : (runAlone rerun).done.all (!·.died) = true := by cbv
    simpa using hall
  refine ⟨hagree, hlive, ?_, by cbv, by cbv⟩
  exact (run_loses_only_namesakes (ofTable rerun) rerun .none).2 hagree hlive

/-- Two checks of one name, of which only the first can run. -/
def overshadowed : List (Check Unit) :=
  [{ name := "probe", body := .done () },
    { name := "probe", requires := [.named "link"], body := .done () }]

/-- A check that dies, pending twice. -/
def doomedTwice : List (Check Unit) :=
  [{ name := "doomed", body := Body.fatal }, { name := "doomed", body := Body.fatal }]

/-- **The two ways to be lost**: a check is not ready when another of its name runs, or a death cuts
off its turn. Either run delivers one check and leaves none, though two were pending. -/
theorem namesakes_are_lost :
    (runAlone overshadowed).halt = none ∧ (runAlone overshadowed).notRun = [] ∧
      ¬ ((runAlone overshadowed).done.map (·.check) ++
        (runAlone overshadowed).notRun).Perm overshadowed ∧
      (runAlone doomedTwice).halt = some .fatal ∧ (runAlone doomedTwice).notRun = [] ∧
      ¬ ((runAlone doomedTwice).done.map (·.check) ++
        (runAlone doomedTwice).notRun).Perm doomedTwice := by
  -- one delivered and none left are too few for two that were pending
  have hshort : ∀ pending, (runAlone pending).done.length = 1 → (runAlone pending).notRun = [] →
      pending.length = 2 →
      ¬ ((runAlone pending).done.map (·.check) ++ (runAlone pending).notRun).Perm pending := by
    intro pending hone hleft htwo hperm
    have hlength := hperm.length_eq
    rw [List.length_append, List.length_map, hone, hleft, htwo] at hlength
    cases hlength
  refine ⟨by cbv, by cbv, ?_, by cbv, by cbv, ?_⟩
  · exact hshort overshadowed (by cbv) (by cbv) rfl
  · exact hshort doomedTwice (by cbv) (by cbv) rfl

end Catalog

end ScriptLint
