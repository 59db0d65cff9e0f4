import Mathlib.Order.Bounds.Basic
import ScriptLint.Proofs.Schedule.TestMode

/-!
# Going on after a death

A death ends a run and leaves checks that could still run. To go on, what is left is run again on
the facts as they are, and so on until a run does not end with a death. The deaths cut rounds in the
middle, so the checks that are left come together in other rounds than without a death.

All the same nothing is lost. The runs together are kept account of like one run, and all that they
carry out takes turns on the same facts; in the end no check that is left is ready. None of this
depends on where the cuts are. Outside test mode, and for checks that add the same topics whatever
is known, this determines what is delivered: the least set of pending checks that has every pending
check that requires only what is known at first or what members of the set add.

## Main definitions

* `Catalog.resume`: the runs until one does not end with a death
* `Catalog.Settled`: executions after which no check that is left is ready
* `Saturated`: sets of pending checks that have every check for which they provide

## Main results

* `Catalog.length_notRun_lt`: a fatal run leaves fewer checks than were pending
* `Catalog.length_resume_le`: there is at most one run more than there are pending checks
* `Catalog.exists_settled_resume`: all runs together settle the pending checks
* `Catalog.Settled.isLeast`: what settles the pending checks is the least saturated set
* `Catalog.resumption_loses_nothing`: what the runs deliver together
-/

namespace ScriptLint

variable {α : Type}

/-! ## Runs after runs -/

namespace Catalog

/-- A fatal run leaves fewer checks than were pending: the one that died is not left. -/
theorem length_notRun_lt {catalog : Catalog α} {pending : List (Check α)} {facts : Facts}
    (h : (catalog.run pending facts).halt = some .fatal) :
    (catalog.run pending facts).notRun.length < pending.length := by
  have haccount := catalog.accounted_run pending facts
  obtain ⟨execution, hmem, -⟩ := (catalog.ending_run pending facts).fatal_iff.mp h
  rw [haccount.left_eq]
  apply List.length_filter_lt_length_iff_exists.mpr
  refine ⟨execution.check, haccount.check_mem execution hmem, ?_⟩
  simpa using ⟨execution, hmem, rfl⟩

/-- The runs of pending checks up to the first that does not end with a death. Each is of the checks
that the run before it left, on the facts that it left. -/
def resume (catalog : Catalog α) (pending : List (Check α)) (facts : Facts) : List (Run α) :=
  let run := catalog.run pending facts
  if _h : run.halt = some .fatal then run :: catalog.resume run.notRun run.facts
  else [run]
termination_by pending.length
decreasing_by exact length_notRun_lt _h

theorem resume_of_fatal {catalog : Catalog α} {pending : List (Check α)} {facts : Facts}
    (h : (catalog.run pending facts).halt = some .fatal) :
    catalog.resume pending facts = catalog.run pending facts ::
      catalog.resume (catalog.run pending facts).notRun (catalog.run pending facts).facts := by
  rw [resume, dif_pos h]

theorem resume_of_not_fatal {catalog : Catalog α} {pending : List (Check α)} {facts : Facts}
    (h : (catalog.run pending facts).halt ≠ some .fatal) :
    catalog.resume pending facts = [catalog.run pending facts] := by
  rw [resume, dif_neg h]

/-- **Induction on the runs**: a run does not end with a death, or it does and what it leaves is run
again. -/
theorem resume_induction (catalog : Catalog α)
    {motive : List (Check α) → Facts → List (Run α) → Prop}
    (last : ∀ pending facts, (catalog.run pending facts).halt ≠ some .fatal →
      motive pending facts [catalog.run pending facts])
    (again : ∀ pending facts run later, run = catalog.run pending facts →
      run.halt = some .fatal → motive run.notRun run.facts later →
      motive pending facts (run :: later))
    (pending : List (Check α)) (facts : Facts) :
    motive pending facts (catalog.resume pending facts) := by
  -- what is left becomes less with every death, so the induction is on the number of pending checks
  induction hn : pending.length using Nat.strongRecOn generalizing pending facts with
  | ind n ih =>
    subst hn
    by_cases h : (catalog.run pending facts).halt = some .fatal
    · rw [resume_of_fatal h]
      exact again pending facts _ _ rfl h (ih _ (length_notRun_lt h) _ _ rfl)
    · rw [resume_of_not_fatal h]
      exact last pending facts h

/-- **There is at most one run more than there are pending checks.** -/
theorem length_resume_le (catalog : Catalog α) (pending : List (Check α)) (facts : Facts) :
    (catalog.resume pending facts).length ≤ pending.length + 1 := by
  refine catalog.resume_induction
    (motive := fun pending _ runs => runs.length ≤ pending.length + 1) ?last ?again pending facts
  case last =>
    intro pending facts _
    rw [List.length_singleton]
    omega
  case again =>
    rintro pending facts run later rfl hfatal ih
    have hlt := length_notRun_lt hfatal
    rw [List.length_cons]
    omega

/-- All runs but the last end with a death, and the last does not. -/
theorem halt_resume (catalog : Catalog α) (pending : List (Check α)) (facts : Facts) :
    ∃ before last, catalog.resume pending facts = before ++ [last] ∧ last.halt ≠ some .fatal ∧
      ∀ run ∈ before, run.halt = some .fatal := by
  refine catalog.resume_induction
    (motive := fun _ _ runs => ∃ before last, runs = before ++ [last] ∧
      last.halt ≠ some .fatal ∧ ∀ run ∈ before, run.halt = some .fatal) ?last ?again pending facts
  case last =>
    intro pending facts hhalt
    exact ⟨[], _, rfl, hhalt, by simp⟩
  case again =>
    rintro pending facts run later - hfatal ⟨before, last, rfl, hlast, hbefore⟩
    refine ⟨run :: before, last, rfl, hlast, ?_⟩
    intro other hother
    rcases List.mem_cons.mp hother with rfl | hother
    · exact hfatal
    · exact hbefore other hother

/-! ## All runs together -/

/-- Executions that settle pending checks: they take turns on the facts, an account of the pending
checks is kept, and no check that is left is ready for the facts in the end. -/
structure Settled (catalog : Catalog α) (pending : List (Check α)) (facts : Facts)
    (done : List (Execution α)) (left : List (Check α)) (finish : Facts) : Prop where
  turns : Turns [] (catalog.prepare []) pending facts done finish
  account : Accounted pending done left
  stuck : ∀ check ∈ left, check.ready finish = false

/-- A run that does not end with a death settles the pending checks. -/
theorem settled_run {catalog : Catalog α} {pending : List (Check α)} {facts : Facts}
    (h : (catalog.run pending facts).halt ≠ some .fatal) :
    catalog.Settled pending facts (catalog.run pending facts).done
      (catalog.run pending facts).notRun (catalog.run pending facts).facts where
  turns := catalog.turns_rounds_prepare [] pending facts
  account := catalog.accounted_run pending facts
  stuck := by
    have hending := catalog.ending_run pending facts
    apply hending.not_ready
    intro execution hmem
    by_contra hdied
    exact h (hending.fatal_iff.mpr ⟨execution, hmem, by simpa using hdied⟩)

/-- What settles the checks that a run left settles, after this run, all pending checks. -/
theorem Settled.after_run {catalog : Catalog α} {pending left : List (Check α)}
    {facts finish : Facts} {later : List (Execution α)}
    (h : catalog.Settled (catalog.run pending facts).notRun (catalog.run pending facts).facts
      later left finish) :
    catalog.Settled pending facts ((catalog.run pending facts).done ++ later) left finish where
  turns := by
    have hleft := (catalog.accounted_run pending facts).left_sublist.subset
    exact (catalog.turns_rounds_prepare [] pending facts).append (h.turns.mono hleft)
  account := (catalog.accounted_run pending facts).append h.account
  stuck := h.stuck

/-- **All runs together settle the pending checks**, wherever deaths cut them, also in test mode. -/
theorem exists_settled_resume (catalog : Catalog α) (pending : List (Check α)) (facts : Facts) :
    ∃ left finish, catalog.Settled pending facts ((catalog.resume pending facts).flatMap (·.done))
      left finish := by
  refine catalog.resume_induction
    (motive := fun pending facts runs => ∃ left finish,
      catalog.Settled pending facts (runs.flatMap (·.done)) left finish) ?last ?again pending facts
  case last =>
    intro pending facts hhalt
    refine ⟨(catalog.run pending facts).notRun, (catalog.run pending facts).facts, ?_⟩
    rw [List.flatMap_singleton]
    exact settled_run hhalt
  case again =>
    rintro pending facts run later rfl - ⟨left, finish, hlater⟩
    refine ⟨left, finish, ?_⟩
    rw [List.flatMap_cons]
    exact hlater.after_run

end Catalog

/-! ## The least saturated set -/

section Saturated

variable (added : Check α → Set Topic) (pending : List (Check α)) (known : Set Topic)

/-- The topics known at first, and those that the members of a set add. -/
def provision (members : Set (Check α)) : Set Topic :=
  known ∪ {topic | ∃ check ∈ members, topic ∈ added check}

/-- A set of pending checks that has every pending check that requires only what is known at first
or what members of the set add. -/
structure Saturated (members : Set (Check α)) : Prop where
  subset : ∀ check ∈ members, check ∈ pending
  mem : ∀ check ∈ pending, check.Within (provision added known members) → check ∈ members

variable {added pending known}

/-- What a saturated set provides is closed. -/
theorem Saturated.closed {members : Set (Check α)} (h : Saturated added pending known members) :
    Closed added pending (provision added known members) := by
  intro check hcheck hwithin topic htopic
  exact Or.inr ⟨check, h.mem check hcheck hwithin, htopic⟩

end Saturated

namespace Catalog

variable {catalog : Catalog α} {added : Check α → Set Topic} {pending left : List (Check α)}
  {facts finish : Facts} {done : List (Execution α)}

/-- What is known in the end has all that was known at first and all that was added. -/
theorem Settled.provision_subset (h : catalog.Settled pending facts done left finish)
    (hsteady : ∀ check ∈ pending, check.Steady (added check)) :
    provision added facts.topics {check | check ∈ done.map (·.check)} ⊆ finish.topics := by
  have hgrow : ∀ check ∈ pending, Prepare.KeepsKnown (catalog.prepare []) check :=
    fun check _ => catalog.growTo_prepare [] check
  rintro topic (hknown | ⟨check, hcheck, htopic⟩)
  · exact h.turns.growTo hgrow topic hknown
  · obtain ⟨execution, hmem, rfl⟩ := List.mem_map.mp hcheck
    exact h.turns.added_subset hgrow hsteady hmem htopic

/-- **What settles the pending checks is the least saturated set**, outside test mode and for checks
of distinct names that add the same topics whatever is known. -/
theorem Settled.isLeast (h : catalog.Settled pending facts done left finish)
    (hnames : (pending.map Check.name).Nodup)
    (hsteady : ∀ check ∈ pending, check.Steady (added check)) (hoff : facts.testMode = false) :
    IsLeast {members | Saturated added pending facts.topics members}
      {check | check ∈ done.map (·.check)} := by
  constructor
  · constructor
    · intro check hcheck
      obtain ⟨execution, hmem, rfl⟩ := List.mem_map.mp hcheck
      exact h.account.check_mem execution hmem
    · intro check hcheck hwithin
      -- what is provided is known in the end, and nothing that is left is ready then
      have hready : check.ready finish = true := Check.ready_iff_within.mpr fun topic htopic =>
        h.provision_subset hsteady (hwithin topic htopic)
      apply h.account.check_mem_done hnames hcheck
      exact h.account.name_mem_of_ready h.stuck hcheck hready
  · -- what a saturated set provides is closed, and closed topics are not left outside test mode
    intro members hmembers check hcheck
    obtain ⟨execution, hmem, rfl⟩ := List.mem_map.mp hcheck
    have hwithin := h.turns.within_of_closed
      (fun check _ => catalog.prepare_of_testMode_eq_false [] check) hsteady hmembers.closed hoff
      Set.subset_union_left execution hmem
    exact hmembers.mem execution.check (h.account.check_mem execution hmem) hwithin

/-- **Going on after a death loses nothing.** Outside test mode, let the pending checks have
distinct names, file the same topics whatever is known, and not leave test mode on. Run what each
fatal run leaves again, on the facts that it leaves. All runs but the last are then fatal and the
last is not, and there is at most one more than there are pending checks. No check is delivered
twice; and the checks delivered by all runs together are the least set of pending checks that has
every pending check that requires only what is known at first or what members of the set add. -/
theorem resumption_loses_nothing (catalog : Catalog α) {added : Check α → Set Topic}
    {pending : List (Check α)} {facts : Facts} (hnames : (pending.map Check.name).Nodup)
    (hsteady : ∀ check ∈ pending, check.Steady (added check)) (hoff : facts.testMode = false) :
    let runs := catalog.resume pending facts
    let delivered := (runs.flatMap (·.done)).map (·.check)
    (∃ before last, runs = before ++ [last] ∧ last.halt ≠ some .fatal ∧
      ∀ run ∈ before, run.halt = some .fatal) ∧
    runs.length ≤ pending.length + 1 ∧
    (delivered.map Check.name).Nodup ∧
    IsLeast {members | Saturated added pending facts.topics members}
      {check | check ∈ delivered} := by
  intro runs delivered
  obtain ⟨left, finish, hsettled⟩ := catalog.exists_settled_resume pending facts
  refine ⟨catalog.halt_resume pending facts, catalog.length_resume_le pending facts, ?_,
    hsettled.isLeast hnames hsteady hoff⟩
  rw [List.map_map]
  exact hsettled.account.nodup_names hnames

/-- A handover in which the reader and the writer die. -/
def deadlyHandover : List (Check Unit) :=
  [{ name := "reader", requires := [.named "word"], body := Body.fatal },
    { name := "writer", body := .fileFact (.named "word") (.text "") fun _ => Body.fatal },
    { name := "stranded", requires := [.named "other"], body := .done () }]

theorem steady_deadlyHandover : ∀ check ∈ deadlyHandover, check.Steady (handedOver check) := by
  have hfatal : ∀ facts : Facts, (Body.fatal.run {} facts).facts = facts := fun _ => rfl
  simp only [deadlyHandover, List.mem_cons, List.not_mem_nil, or_false]
  rintro check (rfl | rfl | rfl)
  · exact ⟨fun facts => by simp [handedOver, hfatal], fun facts hoff => hoff⟩
  · refine ⟨fun facts => ?_, fun facts hoff => hoff⟩
    ext topic
    simp [handedOver, Body.run, hfatal, Facts.topics, Facts.knows_insert_iff, or_comm]
  · exact ⟨fun facts => by simp [handedOver, Body.run], fun facts hoff => hoff⟩

theorem resumption_of_deadlyHandover :
    let runs := (ofTable deadlyHandover).resume deadlyHandover .none
    runs.map (·.halt) = [some .fatal, some .fatal, some .deadlock] ∧
      (runs.flatMap (·.done)).map (·.check.name) = ["writer", "reader"] ∧
      IsLeast {members | Saturated handedOver deadlyHandover Facts.none.topics members}
        {check | check ∈ (runs.flatMap (·.done)).map (·.check)} := by
  have hnames : (deadlyHandover.map Check.name).Nodup := by decide
  refine ⟨by cbv, by cbv, ?_⟩
  exact (resumption_loses_nothing (ofTable deadlyHandover) hnames steady_deadlyHandover rfl).2.2.2

end Catalog

end ScriptLint
