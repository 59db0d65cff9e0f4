import Mathlib.Data.List.Nodup
import ScriptLint.Proofs.Schedule.Nesting

/-!
# What becomes of the pending checks

A run delivers executions of pending checks and hands back the checks that did not run. Here the two
are put side by side: what is left is what was pending, without the names that were delivered. No
name is lost and none is on both sides, and if the names of the pending checks are distinct, the two
sides together are the pending checks, in another order. The executions that only prepare others are
on neither side.

A round works on a snapshot of what is ready, while the pending checks are cut down by name as it
goes on. So a check of the snapshot may no longer be pending when its turn comes, and only the names
can be balanced in general. The account is kept for one round first. It adds up over the rounds,
whichever way they end.

## Main definitions

* `Accounted`: what is left is what was pending, without the names that were delivered

## Main results

* `Round.accounted_carryOut`: a round keeps the account
* `accounted_rounds`: all rounds keep the account
* `Accounted.perm`: with distinct names, the two sides are the pending checks
* `Catalog.filter_histories`: the executions at top level are those that are delivered
* `Catalog.run_accounts_for_pending`: no name is lost, and nothing else is delivered
-/

namespace ScriptLint

variable {α : Type}

/-- Names taken off one after the other are taken off at once. -/
theorem Check.filter_others (name : String) (names : List String) (pending : List (Check α)) :
    (Check.others name pending).filter (·.name ∉ names) =
      pending.filter (·.name ∉ name :: names) := by
  rw [Check.others, List.filter_filter]
  refine List.filter_congr fun check _ => ?_
  simp [Bool.and_comm]

/-- Where checks of one name all pass a test or all fail it, to take off the names of those that
pass is to take off those that pass. -/
theorem Check.filter_name_of_filter {pending : List (Check α)} {test : Check α → Bool}
    (htest : ∀ check ∈ pending, ∀ other ∈ pending, check.name = other.name →
      test check = true → test other = true) :
    pending.filter (·.name ∉ (pending.filter test).map Check.name) =
      pending.filter (!test ·) := by
  refine List.filter_congr fun other hother => ?_
  rw [Bool.eq_iff_iff, decide_eq_true_eq, Bool.not_eq_true', ← Bool.not_eq_true, not_iff_not]
  constructor
  · intro hmem
    obtain ⟨check, hcheck, hname⟩ := List.mem_map.mp hmem
    obtain ⟨hpending, hpasses⟩ := List.mem_filter.mp hcheck
    exact htest check hpending other hother hname hpasses
  · intro hpasses
    exact List.mem_map_of_mem (List.mem_filter.mpr ⟨hother, hpasses⟩)

/-! ## The account -/

/-- The account of pending checks: only these are delivered, and what is left is what was pending,
without the names that were delivered. -/
structure Accounted (pending : List (Check α)) (done : List (Execution α))
    (left : List (Check α)) : Prop where
  check_mem : ∀ execution ∈ done, execution.check ∈ pending
  left_eq : left = pending.filter (·.name ∉ done.map (·.check.name))
  /-- Distinct names are delivered once. -/
  nodup_names : (pending.map Check.name).Nodup → (done.map (·.check.name)).Nodup

namespace Accounted

variable {pending middle left : List (Check α)} {done later : List (Execution α)}

theorem nil (pending : List (Check α)) : Accounted pending [] pending where
  check_mem := by simp
  left_eq := by simp
  nodup_names := by simp

theorem left_sublist (h : Accounted pending done left) : left.Sublist pending := by
  rw [h.left_eq]
  exact List.filter_sublist

theorem mem_left_iff (h : Accounted pending done left) {check : Check α} :
    check ∈ left ↔ check ∈ pending ∧ check.name ∉ done.map (·.check.name) := by
  rw [h.left_eq, List.mem_filter, decide_eq_true_eq]

/-- Accounts add up: what one leaves is what the next one is kept of. -/
theorem append (h : Accounted pending done middle) (h' : Accounted middle later left) :
    Accounted pending (done ++ later) left where
  check_mem := by
    intro execution hmem
    rcases List.mem_append.mp hmem with hmem | hmem
    · exact h.check_mem execution hmem
    · exact h.left_sublist.subset (h'.check_mem execution hmem)
  left_eq := by
    rw [h'.left_eq, h.left_eq, List.filter_filter]
    refine List.filter_congr fun check _ => ?_
    simp [not_or, Bool.and_comm]
  nodup_names := by
    intro hnames
    have hmiddle : (middle.map Check.name).Nodup := hnames.sublist (h.left_sublist.map _)
    rw [List.map_append, List.nodup_append]
    refine ⟨h.nodup_names hnames, h'.nodup_names hmiddle, ?_⟩
    -- what comes later was left, so its name was not delivered before
    rintro name hname _ hother rfl
    obtain ⟨execution, hmem, rfl⟩ := List.mem_map.mp hother
    have hnew := (h.mem_left_iff.mp (h'.check_mem execution hmem)).2
    exact hnew hname

/-- Every pending name is on one side. -/
theorem mem_or_mem (h : Accounted pending done left) {name : String}
    (hname : name ∈ pending.map Check.name) :
    name ∈ done.map (·.check.name) ∨ name ∈ left.map Check.name := by
  by_cases hdone : name ∈ done.map (·.check.name)
  · exact Or.inl hdone
  · obtain ⟨check, hcheck, rfl⟩ := List.mem_map.mp hname
    exact Or.inr (List.mem_map_of_mem (h.mem_left_iff.mpr ⟨hcheck, hdone⟩))

/-- No name is on both sides. -/
theorem not_mem_and_mem (h : Accounted pending done left) (name : String) :
    ¬ (name ∈ done.map (·.check.name) ∧ name ∈ left.map Check.name) := by
  rintro ⟨hdone, hleft⟩
  obtain ⟨check, hcheck, rfl⟩ := List.mem_map.mp hleft
  exact (h.mem_left_iff.mp hcheck).2 hdone

/-- With distinct names, a pending check whose name is delivered is delivered itself. -/
theorem check_mem_done (h : Accounted pending done left) (hnames : (pending.map Check.name).Nodup)
    {check : Check α} (hcheck : check ∈ pending) (hname : check.name ∈ done.map (·.check.name)) :
    check ∈ done.map (·.check) := by
  obtain ⟨execution, hmem, heq⟩ := List.mem_map.mp hname
  have hsame : execution.check = check :=
    List.inj_on_of_nodup_map hnames (h.check_mem execution hmem) hcheck heq
  exact List.mem_map.mpr ⟨execution, hmem, hsame⟩

/-- Where no check that is left is ready, the name of every pending check that is ready was
delivered. -/
theorem name_mem_of_ready (h : Accounted pending done left) {facts : Facts}
    (hstuck : ∀ check ∈ left, check.ready facts = false) {check : Check α}
    (hcheck : check ∈ pending) (hready : check.ready facts = true) :
    check.name ∈ done.map (·.check.name) := by
  by_contra hname
  have hleft := hstuck check (h.mem_left_iff.mpr ⟨hcheck, hname⟩)
  rw [hready] at hleft
  cases hleft

/-- **With distinct names, nothing is lost or added**: what is delivered and what is left are
together the pending checks. -/
theorem perm (h : Accounted pending done left) (hnames : (pending.map Check.name).Nodup) :
    (done.map (·.check) ++ left).Perm pending := by
  have hdone : (done.map (·.check)).Nodup := by
    have hnodup := h.nodup_names hnames
    rw [show done.map (·.check.name) = (done.map (·.check)).map Check.name from
      List.map_map.symm] at hnodup
    exact List.Nodup.of_map _ hnodup
  have hleft : left.Nodup := (List.Nodup.of_map _ hnames).sublist h.left_sublist
  have hnodup : (done.map (·.check) ++ left).Nodup := by
    refine List.nodup_append.mpr ⟨hdone, hleft, ?_⟩
    rintro check hmem _ hmem' rfl
    refine h.not_mem_and_mem check.name ⟨?_, List.mem_map_of_mem hmem'⟩
    obtain ⟨execution, hexecution, rfl⟩ := List.mem_map.mp hmem
    exact List.mem_map.mpr ⟨execution, hexecution, rfl⟩
  -- neither side has repeats, so it remains that the same checks are on both
  rw [List.perm_ext_iff_of_nodup hnodup (List.Nodup.of_map _ hnames)]
  intro check
  rw [List.mem_append]
  constructor
  · rintro (hmem | hmem)
    · obtain ⟨execution, hexecution, rfl⟩ := List.mem_map.mp hmem
      exact h.check_mem execution hexecution
    · exact h.left_sublist.subset hmem
  · intro hmem
    by_cases hname : check.name ∈ done.map (·.check.name)
    · exact Or.inl (h.check_mem_done hnames hmem hname)
    · exact Or.inr (h.mem_left_iff.mpr ⟨hmem, hname⟩)

end Accounted

/-! ## Rounds keep the account -/

namespace Round

/-- The executions of a round are those of its first checks, in order: all of them, or those up to a
death. -/
theorem map_check_carryOut_isPrefix (preparing : List String) (prepare : Prepare α)
    (ready pending : List (Check α)) (facts : Facts) :
    (carryOut preparing prepare ready pending facts).done.map (·.check) <+: ready := by
  induction ready generalizing pending facts with
  | nil => exact List.prefix_refl []
  | cons check ready ih =>
    rw [carryOut]
    dsimp only
    split
    · exact ⟨ready, rfl⟩
    · exact (List.prefix_cons_inj check).mpr (ih _ _)

/-- A round in which no check dies carries out all its checks. -/
theorem map_check_carryOut_of_live {preparing : List String} {prepare : Prepare α}
    {ready pending : List (Check α)} {facts : Facts}
    (hlive : (carryOut preparing prepare ready pending facts).died = false) :
    (carryOut preparing prepare ready pending facts).done.map (·.check) = ready := by
  induction ready generalizing pending facts with
  | nil => rfl
  | cons check ready ih =>
    rw [carryOut] at hlive ⊢
    dsimp only at hlive ⊢
    split at hlive
    · cases hlive
    · next hcheck =>
      rw [if_neg hcheck]
      exact congrArg (check :: ·) (ih hlive)

/-- What is pending after a round is what was pending before it, without the names of those that
ran. -/
theorem pending_carryOut (preparing : List String) (prepare : Prepare α)
    (ready pending : List (Check α)) (facts : Facts) :
    (carryOut preparing prepare ready pending facts).pending = pending.filter
      (·.name ∉ (carryOut preparing prepare ready pending facts).done.map (·.check.name)) := by
  induction ready generalizing pending facts with
  | nil => simp [carryOut]
  | cons check ready ih =>
    rw [carryOut]
    dsimp only
    split
    · simp [Check.others, Execution.ofPreparation]
    · exact (ih _ _).trans (Check.filter_others check.name _ pending)

/-- **A round keeps the account**, though its checks are a snapshot and not what is pending as their
turns come. -/
theorem accounted_carryOut (preparing : List String) (prepare : Prepare α)
    {ready pending : List (Check α)} (hready : ready.Sublist pending) (facts : Facts) :
    Accounted pending (carryOut preparing prepare ready pending facts).done
      (carryOut preparing prepare ready pending facts).pending := by
  have hstart := map_check_carryOut_isPrefix preparing prepare ready pending facts
  refine ⟨?_, pending_carryOut preparing prepare ready pending facts, ?_⟩
  · intro execution hmem
    exact hready.subset (hstart.subset (List.mem_map_of_mem hmem))
  · intro hnames
    have hsub := (hstart.sublist.trans hready).map Check.name
    rw [List.map_map] at hsub
    exact hnames.sublist hsub

end Round

/-- **All rounds keep the account**, whichever way they end and however checks are prepared. -/
theorem accounted_rounds (preparing : List String) (prepare : Prepare α)
    (pending : List (Check α)) (facts : Facts) :
    Accounted pending (rounds preparing prepare pending facts).done
      (rounds preparing prepare pending facts).notRun := by
  refine rounds_induction preparing prepare
    (motive := fun pending _ run => Accounted pending run.done run.notRun)
    ?nothing ?deadlock ?death ?next pending facts
  case nothing =>
    intro _
    exact .nil []
  case deadlock =>
    intro pending _ _ _
    exact .nil pending
  case death =>
    rintro pending facts round - rfl -
    exact Round.accounted_carryOut preparing prepare List.filter_sublist facts
  case next =>
    rintro pending facts round rest - rfl - - ih
    exact (Round.accounted_carryOut preparing prepare List.filter_sublist facts).append ih

/-! ## Prerequisites are not delivered -/

/-- In the histories of executions at top level, the executions at top level are just these, if all
that prepares them is below. -/
theorem Execution.filter_histories_eq {done : List (Execution α)}
    (htop : ∀ execution ∈ done, execution.preparing = [])
    (hbelow : ∀ execution ∈ done, ∀ prerequisite ∈ histories execution.prerequisites,
      prerequisite.preparing ≠ []) :
    (histories done).filter (·.preparing = []) = done := by
  induction done with
  | nil => simp
  | cons execution rest ih =>
    have hprerequisites : (histories execution.prerequisites).filter (·.preparing = []) = [] := by
      apply List.filter_eq_nil_iff.mpr
      intro prerequisite hmem
      simpa using hbelow execution List.mem_cons_self prerequisite hmem
    have hrest := ih (fun e he => htop e (List.mem_cons_of_mem _ he))
      (fun e he => hbelow e (List.mem_cons_of_mem _ he))
    have hself : execution.preparing = [] := htop execution List.mem_cons_self
    rw [histories_cons, List.filter_append, hprerequisites, List.nil_append,
      List.filter_cons_of_pos (by simpa using hself), hrest]

namespace Catalog

theorem accounted_run (catalog : Catalog α) (pending : List (Check α)) (facts : Facts) :
    Accounted pending (catalog.run pending facts).done (catalog.run pending facts).notRun :=
  accounted_rounds [] (catalog.prepare []) pending facts

/-- **The executions at top level are those that are delivered**: of all that runs, at whatever
depth, nothing that runs to prepare another check is delivered. -/
theorem filter_histories (catalog : Catalog α) (pending : List (Check α)) (facts : Facts) :
    (Execution.histories (catalog.run pending facts).done).filter (·.preparing = []) =
      (catalog.run pending facts).done := by
  have hturns := catalog.turns_rounds_prepare [] pending facts
  apply Execution.filter_histories_eq
  · intro execution hmem
    obtain ⟨-, -, heq⟩ := hturns.of_mem hmem
    exact congrArg Execution.preparing heq
  · intro execution hmem prerequisite hprerequisite hnil
    obtain ⟨-, -, heq⟩ := hturns.of_mem hmem
    rw [heq] at hprerequisite
    -- what prepares a check runs with at least the name of that check under preparation
    obtain ⟨hsuffix, -⟩ := catalog.suffix_of_mem_prepare _ _ _ prerequisite hprerequisite
    rw [hnil] at hsuffix
    exact absurd (List.suffix_nil.mp hsuffix) (by simp)

/-- **No name is lost, and nothing else is delivered.** In every run, in test mode or not, the
executions that are delivered are of pending checks, and are all that ran other than to prepare
another check. The checks that are not run are the pending checks, in order, without those of a name
that was delivered. So each pending name is delivered or left, and never both; and if the pending
names are distinct, the checks delivered and those left are together the pending checks. -/
theorem run_accounts_for_pending (catalog : Catalog α) (pending : List (Check α)) (facts : Facts) :
    let run := catalog.run pending facts
    let delivered := run.done.map (·.check)
    (∀ check ∈ delivered, check ∈ pending) ∧
    (Execution.histories run.done).filter (·.preparing = []) = run.done ∧
    run.notRun = pending.filter (·.name ∉ delivered.map Check.name) ∧
    (∀ name ∈ pending.map Check.name,
      (name ∈ delivered.map Check.name ∨ name ∈ run.notRun.map Check.name) ∧
        ¬ (name ∈ delivered.map Check.name ∧ name ∈ run.notRun.map Check.name)) ∧
    ((pending.map Check.name).Nodup → (delivered ++ run.notRun).Perm pending) := by
  intro run delivered
  have haccount : Accounted pending run.done run.notRun := catalog.accounted_run pending facts
  have hdelivered : delivered.map Check.name = run.done.map (·.check.name) := List.map_map
  rw [hdelivered]
  refine ⟨?_, catalog.filter_histories pending facts, haccount.left_eq, ?_, haccount.perm⟩
  · intro check hmem
    obtain ⟨execution, hexecution, rfl⟩ := List.mem_map.mp hmem
    exact haccount.check_mem execution hexecution
  · intro name hname
    exact ⟨haccount.mem_or_mem hname, haccount.not_mem_and_mem name⟩

/-- A check that is prepared by another in test mode, one that dies, and one that comes after it. -/
def interruption : List (Check Unit) :=
  [{ name := "probe", requires := [.named "link"], body := .done () },
    { name := "doomed", body := Body.fatal },
    { name := "report", body := .done () }]

/-- A check that provides what the first check of the interruption requires. -/
def linker : Check Unit :=
  { name := "linker", provides := [.named "link"], body := .done () }

theorem run_accounts_for_interruption :
    let run := (ofTable [linker]).run interruption
      ((Facts.none.insert (.named "link") (.text "")).setTestMode true)
    (interruption.map Check.name).Nodup ∧
      (run.done.map (·.check) ++ run.notRun).Perm interruption ∧
      (Execution.histories run.done).map (·.check.name) = ["linker", "probe", "doomed"] ∧
      run.done.map (·.check.name) = ["probe", "doomed"] ∧
      run.notRun.map (·.name) = ["report"] := by
  have hnames : (interruption.map Check.name).Nodup := by decide
  refine ⟨hnames, (run_accounts_for_pending (ofTable [linker]) interruption _).2.2.2.2 hnames, ?_⟩
  refine ⟨by cbv, by cbv, by cbv⟩

end Catalog

end ScriptLint
