import Mathlib.Data.List.Nodup
import Mathlib.Data.Set.Basic
import ScriptLint.Proofs.Schedule.Delivery
import ScriptLint.Proofs.Schedule.Ending

/-!
# Stages of readiness

Outside test mode, and for checks that file the same topics whatever is known, which checks run and
in which order can be said without rounds. Let the topics of stage `0` be those known at the start,
and those of the next stage be these and all that is filed by the pending checks whose requirements
are within them. The level of a check is the first stage that has all it requires. The checks that
run are those with a level, by level and within a level in pending order, up to the first that dies.

A round looks only at the facts it finds, and takes what it runs off the pending checks. The two
descriptions meet because stages can be shifted by one: after a round, the stages of what is still
pending, from what is then known, are the stages from the second on.

## Main definitions

* `Facts.topics`: the topics that are known
* `Check.Steady`: a check that files the same topics whatever is known, and leaves test mode off
* `stage`, `IsLevel`: the topics of a stage, and the level of a check
* `StageOrder`: the checks with a level, by level and in pending order
* `Execution.inTurn`, `Execution.upToDeath`: checks carried out one after the other, and the part up
  to the first that dies

## Main results

* `stage_shift`, `isLevel_shift`: the stages after a round are the stages from the second on
* `exists_stageOrder`, `StageOrder.unique`: there is one stage order
* `Round.carryOut_followsTurn`: a round outside test mode
* `Round.FollowsTurn.next_stage`: a round without a death is one stage more
* `exists_stageOrder_rounds`: all rounds outside test mode
* `Catalog.run_follows_stage_order`: what a run outside test mode does
-/

namespace ScriptLint

open Classical

variable {α : Type}

/-- The topics that are known. -/
def Facts.topics (facts : Facts) : Set Topic :=
  {topic | facts.Knows topic}

namespace Check

/-- A check that requires only topics of a set. -/
def Within (check : Check α) (known : Set Topic) : Prop :=
  ∀ topic ∈ check.requires, topic ∈ known

theorem ready_iff_within {check : Check α} {facts : Facts} :
    check.ready facts = true ↔ check.Within facts.topics :=
  ready_iff

/-- A check that files facts under the same topics whatever is known, and does not leave test mode on
if it was off. -/
structure Steady (check : Check α) (added : Set Topic) : Prop where
  /-- What is known after the body is what was known before it, and the topics that it adds. -/
  topics_run : ∀ facts : Facts, (check.body.run {} facts).facts.topics = facts.topics ∪ added
  /-- Test mode stays off. -/
  testMode_run : ∀ facts : Facts, facts.testMode = false →
    (check.body.run {} facts).facts.testMode = false

end Check

/-! ## Stages and levels -/

section Stages

variable (added : Check α → Set Topic) (pending : List (Check α)) (known : Set Topic)

/-- The topics of a stage: those known at first, and at each further stage also what is added by the
pending checks that require only topics of the stage before. -/
def stage : Nat → Set Topic
  | 0 => known
  | i + 1 => stage i ∪ {topic | ∃ check ∈ pending, check.Within (stage i) ∧ topic ∈ added check}

/-- The level of a check is the first stage that has all it requires. -/
def IsLevel (check : Check α) (i : Nat) : Prop :=
  check.Within (stage added pending known i) ∧
    ∀ j < i, ¬ check.Within (stage added pending known j)

/-- **The stage order**: the pending checks that have a level, by level, and within a level in the
order in which they are pending. -/
structure StageOrder (order : List (Check α)) : Prop where
  /-- The checks in the order are the pending checks that have a level. -/
  mem_iff : ∀ check, check ∈ order ↔ check ∈ pending ∧ ∃ i, IsLevel added pending known check i
  /-- They come by level, and within a level in pending order. -/
  sorted : order.Pairwise fun check later => ∃ i j, IsLevel added pending known check i ∧
    IsLevel added pending known later j ∧ (i < j ∨ i = j ∧ [check, later].Sublist pending)

variable {added pending known}

theorem stage_subset_succ (i : Nat) :
    stage added pending known i ⊆ stage added pending known (i + 1) :=
  Set.subset_union_left

theorem subset_stage (i : Nat) : known ⊆ stage added pending known i := by
  induction i with
  | zero => exact subset_rfl
  | succ i ih => exact ih.trans (stage_subset_succ i)

/-- A check has one level at most. -/
theorem IsLevel.unique {check : Check α} {i j : Nat} (hi : IsLevel added pending known check i)
    (hj : IsLevel added pending known check j) : i = j := by
  rcases Nat.lt_trichotomy i j with hlt | heq | hlt
  · exact absurd hi.1 (hj.2 i hlt)
  · exact heq
  · exact absurd hj.1 (hi.2 j hlt)

/-- The checks of level zero are those that require only what is known at first. -/
theorem isLevel_zero {check : Check α} :
    IsLevel added pending known check 0 ↔ check.Within known :=
  ⟨fun h => h.1, fun h => ⟨h, by simp⟩⟩

/-- Stages depend only on which checks are pending. -/
theorem stage_congr {other : List (Check α)} (h : ∀ check, check ∈ other ↔ check ∈ pending)
    (i : Nat) : stage added other known i = stage added pending known i := by
  induction i with
  | zero => rfl
  | succ i ih => simp only [stage, ih, h]

theorem isLevel_congr {other : List (Check α)} (h : ∀ check, check ∈ other ↔ check ∈ pending)
    {check : Check α} {i : Nat} :
    IsLevel added other known check i ↔ IsLevel added pending known check i := by
  simp only [IsLevel, stage_congr h]

/-- If no pending check requires only what is known, no check ever does. -/
theorem not_isLevel_of_forall_not_within (h : ∀ check ∈ pending, ¬ check.Within known)
    {check : Check α} (hmem : check ∈ pending) (i : Nat) :
    ¬ IsLevel added pending known check i := by
  have hstage : ∀ i, stage added pending known i = known := by
    intro i
    induction i with
    | zero => rfl
    | succ i ih =>
      rw [stage, ih, Set.union_eq_left]
      rintro topic ⟨provider, hprovider, hwithin, -⟩
      exact absurd hwithin (h provider hprovider)
  intro hlevel
  exact h check hmem (hstage i ▸ hlevel.1)

/-! ## The shift

What a round leaves pending are the checks that do not require only what is known. -/

variable (pending known) in
/-- The pending checks that require more than what is known. -/
noncomputable def waiting : List (Check α) :=
  pending.filter (¬ ·.Within known)

theorem mem_waiting {check : Check α} :
    check ∈ waiting pending known ↔ check ∈ pending ∧ ¬ check.Within known := by
  simp [waiting]

/-- **The shift of stages**: the stages of the checks that wait, from the second stage on, are the
stages of all pending checks from the second on. -/
theorem stage_shift (i : Nat) :
    stage added (waiting pending known) (stage added pending known 1) i =
      stage added pending known (i + 1) := by
  induction i with
  | zero => rfl
  | succ i ih =>
    rw [stage, ih, stage.eq_def added pending known (i + 1 + 1)]
    ext topic
    simp only [Set.mem_union, Set.mem_ofPred_eq, mem_waiting]
    constructor
    · rintro (h | ⟨check, ⟨hmem, -⟩, hwithin, htopic⟩)
      · exact Or.inl h
      · exact Or.inr ⟨check, hmem, hwithin, htopic⟩
    · rintro (h | ⟨check, hmem, hwithin, htopic⟩)
      · exact Or.inl h
      by_cases hnow : check.Within known
      · -- a check that does not wait has added its topics at the second stage already
        have hfirst : topic ∈ stage added pending known 1 :=
          Or.inr ⟨check, hmem, hnow, htopic⟩
        rw [← ih]
        exact Or.inl (subset_stage i hfirst)
      · exact Or.inr ⟨check, ⟨hmem, hnow⟩, hwithin, htopic⟩

theorem isLevel_shift {check : Check α} (hwait : ¬ check.Within known) {i : Nat} :
    IsLevel added (waiting pending known) (stage added pending known 1) check i ↔
      IsLevel added pending known check (i + 1) := by
  simp only [IsLevel, stage_shift]
  refine and_congr_right fun _ => ⟨fun h j hj => ?_, fun h j hj => h (j + 1) (by omega)⟩
  cases j with
  | zero => exact hwait
  | succ j => exact h j (by omega)

/-! ## The stage order -/

/-- One stage more: the checks that require only what is known, and then those that wait, in their
own stage order. -/
theorem StageOrder.cons {order : List (Check α)}
    (h : StageOrder added (waiting pending known) (stage added pending known 1) order) :
    StageOrder added pending known (pending.filter (·.Within known) ++ order) where
  mem_iff := by
    intro check
    simp only [List.mem_append, List.mem_filter, decide_eq_true_eq, h.mem_iff, mem_waiting]
    constructor
    · rintro (⟨hmem, hnow⟩ | ⟨⟨hmem, hwait⟩, i, hlevel⟩)
      · exact ⟨hmem, 0, isLevel_zero.mpr hnow⟩
      · exact ⟨hmem, i + 1, (isLevel_shift hwait).mp hlevel⟩
    · rintro ⟨hmem, i, hlevel⟩
      by_cases hnow : check.Within known
      · exact Or.inl ⟨hmem, hnow⟩
      · obtain ⟨j, rfl⟩ : ∃ j, i = j + 1 := by
          cases i with
          | zero => exact absurd (isLevel_zero.mp hlevel) hnow
          | succ j => exact ⟨j, rfl⟩
        exact Or.inr ⟨⟨hmem, hnow⟩, j, (isLevel_shift hnow).mpr hlevel⟩
  sorted := by
    -- two checks of the first stage keep their pending order, two that wait are one level up, and
    -- between the two lists the level goes from zero to something more
    have hwait : ∀ check ∈ order, ¬ check.Within known := fun check hmem =>
      (mem_waiting.mp ((h.mem_iff check).mp hmem).1).2
    refine List.pairwise_append.mpr ⟨?_, ?_, ?_⟩
    · rw [List.pairwise_iff_forall_sublist]
      intro check later hsub
      have hnow : ∀ c ∈ [check, later], c.Within known := fun c hc => by
        simpa using (List.mem_filter.mp (hsub.subset hc)).2
      exact ⟨0, 0, isLevel_zero.mpr (hnow check (by simp)),
        isLevel_zero.mpr (hnow later (by simp)), Or.inr ⟨rfl, hsub.trans List.filter_sublist⟩⟩
    · refine h.sorted.imp_of_mem fun {check later} hcheck hlater => ?_
      rintro ⟨i, j, hi, hj, hcase⟩
      refine ⟨i + 1, j + 1, (isLevel_shift (hwait check hcheck)).mp hi,
        (isLevel_shift (hwait later hlater)).mp hj, ?_⟩
      rcases hcase with hlt | ⟨rfl, hsub⟩
      · exact Or.inl (by omega)
      · exact Or.inr ⟨rfl, hsub.trans List.filter_sublist⟩
    · intro check hcheck later hlater
      have hnow : check.Within known := by simpa using (List.mem_filter.mp hcheck).2
      obtain ⟨-, j, hj⟩ := (h.mem_iff later).mp hlater
      exact ⟨0, j + 1, isLevel_zero.mpr hnow, (isLevel_shift (hwait later hlater)).mp hj,
        Or.inl (by omega)⟩

/-- No check has a level if none requires only what is known. -/
theorem StageOrder.nil (h : ∀ check ∈ pending, ¬ check.Within known) :
    StageOrder added pending known [] where
  mem_iff := by
    intro check
    simp only [List.not_mem_nil, false_iff, not_and, not_exists]
    exact fun hmem => not_isLevel_of_forall_not_within h hmem
  sorted := List.Pairwise.nil

/-- There is a stage order for any pending checks. -/
theorem exists_stageOrder (added : Check α → Set Topic) (pending : List (Check α))
    (known : Set Topic) : ∃ order, StageOrder added pending known order := by
  -- one stage after the other: as long as a check is at hand, fewer wait than are pending
  induction hn : pending.length using Nat.strongRecOn generalizing pending known with
  | ind n ih =>
    subst hn
    by_cases h : ∃ check ∈ pending, check.Within known
    · obtain ⟨check, hmem, hnow⟩ := h
      have hlt : (waiting pending known).length < pending.length :=
        List.length_filter_lt_length_iff_exists.mpr ⟨check, hmem, by simpa using hnow⟩
      obtain ⟨order, horder⟩ := ih _ hlt _ (stage added pending known 1) rfl
      exact ⟨_, horder.cons⟩
    · exact ⟨[], .nil fun check hmem hnow => h ⟨check, hmem, hnow⟩⟩

/-- In a list without repeats, two members come in one order only. -/
theorem not_sublist_swap {β : Type} {xs : List β} (hnodup : xs.Nodup) {a b : β}
    (hab : [a, b].Sublist xs) (hba : [b, a].Sublist xs) : False := by
  induction xs with
  | nil => cases hab
  | cons x xs ih =>
    obtain ⟨hx, hxs⟩ := List.nodup_cons.mp hnodup
    cases hab with
    | cons _ hab =>
      cases hba with
      | cons _ hba => exact ih hxs hab hba
      | cons_cons _ _ => exact hx (hab.subset (by simp))
    | cons_cons _ hab =>
      cases hba with
      | cons _ hba => exact hx (hba.subset (by simp))
      | cons_cons _ hba => exact hx (hba.subset (by simp))

/-- A stage order has no repeats, if the pending checks have none. -/
theorem StageOrder.nodup {order : List (Check α)} (h : StageOrder added pending known order)
    (hnodup : pending.Nodup) : order.Nodup := by
  refine h.sorted.imp ?_
  rintro check _ ⟨i, j, hi, hj, hcase⟩ rfl
  rcases hcase with hlt | ⟨-, hsub⟩
  · exact absurd (hi.unique hj) (Nat.ne_of_lt hlt)
  · exact not_sublist_swap hnodup hsub hsub

/-- Which checks are in the stage order does not depend on the order in which they are pending. -/
theorem StageOrder.perm {permuted order other : List (Check α)}
    (h : StageOrder added pending known order) (h' : StageOrder added permuted known other)
    (hnodup : pending.Nodup) (hperm : permuted.Perm pending) : other.Perm order := by
  have hmem : ∀ check, check ∈ permuted ↔ check ∈ pending := fun check => hperm.mem_iff
  rw [List.perm_ext_iff_of_nodup (h'.nodup (hperm.nodup_iff.mpr hnodup)) (h.nodup hnodup)]
  intro check
  rw [h'.mem_iff, h.mem_iff, hmem]
  simp only [isLevel_congr hmem]

/-- **There is only one stage order**, if the pending checks have no repeats. -/
theorem StageOrder.unique {order other : List (Check α)}
    (h : StageOrder added pending known order) (h' : StageOrder added pending known other)
    (hnodup : pending.Nodup) : other = order := by
  have hperm : other.Perm order := h.perm h' hnodup (List.Perm.refl pending)
  -- the same checks, so it remains that no two of them can come in both orders
  refine List.Perm.eq_of_pairwise ?_ h'.sorted h.sorted hperm
  rintro a b - - ⟨i, j, hi, hj, hab⟩ ⟨j', i', hj', hi', hba⟩
  obtain rfl := hi.unique hi'
  obtain rfl := hj.unique hj'
  rcases hab with hlt | ⟨rfl, hab⟩
  · rcases hba with hlt' | ⟨heq, -⟩
    · omega
    · omega
  · rcases hba with hlt' | ⟨-, hba⟩
    · omega
    · exact (not_sublist_swap hnodup hab hba).elim

end Stages

/-! ## Checks one after the other -/

namespace Execution

/-- Checks carried out one after the other, none of them prepared. -/
def inTurn : List (Check α) → Facts → List (Execution α)
  | [], _ => []
  | check :: rest, facts =>
    ofPreparation check [] facts (.none facts) ::
      inTurn rest (check.body.run {} facts).facts

/-- Executions up to the first that died, and with it. -/
def upToDeath : List (Execution α) → List (Execution α)
  | [] => []
  | execution :: rest => if execution.died then [execution] else execution :: upToDeath rest

theorem map_check_inTurn (checks : List (Check α)) (facts : Facts) :
    (inTurn checks facts).map (·.check) = checks := by
  induction checks generalizing facts with
  | nil => rfl
  | cons check rest ih => exact congrArg (check :: ·) (ih _)

theorem map_name_inTurn (checks : List (Check α)) (facts : Facts) :
    (inTurn checks facts).map (·.check.name) = checks.map Check.name := by
  have h := congrArg (List.map Check.name) (map_check_inTurn checks facts)
  rwa [List.map_map] at h

theorem inTurn_append (checks more : List (Check α)) (facts : Facts) :
    inTurn (checks ++ more) facts = inTurn checks facts ++
      inTurn more (checks.foldl (fun facts check => (check.body.run {} facts).facts) facts) := by
  induction checks generalizing facts with
  | nil => rfl
  | cons check rest ih => exact congrArg (_ :: ·) (ih _)

/-- If nothing died up to the first death, nothing died. -/
theorem upToDeath_eq_self {executions : List (Execution α)}
    (h : ∀ execution ∈ upToDeath executions, execution.died = false) :
    upToDeath executions = executions := by
  induction executions with
  | nil => rfl
  | cons execution rest ih =>
    by_cases hdied : execution.died
    · rw [upToDeath, if_pos hdied] at h
      exact absurd (h execution (by simp)) (by simp [hdied])
    · rw [upToDeath, if_neg hdied] at h ⊢
      exact congrArg (execution :: ·) (ih fun e he => h e (List.mem_cons_of_mem _ he))

/-- What follows a death is left out. -/
theorem upToDeath_append_of_died {executions more : List (Execution α)}
    (h : ∃ execution ∈ upToDeath executions, execution.died = true) :
    upToDeath (executions ++ more) = upToDeath executions := by
  induction executions with
  | nil =>
    obtain ⟨execution, hmem, -⟩ := h
    cases hmem
  | cons execution rest ih =>
    by_cases hdied : execution.died
    · rw [List.cons_append, upToDeath, upToDeath, if_pos hdied, if_pos hdied]
    · rw [upToDeath, if_neg hdied] at h
      obtain ⟨dead, hmem, hdead⟩ := h
      have hne : dead ≠ execution := fun heq => hdied (heq ▸ hdead)
      have hrest := ih ⟨dead, List.mem_of_ne_of_mem hne hmem, hdead⟩
      rw [List.cons_append, upToDeath, upToDeath, if_neg hdied, if_neg hdied, hrest]

theorem upToDeath_append_of_not_died {executions more : List (Execution α)}
    (h : ∀ execution ∈ executions, execution.died = false) :
    upToDeath (executions ++ more) = executions ++ upToDeath more := by
  induction executions with
  | nil => rfl
  | cons execution rest ih =>
    have hlive : ¬ execution.died = true := by simp [h execution (by simp)]
    rw [List.cons_append, upToDeath, if_neg hlive,
      ih fun e he => h e (List.mem_cons_of_mem _ he)]
    rfl

end Execution

/-! ## Rounds outside test mode -/

/-- What a round outside test mode does: it carries out its checks one after the other up to the
first death, takes their names off the pending checks and, if none died, ends with what the bodies
left behind one after the other. -/
structure Round.FollowsTurn (round : Round α) (ready pending : List (Check α)) (facts : Facts) :
    Prop where
  done_eq : round.done = Execution.upToDeath (Execution.inTurn ready facts)
  died_iff : round.died = true ↔ ∃ execution ∈ round.done, execution.died = true
  pending_eq : round.pending = pending.filter (·.name ∉ round.done.map (·.check.name))
  facts_eq : round.died = false →
    round.facts = ready.foldl (fun facts check => (check.body.run {} facts).facts) facts

/-- A round in which no check dies carries out all its checks. -/
theorem Round.FollowsTurn.of_live {round : Round α} {ready pending : List (Check α)} {facts : Facts}
    (h : round.FollowsTurn ready pending facts) (hlive : round.died = false) :
    round.done = Execution.inTurn ready facts ∧
      round.pending = pending.filter (·.name ∉ ready.map Check.name) ∧
      (∀ execution ∈ round.done, execution.died = false) := by
  have hnone : ∀ execution ∈ round.done, execution.died = false := by
    intro execution hmem
    by_contra hdied
    have hdeath := h.died_iff.mpr ⟨execution, hmem, by simpa using hdied⟩
    simp [hlive] at hdeath
  have hdone : round.done = Execution.inTurn ready facts := by
    rw [h.done_eq] at hnone ⊢
    exact Execution.upToDeath_eq_self hnone
  refine ⟨hdone, ?_, hnone⟩
  rw [h.pending_eq, hdone, Execution.map_name_inTurn]

/-- **A round outside test mode**: nothing is prepared, since no body turns test mode on. -/
theorem Round.carryOut_followsTurn {prepare : Prepare α} {added : Check α → Set Topic}
    {ready : List (Check α)}
    (hprepare : ∀ check facts, facts.testMode = false → prepare check facts = .none facts)
    (hsteady : ∀ check ∈ ready, check.Steady (added check)) (pending : List (Check α))
    {facts : Facts} (hoff : facts.testMode = false) :
    (carryOut [] prepare ready pending facts).FollowsTurn ready pending facts := by
  have hturn : (carryOut [] prepare ready pending facts).done =
        Execution.upToDeath (Execution.inTurn ready facts) ∧
      ((carryOut [] prepare ready pending facts).died = false →
        (carryOut [] prepare ready pending facts).facts =
          ready.foldl (fun facts check => (check.body.run {} facts).facts) facts) := by
    induction ready generalizing pending facts with
    | nil => exact ⟨rfl, fun _ => rfl⟩
    | cons check ready ih =>
      have hcheck := hsteady check List.mem_cons_self
      obtain ⟨hdone, hfacts⟩ := ih (fun c hc => hsteady c (List.mem_cons_of_mem _ hc))
        (Check.others check.name pending) (hcheck.testMode_run facts hoff)
      rw [carryOut, hprepare check facts hoff]
      dsimp only
      split
      · next hdied =>
        refine ⟨?_, fun hlive => by cases hlive⟩
        rw [Execution.inTurn, Execution.upToDeath, if_pos hdied]
      · next hlive =>
        refine ⟨?_, hfacts⟩
        rw [Execution.inTurn, Execution.upToDeath, if_neg hlive]
        exact congrArg (_ :: ·) hdone
  exact ⟨hturn.1, died_carryOut_iff .., pending_carryOut .., hturn.2⟩

/-- What is known once steady checks have been carried out one after the other. -/
theorem topics_foldl_run {added : Check α → Set Topic} {checks : List (Check α)}
    (hsteady : ∀ check ∈ checks, check.Steady (added check)) (facts : Facts) :
    (checks.foldl (fun facts check => (check.body.run {} facts).facts) facts).topics =
      facts.topics ∪ {topic | ∃ check ∈ checks, topic ∈ added check} := by
  induction checks generalizing facts with
  | nil => simp
  | cons check rest ih =>
    rw [List.foldl_cons, ih fun c hc => hsteady c (List.mem_cons_of_mem _ hc),
      (hsteady check List.mem_cons_self).topics_run]
    ext topic
    simp only [Set.mem_union, Set.mem_ofPred_eq, List.mem_cons, exists_eq_or_imp, or_assoc]

theorem testMode_foldl_run {added : Check α → Set Topic} {checks : List (Check α)}
    (hsteady : ∀ check ∈ checks, check.Steady (added check)) {facts : Facts}
    (hoff : facts.testMode = false) :
    (checks.foldl (fun facts check => (check.body.run {} facts).facts) facts).testMode = false := by
  induction checks generalizing facts with
  | nil => exact hoff
  | cons check rest ih =>
    exact ih (fun c hc => hsteady c (List.mem_cons_of_mem _ hc))
      ((hsteady check List.mem_cons_self).testMode_run facts hoff)

/-- The checks that a round finds ready are those that require only what is known. -/
theorem filter_ready_eq (pending : List (Check α)) (facts : Facts) :
    pending.filter (·.ready facts) = pending.filter (·.Within facts.topics) := by
  refine List.filter_congr fun check _ => ?_
  rw [Bool.eq_iff_iff, Check.ready_iff_within, decide_eq_true_eq]

/-- What is left of pending checks with distinct names, once those that require only what is known
are taken off by name, are the checks that wait. -/
theorem filter_name_eq_waiting {pending : List (Check α)} {known : Set Topic}
    (hnames : (pending.map Check.name).Nodup) :
    pending.filter (·.name ∉ (pending.filter (·.Within known)).map Check.name) =
      waiting pending known := by
  have hsame : ∀ check ∈ pending, ∀ other ∈ pending, check.name = other.name → check = other :=
    fun check hcheck other hother => List.inj_on_of_nodup_map hnames hcheck hother
  rw [Check.filter_name_of_filter]
  · simp only [waiting, decide_not]
  · intro check hcheck other hother hname hnow
    rwa [← hsame check hcheck other hother hname]

/-- A round on pending checks carries out those that require only what is known. -/
theorem Round.carryOut_ready_followsTurn {prepare : Prepare α} {added : Check α → Set Topic}
    (hprepare : ∀ check facts, facts.testMode = false → prepare check facts = .none facts)
    {pending : List (Check α)} (hsteady : ∀ check ∈ pending, check.Steady (added check))
    {facts : Facts} (hoff : facts.testMode = false) :
    (carryOut [] prepare (pending.filter (·.ready facts)) pending facts).FollowsTurn
      (pending.filter (·.Within facts.topics)) pending facts := by
  have hready : ∀ check ∈ pending.filter (·.ready facts), check.Steady (added check) :=
    fun check hcheck => hsteady check (List.mem_filter.mp hcheck).1
  rw [← filter_ready_eq]
  exact carryOut_followsTurn hprepare hready pending hoff

/-- **One stage more**: a round in which no check dies leaves the checks that wait pending, and the
topics of the second stage known. -/
theorem Round.FollowsTurn.next_stage {round : Round α} {added : Check α → Set Topic}
    {pending : List (Check α)} {facts : Facts}
    (h : round.FollowsTurn (pending.filter (·.Within facts.topics)) pending facts)
    (hlive : round.died = false) (hnames : (pending.map Check.name).Nodup)
    (hsteady : ∀ check ∈ pending, check.Steady (added check)) (hoff : facts.testMode = false) :
    round.pending = waiting pending facts.topics ∧
      round.facts.topics = stage added pending facts.topics 1 ∧
      round.facts.testMode = false := by
  have hcarried : ∀ check ∈ pending.filter (·.Within facts.topics), check.Steady (added check) :=
    fun check hcheck => hsteady check (List.mem_filter.mp hcheck).1
  refine ⟨?_, ?_, ?_⟩
  · rw [(h.of_live hlive).2.1, filter_name_eq_waiting hnames]
  · rw [h.facts_eq hlive, topics_foldl_run hcarried]
    ext topic
    simp only [stage, Set.mem_union, Set.mem_ofPred_eq, List.mem_filter, decide_eq_true_eq,
      and_assoc]
  · rw [h.facts_eq hlive]
    exact testMode_foldl_run hcarried hoff

/-- **All rounds outside test mode**: the checks are carried out in stage order, up to the first that
dies, and the others are not run. -/
theorem exists_stageOrder_rounds {prepare : Prepare α} {added : Check α → Set Topic}
    (hprepare : ∀ check facts, facts.testMode = false → prepare check facts = .none facts)
    {pending : List (Check α)} {facts : Facts} (hnames : (pending.map Check.name).Nodup)
    (hsteady : ∀ check ∈ pending, check.Steady (added check)) (hoff : facts.testMode = false) :
    ∃ order, StageOrder added pending facts.topics order ∧
      (rounds [] prepare pending facts).done =
        Execution.upToDeath (Execution.inTurn order facts) ∧
      (rounds [] prepare pending facts).notRun =
        pending.filter (·.name ∉ (rounds [] prepare pending facts).done.map (·.check.name)) := by
  revert hnames hsteady hoff
  refine rounds_induction [] prepare
    (motive := fun pending facts run => (pending.map Check.name).Nodup →
      (∀ check ∈ pending, check.Steady (added check)) → facts.testMode = false →
      ∃ order, StageOrder added pending facts.topics order ∧
        run.done = Execution.upToDeath (Execution.inTurn order facts) ∧
        run.notRun = pending.filter (·.name ∉ run.done.map (·.check.name)))
    ?nothing ?deadlock ?death ?next pending facts
  case nothing =>
    intro facts _ _ _
    exact ⟨[], .nil (by simp), rfl, rfl⟩
  case deadlock =>
    intro pending facts _ hready _ _ _
    refine ⟨[], .nil fun check hmem hnow => ?_, rfl, by simp⟩
    have hmem' : check ∈ pending.filter (·.ready facts) :=
      List.mem_filter.mpr ⟨hmem, Check.ready_iff_within.mpr hnow⟩
    simp [hready] at hmem'
  case death =>
    rintro pending facts round - rfl hdied hnames hsteady hoff
    have hround := Round.carryOut_ready_followsTurn hprepare hsteady hoff
    -- the later stages never come to run, but they are still part of the stage order
    obtain ⟨order, horder⟩ := exists_stageOrder added (waiting pending facts.topics)
      (stage added pending facts.topics 1)
    refine ⟨_, horder.cons, ?_, hround.pending_eq⟩
    have hdeath := hround.died_iff.mp hdied
    rw [hround.done_eq] at hdeath
    rw [Execution.inTurn_append, Execution.upToDeath_append_of_died hdeath]
    exact hround.done_eq
  case next =>
    rintro pending facts round rest - rfl hlive - ih hnames hsteady hoff
    have hround := Round.carryOut_ready_followsTurn hprepare hsteady hoff
    generalize Round.carryOut [] prepare _ pending facts = round at hlive hround ih ⊢
    obtain ⟨hdone, -, hnone⟩ := hround.of_live hlive
    obtain ⟨hpending, htopics, hoff'⟩ := hround.next_stage hlive hnames hsteady hoff
    -- the induction is about the stages of what waits, which are those from the second on
    have hwaiting : (waiting pending facts.topics).Sublist pending := List.filter_sublist
    rw [hpending, htopics] at ih
    obtain ⟨order, horder, hrest, hnotRun⟩ := ih (hnames.sublist (hwaiting.map _))
      (fun check hcheck => hsteady check (hwaiting.subset hcheck)) hoff'
    refine ⟨_, horder.cons, ?_, ?_⟩
    · rw [Execution.inTurn_append, ← hround.facts_eq hlive, ← hdone,
        Execution.upToDeath_append_of_not_died hnone]
      exact congrArg (round.done ++ ·) hrest
    · change rest.notRun = _
      rw [hnotRun, ← filter_name_eq_waiting hnames, List.filter_filter]
      refine List.filter_congr fun check _ => ?_
      rw [List.map_append, hdone, Execution.map_name_inTurn]
      simp [not_or, Bool.and_comm]

namespace Catalog

/-- Outside test mode there is no preparation. -/
theorem prepare_of_testMode_eq_false (catalog : Catalog α) (preparing : List String)
    (check : Check α) {facts : Facts} (hoff : facts.testMode = false) :
    catalog.prepare preparing check facts = .none facts := by
  rw [prepare_eq]
  exact if_neg fun h => by simp [hoff] at h

/-- **What a run outside test mode does.** The pending checks have distinct names, each files the
same topics whatever is known, and none leaves test mode on. Then the run carries out the one stage
order, check after check, up to the first that dies and with it; all other pending checks are not
run, in pending order. If no check dies, which checks run does not depend on the order in which they
are pending. -/
theorem run_follows_stage_order (catalog : Catalog α) {added : Check α → Set Topic}
    {pending : List (Check α)} {facts : Facts} (hnames : (pending.map Check.name).Nodup)
    (hsteady : ∀ check ∈ pending, check.Steady (added check)) (hoff : facts.testMode = false) :
    (∃ order, (∀ other, StageOrder added pending facts.topics other ↔ other = order) ∧
      (catalog.run pending facts).done = Execution.upToDeath (Execution.inTurn order facts) ∧
      (catalog.run pending facts).notRun =
        pending.filter (·.name ∉ (catalog.run pending facts).done.map (·.check.name))) ∧
    ∀ permuted : List (Check α), permuted.Perm pending →
      (∀ execution ∈ (catalog.run pending facts).done, execution.died = false) →
      (∀ execution ∈ (catalog.run permuted facts).done, execution.died = false) →
      ((catalog.run permuted facts).done.map (·.check)).Perm
        ((catalog.run pending facts).done.map (·.check)) := by
  have hprepare : ∀ check (facts : Facts), facts.testMode = false →
      catalog.prepare [] check facts = .none facts :=
    fun check _ => catalog.prepare_of_testMode_eq_false [] check
  have hnodup : pending.Nodup := List.Nodup.of_map _ hnames
  obtain ⟨order, horder, hdone, hnotRun⟩ := exists_stageOrder_rounds hprepare hnames hsteady hoff
  refine ⟨⟨order, fun other => ⟨fun h => horder.unique h hnodup, fun h => h ▸ horder⟩, hdone,
    hnotRun⟩, ?_⟩
  intro permuted hperm hlive hlive'
  obtain ⟨order', horder', hdone', -⟩ := exists_stageOrder_rounds hprepare
    ((hperm.map Check.name).nodup_iff.mpr hnames)
    (fun check hcheck => hsteady check (hperm.mem_iff.mp hcheck)) hoff
  -- without a death nothing is cut off, so both runs are whole stage orders
  rw [run, hdone] at hlive
  rw [run, hdone'] at hlive'
  rw [run, run, hdone, hdone', Execution.upToDeath_eq_self hlive,
    Execution.upToDeath_eq_self hlive', Execution.map_check_inTurn, Execution.map_check_inTurn]
  exact horder.perm horder' hnodup hperm

/-- A check that reads a topic, pending before the one that files it, and one that nobody helps. -/
def handover : List (Check Unit) :=
  [{ name := "reader", requires := [.named "word"], body := .done () },
    { name := "writer", body := .fileFact (.named "word") (.text "") fun _ => .done () },
    { name := "stranded", requires := [.named "other"], body := .done () }]

/-- The topics that the checks of the handover file. -/
def handedOver (check : Check Unit) : Set Topic :=
  {topic | check.name = "writer" ∧ topic = .named "word"}

theorem steady_handedOver : ∀ check ∈ handover, check.Steady (handedOver check) := by
  simp only [handover, List.mem_cons, List.not_mem_nil, or_false]
  rintro check (rfl | rfl | rfl)
  · exact ⟨fun facts => by simp [handedOver, Body.run], fun facts hoff => hoff⟩
  · refine ⟨fun facts => ?_, fun facts hoff => hoff⟩
    ext topic
    simp [handedOver, Body.run, Facts.topics, Facts.knows_insert_iff, or_comm]
  · exact ⟨fun facts => by simp [handedOver, Body.run], fun facts hoff => hoff⟩

theorem run_handover_follows_stage_order :
    (∃ order, (∀ other, StageOrder handedOver handover Facts.none.topics other ↔ other = order) ∧
      ((ofTable handover).run handover .none).done =
        Execution.upToDeath (Execution.inTurn order .none) ∧
      ((ofTable handover).run handover .none).notRun =
        handover.filter (·.name ∉
          ((ofTable handover).run handover .none).done.map (·.check.name))) ∧
      ((ofTable handover).run handover .none).done.map (·.check.name) = ["writer", "reader"] := by
  have hnames : (handover.map Check.name).Nodup := by decide
  refine ⟨(run_follows_stage_order (ofTable handover) hnames steady_handedOver rfl).1, ?_⟩
  cbv

end Catalog

end ScriptLint
