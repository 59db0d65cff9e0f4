import ScriptLint.Proofs.Script.Grounded

/-!
# How the table of a script grows

A step only appends to the table. What was there keeps its position, and the step stands for the last
of the nodes it appends, so the positions of the steps increase. Some steps append several nodes and
others one, so the number of a step says little about its position; that the steps before it were
taken is what makes its references good. Nothing else is needed: steps whose operators fit and that
refer only to steps before them are all taken.

## Main definitions

* `Orderly`: steps whose operators fit and that refer only to steps before them
* `Construction.Increasing`: the positions of the steps increase and are in the table

## Main results

* `Construction.ofSteps_eq_ok`: orderly steps are all taken
* `Construction.exists_laid`: what each of them appends, and the position it stands for
* `Construction.nodes_isPrefix`: what is in the table stays where it is
* `Construction.increasing_foldl`: the positions of the steps increase
* `Script.build_eq_ok`: orderly steps put a script together
-/

namespace ScriptLint

/-- Steps whose operators fit and that refer only to steps before them. -/
def Orderly (steps : List Step) : Prop :=
  ∀ entry ∈ steps.zipIdx, entry.1.fault? = none ∧ ∀ n ∈ entry.1.operands, n < entry.2

instance (steps : List Step) : Decidable (Orderly steps) :=
  inferInstanceAs (Decidable (∀ entry ∈ steps.zipIdx, _))

theorem Orderly.of_getElem? {steps : List Step} (h : Orderly steps) {i : Nat} {step : Step}
    (hstep : steps[i]? = some step) : step.fault? = none ∧ ∀ n ∈ step.operands, n < i :=
  h (step, i) (List.mem_zipIdx_iff_getElem?.mpr hstep)

/-- The first steps of orderly ones are orderly. -/
theorem Orderly.take {steps : List Step} (h : Orderly steps) (i : Nat) :
    Orderly (steps.take i) := by
  rintro ⟨step, k⟩ hmem
  have hstep := List.mem_zipIdx_iff_getElem?.mp hmem
  rw [List.getElem?_take] at hstep
  split at hstep
  · exact h.of_getElem? hstep
  · cases hstep

namespace Construction

/-! ## Taking orderly steps -/

theorem add_eq_ok {construction : Construction} {step : Step} (hfits : step.fault? = none)
    (hoperands : ∀ n ∈ step.operands, n < construction.positions.size) :
    construction.add step = .ok (construction.append step) := by
  have hfind : step.operands.find? (construction.positions.size ≤ ·) = none := by
    simpa using hoperands
  simp only [add, hfits, hfind]

theorem size_positions_append (construction : Construction) (step : Step) :
    (construction.append step).positions.size = construction.positions.size + 1 :=
  Array.size_push _

theorem foldlM_add_eq_ok {steps : List Step} {construction : Construction}
    (h : ∀ i step, steps[i]? = some step →
      step.fault? = none ∧ ∀ n ∈ step.operands, n < construction.positions.size + i) :
    steps.foldlM add construction = .ok (steps.foldl append construction) := by
  induction steps generalizing construction with
  | nil => rfl
  | cons step rest ih =>
    obtain ⟨hfits, hoperands⟩ := h 0 step rfl
    rw [List.foldlM_cons, add_eq_ok hfits hoperands]
    apply ih
    -- one step more is taken, and the steps of the rest are counted from one less
    intro i next hnext
    obtain ⟨hfits, hoperands⟩ := h (i + 1) next hnext
    refine ⟨hfits, fun n hn => ?_⟩
    have hlt := hoperands n hn
    rw [size_positions_append]
    omega

/-- **Orderly steps are all taken.** -/
theorem ofSteps_eq_ok {steps : List Step} (h : Orderly steps) :
    ofSteps steps = .ok (steps.foldl append {}) := by
  apply foldlM_add_eq_ok
  intro i step hstep
  obtain ⟨hfits, hoperands⟩ := h.of_getElem? hstep
  refine ⟨hfits, fun n hn => ?_⟩
  have hlt := hoperands n hn
  simpa using hlt

theorem size_positions_foldl (steps : List Step) (construction : Construction) :
    (steps.foldl append construction).positions.size =
      construction.positions.size + steps.length := by
  induction steps generalizing construction with
  | nil => rfl
  | cons step rest ih =>
    rw [List.foldl_cons, ih, size_positions_append, List.length_cons]
    omega

/-! ## What a step appends -/

theorem toList_nodes_append (construction : Construction) (step : Step) :
    (construction.append step).nodes.toList =
      construction.nodes.toList ++ step.layout.map (·.map construction.resolve) := by
  rw [append, Array.toList_appendList]

/-- **What a step appends**: one or more nodes after those that are there, and the position of the
last of them. -/
theorem exists_laid {steps : List Step} (h : Orderly steps) {i : Nat} {step : Step}
    (hstep : steps[i]? = some step) :
    ∃ before after laid, ofSteps (steps.take i) = .ok before ∧
      ofSteps (steps.take (i + 1)) = .ok after ∧ laid ≠ [] ∧
      after.nodes.toList = before.nodes.toList ++ laid ∧
      after.positions = before.positions.push (after.nodes.size - 1) := by
  -- the first steps with one more are the first steps, and then that one
  have hafter : (steps.take (i + 1)).foldl append {} =
      ((steps.take i).foldl append {}).append step := by
    rw [List.take_add_one, hstep, Option.toList_some, List.foldl_append]
    rfl
  refine ⟨_, _, _, ofSteps_eq_ok (h.take i), ofSteps_eq_ok (h.take (i + 1)), ?_,
    hafter ▸ toList_nodes_append _ step, ?_⟩
  · simpa using step.layout_ne_nil
  · rw [hafter, size_nodes_append]
    rfl

/-- What is in the table stays where it is. -/
theorem nodes_isPrefix (steps : List Step) (construction : Construction) :
    construction.nodes.toList <+: (steps.foldl append construction).nodes.toList := by
  induction steps generalizing construction with
  | nil => exact List.prefix_refl _
  | cons step rest ih =>
    have hstep : construction.nodes.toList <+: (construction.append step).nodes.toList := by
      rw [toList_nodes_append]
      exact List.prefix_append _ _
    exact hstep.trans (ih _)

/-! ## Positions -/

/-- The positions of the steps increase, and are in the table. -/
structure Increasing (construction : Construction) : Prop where
  pairwise : construction.positions.toList.Pairwise (· < ·)
  position_lt : ∀ position ∈ construction.positions.toList, position < construction.nodes.size

/-- One more step stands for a node behind all that were there. -/
theorem Increasing.append {construction : Construction} (h : construction.Increasing) (step : Step) :
    (construction.append step).Increasing := by
  -- were a step to append nothing, it would stand for a node of the step before
  have hpos := List.length_pos_iff.mpr step.layout_ne_nil
  have hpositions : (construction.append step).positions.toList =
      construction.positions.toList ++ [construction.nodes.size + step.layout.length - 1] :=
    Array.toList_push
  constructor
  · rw [hpositions, List.pairwise_append]
    refine ⟨h.pairwise, List.pairwise_singleton _ _, fun position hmem last hlast => ?_⟩
    have hlt := h.position_lt position hmem
    obtain rfl := List.mem_singleton.mp hlast
    omega
  · intro position hmem
    rw [size_nodes_append]
    rw [hpositions, List.mem_append, List.mem_singleton] at hmem
    rcases hmem with hmem | rfl
    · have hlt := h.position_lt position hmem
      omega
    · omega

/-- **The positions of the steps increase**, whatever the steps are. -/
theorem increasing_foldl (steps : List Step) {construction : Construction}
    (h : construction.Increasing) : (steps.foldl Construction.append construction).Increasing := by
  induction steps generalizing construction with
  | nil => exact h
  | cons step rest ih => exact ih (h.append step)

theorem increasing_empty : Increasing {} where
  pairwise := List.Pairwise.nil
  position_lt := by simp

end Construction

/-- **Orderly steps put a script together.** -/
theorem Script.build_eq_ok {steps : List Step} (h : Orderly steps) {top : List Nat}
    (htop : ∀ n ∈ top, n < steps.length) :
    let construction := steps.foldl Construction.append {}
    Script.build steps top =
      .ok ⟨construction.nodes, top.map (construction.positions.getD · 0)⟩ := by
  intro construction
  have hsize : construction.positions.size = steps.length := by
    rw [Construction.size_positions_foldl]
    simp
  have hfind : top.find? (construction.positions.size ≤ ·) = none := by
    rw [hsize]
    simpa using htop
  unfold Script.build
  rw [Construction.ofSteps_eq_ok h]
  change construction.finish top = _
  rw [Construction.finish, hfind]

end ScriptLint
