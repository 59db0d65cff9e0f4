import ScriptLint.Script.Construction

/-!
# Scripts that are put together are grounded

Each step of a construction appends nodes that refer to the nodes of earlier steps, or to earlier
nodes of the same step. The first are in the table already, and the second are appended before. So
in a script that is put together every reference is to an earlier node, whatever the steps are:
nothing else is asked of the node of a raw step.

## Main definitions

* `LinksBack`: the links of the nodes of a step within the step go back
* `Construction.Grounded`: what every step keeps true of the table and of the positions of steps

## Main results

* `Step.linksBack_layout`: the nodes of each step link back
* `Construction.Grounded.append`: one more step keeps a construction grounded
* `Script.grounded_of_build`: a script that is put together is grounded
-/

namespace ScriptLint

/-! ## Links within a step -/

/-- The links of nodes to nodes of the same step go back, where the first of the nodes has the given
offset in its step. -/
def LinksBack (offset : Nat) : List (Node Link) → Prop
  | [] => True
  | node :: rest => (∀ n, .inner n ∈ node.refs → n < offset) ∧ LinksBack (offset + 1) rest

theorem linksBack_append {offset : Nat} {nodes more : List (Node Link)} :
    LinksBack offset (nodes ++ more) ↔
      LinksBack offset nodes ∧ LinksBack (offset + nodes.length) more := by
  induction nodes generalizing offset with
  | nil => simp [LinksBack]
  | cons node rest ih =>
    have hoffset : offset + 1 + rest.length = offset + (rest.length + 1) := by omega
    simp only [List.cons_append, LinksBack, ih, List.length_cons, hoffset, and_assoc]

theorem LinksBack.lt_of_inner_mem {offset : Nat} {nodes : List (Node Link)}
    (h : LinksBack offset nodes) {k n : Nat} {node : Node Link} (hnode : nodes[k]? = some node)
    (hmem : .inner n ∈ node.refs) : n < offset + k := by
  induction nodes generalizing offset k with
  | nil => simp at hnode
  | cons first rest ih =>
    cases k with
    | zero =>
      obtain rfl : first = node := by simpa using hnode
      exact h.1 n hmem
    | succ k =>
      have hlt := ih h.2 (by simpa using hnode)
      omega

/-- The nodes of declarations link back, and their entries are among these nodes. -/
theorem Declaration.linksBack_layout (declarations : List Declaration) (offset : Nat) :
    LinksBack offset (Declaration.layout offset declarations).1 ∧
      ∀ n, .inner n ∈ (Declaration.layout offset declarations).2 →
        n < offset + (Declaration.layout offset declarations).1.length := by
  induction declarations generalizing offset with
  | nil => simp [Declaration.layout, LinksBack]
  | cons declaration rest ih =>
    obtain ⟨name, _ | value⟩ := declaration
    · obtain ⟨hnodes, hentries⟩ := ih (offset + 1)
      refine ⟨⟨by simp [Node.refs], hnodes⟩, fun n hn => ?_⟩
      simp only [Declaration.layout, List.mem_cons, Link.inner.injEq, List.length_cons] at hn ⊢
      rcases hn with rfl | hn
      · omega
      · have := hentries n hn
        omega
    · obtain ⟨hnodes, hentries⟩ := ih (offset + 2)
      refine ⟨⟨by simp [Node.refs], by simp [Node.refs], hnodes⟩, fun n hn => ?_⟩
      simp only [Declaration.layout, List.mem_cons, Link.inner.injEq, List.length_cons] at hn ⊢
      rcases hn with rfl | hn
      · omega
      · have := hentries n hn
        omega

/-- A node whose references are all to earlier steps has no link within its step. -/
theorem inner_not_mem_refs_map {node : Node Nat} {n : Nat} :
    Link.inner n ∉ (node.map Link.earlier).refs := by
  simp

/-- A declaration links back to its entries. -/
theorem Declaration.linksBack_concat (declarations : List Declaration) {node : Node Link}
    (hrefs : node.refs = (Declaration.layout 0 declarations).2) :
    LinksBack 0 ((Declaration.layout 0 declarations).1 ++ [node]) := by
  obtain ⟨hnodes, hentries⟩ := Declaration.linksBack_layout declarations 0
  refine linksBack_append.mpr ⟨hnodes, ⟨fun n hn => ?_, trivial⟩⟩
  exact hentries n (hrefs ▸ hn)

/-- **The nodes of each step link back**: of the steps that append several nodes, an assignment
refers to its variable, a declaration to its entries and a function to its block. -/
theorem Step.linksBack_layout (step : Step) : LinksBack 0 step.layout := by
  cases step with
  | locals declarations => exact Declaration.linksBack_concat declarations rfl
  | globals declarations => exact Declaration.linksBack_concat declarations rfl
  | callWith callee args => exact ⟨fun n hn => absurd hn inner_not_mem_refs_map, trivial⟩
  | raw node => exact ⟨fun n hn => absurd hn inner_not_mem_refs_map, trivial⟩
  | _ => simp [Step.layout, LinksBack, Node.refs]

theorem Step.layout_ne_nil (step : Step) : step.layout ≠ [] := by
  cases step <;> simp [Step.layout]

/-! ## Constructions -/

namespace Construction

/-- What every step keeps true: each node refers to nodes before it, and the node of each step is in
the table. -/
structure Grounded (construction : Construction) : Prop where
  /-- A node refers only to nodes before it. -/
  refs_lt : ∀ {r : Nat} {node : Node Nat}, construction.nodes[r]? = some node →
    ∀ t ∈ node.refs, t < r
  /-- The node of each step is in the table. -/
  position_lt : ∀ position ∈ construction.positions, position < construction.nodes.size

theorem grounded_empty : Grounded {} where
  refs_lt := by simp
  position_lt := by simp

/-- The node of a step that was taken is in the table. -/
theorem Grounded.getD_lt {construction : Construction} (h : construction.Grounded) {n : Nat}
    (hn : n < construction.positions.size) :
    construction.positions.getD n 0 < construction.nodes.size := by
  apply h.position_lt
  rw [Array.getD_eq_getD_getElem?, Array.getElem?_eq_getElem hn, Option.getD_some]
  exact Array.getElem_mem hn

/-- Where the table of a longer construction has a node: among the nodes it had, or among those of
the last step. -/
theorem getElem?_nodes_append {construction : Construction} {step : Step} {r : Nat}
    {node : Node Nat} (h : (construction.append step).nodes[r]? = some node) :
    construction.nodes[r]? = some node ∨
      ∃ k laid, r = construction.nodes.size + k ∧ step.layout[k]? = some laid ∧
        node = laid.map construction.resolve := by
  rw [append, ← Array.getElem?_toList, Array.toList_appendList] at h
  by_cases hr : r < construction.nodes.toList.length
  · left
    rwa [List.getElem?_append_left hr, Array.getElem?_toList] at h
  · right
    rw [List.getElem?_append_right (Nat.le_of_not_lt hr), List.getElem?_map] at h
    obtain ⟨laid, hlaid, rfl⟩ := Option.map_eq_some_iff.mp h
    refine ⟨_, laid, ?_, hlaid, rfl⟩
    simp only [Array.length_toList] at hr ⊢
    omega

theorem size_nodes_append (construction : Construction) (step : Step) :
    (construction.append step).nodes.size = construction.nodes.size + step.layout.length := by
  rw [append, ← Array.length_toList, Array.toList_appendList]
  simp

/-- **One more step keeps a construction grounded**, if it refers only to steps that were taken. -/
theorem Grounded.append {construction : Construction} (h : construction.Grounded) {step : Step}
    (hoperands : ∀ n ∈ step.operands, n < construction.positions.size) :
    (construction.append step).Grounded where
  refs_lt := by
    intro r node hnode t ht
    rcases getElem?_nodes_append hnode with hold | ⟨k, laid, rfl, hlaid, rfl⟩
    · exact h.refs_lt hold t ht
    rw [Node.refs_map, List.mem_map] at ht
    obtain ⟨link, hlink, rfl⟩ := ht
    -- an earlier step has its node in the table, and a link within the step goes back
    cases link with
    | earlier n =>
      have hn : n ∈ step.operands := by
        refine List.mem_filterMap.mpr ⟨.earlier n, ?_, rfl⟩
        exact List.mem_flatMap.mpr ⟨laid, List.mem_of_getElem? hlaid, hlink⟩
      have hlt := h.getD_lt (hoperands n hn)
      rw [resolve]
      omega
    | inner n =>
      have hlt := step.linksBack_layout.lt_of_inner_mem hlaid hlink
      rw [resolve]
      omega
  position_lt := by
    intro position hposition
    have hpos := List.length_pos_iff.mpr step.layout_ne_nil
    rw [size_nodes_append]
    rcases Array.mem_push.mp hposition with hold | rfl
    · have hlt := h.position_lt position hold
      omega
    · omega

theorem Grounded.add {construction next : Construction} (h : construction.Grounded) {step : Step}
    (hadd : construction.add step = .ok next) : next.Grounded := by
  unfold Construction.add at hadd
  split at hadd
  · cases hadd
  split at hadd
  · cases hadd
  · next hfind =>
    obtain rfl : construction.append step = next := by simpa using hadd
    refine h.append fun n hn => ?_
    simpa using List.find?_eq_none.mp hfind n hn

/-- Every construction that steps lead to is grounded. -/
theorem grounded_of_foldlM {steps : List Step} {construction next : Construction}
    (h : construction.Grounded) (hsteps : steps.foldlM Construction.add construction = .ok next) :
    next.Grounded := by
  induction steps generalizing construction with
  | nil =>
    obtain rfl : construction = next := by simpa [pure, Except.pure] using hsteps
    exact h
  | cons step rest ih =>
    rw [List.foldlM_cons] at hsteps
    cases hadd : construction.add step with
    | error fault =>
      rw [hadd] at hsteps
      cases hsteps
    | ok middle =>
      rw [hadd] at hsteps
      exact ih (h.add hadd) hsteps

end Construction

/-- **A script that is put together is grounded.** -/
theorem Script.grounded_of_build {steps : List Step} {top : List Nat} {script : Script}
    (h : Script.build steps top = .ok script) : script.Grounded := by
  unfold Script.build at h
  cases hsteps : Construction.ofSteps steps with
  | error fault =>
    rw [hsteps] at h
    cases h
  | ok construction =>
    rw [hsteps] at h
    have hgrounded := Construction.grounded_of_foldlM Construction.grounded_empty hsteps
    change construction.finish top = .ok script at h
    unfold Construction.finish at h
    split at h
    · cases h
    · next hfind =>
      obtain rfl := Except.ok.inj h
      refine ⟨hgrounded.refs_lt, fun t ht => ?_⟩
      obtain ⟨n, hn, rfl⟩ := List.mem_map.mp ht
      apply hgrounded.getD_lt
      simpa using List.find?_eq_none.mp hfind n hn

end ScriptLint
