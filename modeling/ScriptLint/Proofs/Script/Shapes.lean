import Mathlib.Data.List.Forall2
import ScriptLint.Proofs.Script.Growth

/-!
# The shapes of nodes in a script that is put together

Some nodes promise more than their constructor says: an expression has its right operand, and its
left one unless the operator is unary; each entry of a declaration is an identifier, or an
assignment of a value to one; the body of a function is a block. A raw step may break any of this.
All other steps keep these promises, or are refused for an operator that does not fit.

What an entry or a body refers to is another node, so a promise is about a node and the look-up of
its parts. It carries over to any look-up that finds the same nodes: from the nodes of a step, which
link to each other, to the table, and from a table to a longer one.

## Main definitions

* `Declared`, `Node.Promised`: the promises, for a look-up of nodes
* `WellShaped`: a table in which all nodes keep their promises
* `Step.Misuses`: a step whose operator does not fit
* `Construction.Defines`: a function as the steps have it
* `Construction.Faithful`: what steps that are taken lead to

## Main results

* `Node.Promised.map`: promises carry over from one look-up to another
* `Step.promised_layout`: the nodes of a step keep their promises
* `Construction.Faithful.append`: one more step keeps everything as promised
* `Script.built_script_keeps_promises`: what steps that are not raw lead to
-/

namespace ScriptLint

variable {ρ σ : Type}

/-! ## Promises -/

/-- An entry of a declaration: an identifier, or an assignment of a value to one. -/
inductive Declared (look : ρ → Option (Node ρ)) (entry : ρ) : Prop
  /-- The entry is an identifier. -/
  | identifier {name : String} (h : look entry = some (.identifier name))
  /-- The entry assigns a value to an identifier. -/
  | assignment {target value : ρ} {name : String}
      (h : look entry = some (.assignment (some target) (some value)))
      (htarget : look target = some (.identifier name))

/-- What a node promises about its parts. -/
def Node.Promised (look : ρ → Option (Node ρ)) : Node ρ → Prop
  | .expression op lhs rhs => rhs.isSome = true ∧ (lhs.isSome = true ↔ op.isUnary = false)
  | .locals entries | .globals entries => ∀ entry ∈ entries, Declared look entry
  | .function _ _ body => ∃ block statements, body = some block ∧
    look block = some (.block statements)
  | _ => True

/-- A table in which every node keeps its promise. -/
def WellShaped (nodes : Array (Node Nat)) : Prop :=
  ∀ (r : Nat) (node : Node Nat), nodes[r]? = some node → node.Promised (nodes[·]?)

theorem Node.map_id (node : Node ρ) : node.map id = node := by
  cases node <;> simp [Node.map]

section Transfer

variable {look : ρ → Option (Node ρ)} {look' : σ → Option (Node σ)} {f : ρ → σ}

theorem Declared.map (hlook : ∀ r node, look r = some node → look' (f r) = some (node.map f))
    {entry : ρ} (h : Declared look entry) : Declared look' (f entry) := by
  cases h with
  | identifier h => exact .identifier (hlook _ _ h)
  | assignment h htarget => exact .assignment (hlook _ _ h) (hlook _ _ htarget)

/-- **Promises carry over** to a look-up that finds the same nodes. -/
theorem Node.Promised.map
    (hlook : ∀ r node, look r = some node → look' (f r) = some (node.map f))
    {node : Node ρ} (h : node.Promised look) : (node.map f).Promised look' := by
  cases node with
  | expression op lhs rhs => simpa [Promised, Node.map] using h
  | locals entries =>
    intro entry hentry
    obtain ⟨link, hlink, rfl⟩ := List.mem_map.mp hentry
    exact (h link hlink).map hlook
  | globals entries =>
    intro entry hentry
    obtain ⟨link, hlink, rfl⟩ := List.mem_map.mp hentry
    exact (h link hlink).map hlook
  | function name params body =>
    obtain ⟨block, statements, rfl, hblock⟩ := h
    exact ⟨f block, statements.map f, rfl, hlook _ _ hblock⟩
  | _ => trivial

end Transfer

/-! ## The nodes of a step -/

/-- Finds a node of a step among the nodes of that step. -/
def Link.lookIn (nodes : List (Node Link)) : Link → Option (Node Link)
  | inner offset => nodes[offset]?
  | earlier _ => none

/-- A node that a declaration brings along: an identifier or an assignment. -/
inductive Node.IsEntry : Node ρ → Prop
  | identifier (name : String) : IsEntry (.identifier name)
  | assignment (target value : Option ρ) : IsEntry (.assignment target value)

theorem Node.IsEntry.promised {node : Node ρ} (h : node.IsEntry) (look : ρ → Option (Node ρ)) :
    node.Promised look := by
  cases h with
  | identifier name => trivial
  | assignment target value => trivial

/-- The name and the body of a function. -/
def Node.function? : Node ρ → Option (String × Option ρ)
  | .function name _ body => some (name, body)
  | _ => none

theorem Script.functions_eq (script : Script) :
    script.functions = script.nodes.toList.filterMap Node.function? := by
  unfold functions
  congr 1
  funext node
  cases node <;> rfl

theorem Declaration.isEntry_of_mem_layout {declarations : List Declaration} {offset : Nat}
    {node : Node Link} (h : node ∈ (Declaration.layout offset declarations).1) : node.IsEntry := by
  induction declarations generalizing offset with
  | nil => cases h
  | cons declaration rest ih =>
    obtain ⟨name, _ | value⟩ := declaration
    · rcases List.mem_cons.mp h with rfl | h
      · exact .identifier name
      · exact ih h
    · rcases List.mem_cons.mp h with rfl | h
      · exact .identifier name
      rcases List.mem_cons.mp h with rfl | h
      · exact .assignment _ _
      · exact ih h

/-- The entries of declarations are declared by their nodes, wherever these are found. -/
theorem Declaration.declared_of_mem_layout {look : Link → Option (Node Link)}
    {declarations : List Declaration} {offset : Nat}
    (hlook : ∀ k node, (Declaration.layout offset declarations).1[k]? = some node →
      look (.inner (offset + k)) = some node)
    {entry : Link} (h : entry ∈ (Declaration.layout offset declarations).2) :
    Declared look entry := by
  induction declarations generalizing offset with
  | nil => cases h
  | cons declaration rest ih =>
    obtain ⟨name, _ | value⟩ := declaration
    · rcases List.mem_cons.mp h with rfl | h
      · exact .identifier (hlook 0 _ rfl)
      · refine ih (fun k node hnode => ?_) h
        have hfound := hlook (k + 1) node hnode
        rwa [Nat.add_comm k, ← Nat.add_assoc] at hfound
    · rcases List.mem_cons.mp h with rfl | h
      · exact .assignment (hlook 1 _ rfl) (hlook 0 _ rfl)
      · refine ih (fun k node hnode => ?_) h
        have hfound := hlook (k + 2) node hnode
        rwa [Nat.add_comm k, ← Nat.add_assoc] at hfound

/-- A declaration of either kind keeps its promise behind the nodes of its entries. -/
theorem Declaration.declared_in_concat (declarations : List Declaration) (node : Node Link) :
    ∀ entry ∈ (Declaration.layout 0 declarations).2,
      Declared (Link.lookIn ((Declaration.layout 0 declarations).1 ++ [node])) entry := by
  intro entry hentry
  refine Declaration.declared_of_mem_layout (fun k found hfound => ?_) hentry
  have hk := (List.getElem?_eq_some_iff.mp hfound).1
  rw [Nat.zero_add, Link.lookIn, List.getElem?_append_left hk]
  exact hfound

/-- The nodes of a declaration define no function. -/
theorem Declaration.filterMap_function?_concat (f : Link → σ) (declarations : List Declaration)
    {last : Node Link} (hlast : (last.map f).function? = none) :
    (((Declaration.layout 0 declarations).1 ++ [last]).map (·.map f)).filterMap Node.function? =
      [] := by
  rw [List.filterMap_map]
  refine List.filterMap_eq_nil_iff.mpr fun node hnode => ?_
  rcases List.mem_append.mp hnode with hnode | hnode
  · cases Declaration.isEntry_of_mem_layout hnode with
    | identifier name => rfl
    | assignment target value => rfl
  · rw [List.mem_singleton.mp hnode]
    exact hlast

namespace Step

/-- A step that appends any node as it stands. -/
def isRaw : Step → Bool
  | raw _ => true
  | _ => false

/-- A step whose operator does not fit, and the error. -/
inductive Misuses : Step → BuildError → Prop
  /-- A unary expression with a binary operator. -/
  | unary {op : Operator} (operand : Nat) (h : op.isUnary = false) :
      Misuses (.unary op operand) (.notUnary op)
  /-- A binary expression with a unary operator. -/
  | binary {op : Operator} (lhs rhs : Nat) (h : op.isUnary = true) :
      Misuses (.binary lhs op rhs) (.notBinary op)

theorem fault?_eq_some_iff {step : Step} {fault : BuildError} :
    step.fault? = some fault ↔ step.Misuses fault := by
  constructor
  · intro h
    cases step with
    | unary op operand =>
      rw [fault?] at h
      split at h
      · cases h
      · next hop =>
        obtain rfl := Option.some.inj h
        exact .unary operand (by simpa using hop)
    | binary lhs op rhs =>
      rw [fault?] at h
      split at h
      · next hop =>
        obtain rfl := Option.some.inj h
        exact .binary lhs rhs hop
      · cases h
    | _ => cases h
  · rintro (⟨operand, h⟩ | ⟨lhs, rhs, h⟩)
    · simp [fault?, h]
    · simp [fault?, h]

/-- **The nodes of a step keep their promises** if the step is not raw and its operator fits. -/
theorem promised_layout {step : Step} (hraw : step.isRaw = false) (hfits : step.fault? = none) :
    ∀ node ∈ step.layout, node.Promised (Link.lookIn step.layout) := by
  intro node hnode
  cases step with
  | unary op operand =>
    obtain rfl := List.mem_singleton.mp hnode
    simpa [fault?, Node.Promised] using hfits
  | negation operand =>
    obtain rfl := List.mem_singleton.mp hnode
    simp [Node.Promised, Operator.isUnary]
  | binary lhs op rhs =>
    obtain rfl := List.mem_singleton.mp hnode
    simpa [fault?, Node.Promised] using hfits
  | locals declarations =>
    rcases List.mem_append.mp hnode with hnode | hnode
    · exact (Declaration.isEntry_of_mem_layout hnode).promised _
    · obtain rfl := List.mem_singleton.mp hnode
      exact Declaration.declared_in_concat declarations _
  | globals declarations =>
    rcases List.mem_append.mp hnode with hnode | hnode
    · exact (Declaration.isEntry_of_mem_layout hnode).promised _
    · obtain rfl := List.mem_singleton.mp hnode
      exact Declaration.declared_in_concat declarations _
  | function name params body =>
    rcases List.mem_cons.mp hnode with rfl | hnode
    · trivial
    · obtain rfl := List.mem_singleton.mp hnode
      exact ⟨.inner 0, body.map .earlier, rfl, rfl⟩
  | raw node => cases hraw
  | assign name value =>
    rcases List.mem_cons.mp hnode with rfl | hnode
    · trivial
    · obtain rfl := List.mem_singleton.mp hnode
      trivial
  | _ =>
    obtain rfl := List.mem_singleton.mp hnode
    trivial

/-- The name and the statements of a function definition. -/
def function? : Step → Option (String × List Nat)
  | function name _ body => some (name, body)
  | _ => none

end Step

/-! ## Taking a step -/

namespace Construction

theorem getElem?_nodes_append_of_some {construction : Construction} (step : Step) {r : Nat}
    {node : Node Nat} (h : construction.nodes[r]? = some node) :
    (construction.append step).nodes[r]? = some node := by
  rw [← Array.getElem?_toList] at h ⊢
  rw [toList_nodes_append, List.getElem?_append_left (List.getElem?_eq_some_iff.mp h).1]
  exact h

theorem getElem?_nodes_append_inner (construction : Construction) {step : Step} {k : Nat}
    {laid : Node Link} (h : step.layout[k]? = some laid) :
    (construction.append step).nodes[construction.nodes.size + k]? =
      some (laid.map construction.resolve) := by
  rw [← Array.getElem?_toList, toList_nodes_append, ← Array.length_toList,
    List.getElem?_append_right (Nat.le_add_right _ _), Nat.add_sub_cancel_left,
    List.getElem?_map, h]
  rfl

theorem getElem?_positions_append_of_some {construction : Construction} (step : Step)
    {n position : Nat} (h : construction.positions[n]? = some position) :
    (construction.append step).positions[n]? = some position := by
  have hn := (Array.getElem?_eq_some_iff.mp h).1
  rw [append, Array.getElem?_push_lt hn, ← Array.getElem?_eq_getElem hn]
  exact h

/-- One more step keeps the promises of all nodes. -/
theorem wellShaped_append {construction : Construction} (h : WellShaped construction.nodes)
    {step : Step} (hraw : step.isRaw = false) (hfits : step.fault? = none) :
    WellShaped (construction.append step).nodes := by
  intro r node hnode
  rcases getElem?_nodes_append hnode with hold | ⟨k, laid, rfl, hlaid, rfl⟩
  · -- a node that was there finds its parts where they were
    rw [← node.map_id]
    refine (h r node hold).map fun part found hfound => ?_
    rw [found.map_id]
    exact getElem?_nodes_append_of_some step hfound
  · refine (Step.promised_layout hraw hfits laid (List.mem_of_getElem? hlaid)).map ?_
    rintro (earlier | offset) found hfound
    · cases hfound
    · exact getElem?_nodes_append_inner construction hfound

/-- A function definition appends one function, with the block that the step appends first, and no
other step appends any. -/
theorem functions_append (construction : Construction) {step : Step} (hraw : step.isRaw = false) :
    (Script.mk (construction.append step).nodes []).functions =
      (Script.mk construction.nodes []).functions ++
        (step.function?.map fun definition =>
          (definition.1, some construction.nodes.size)).toList := by
  rw [Script.functions_eq, Script.functions_eq, toList_nodes_append, List.filterMap_append]
  refine congrArg _ ?_
  cases step with
  | locals declarations => exact Declaration.filterMap_function?_concat _ declarations rfl
  | globals declarations => exact Declaration.filterMap_function?_concat _ declarations rfl
  | raw node => cases hraw
  | _ => rfl

/-! ## Taking all steps -/

/-- A function as a step defines it: under its name, with a block of the nodes of its statements. -/
structure Defines (construction : Construction) (definition : String × List Nat)
    (function : String × Option Nat) : Prop where
  /-- The function has the name. -/
  name_eq : function.1 = definition.1
  /-- Its body is a block that holds, one by one, where the steps of the statements stand. -/
  body : ∃ block statements, function.2 = some block ∧
    construction.nodes[block]? = some (.block statements) ∧
    List.Forall₂ (fun step position => construction.positions[step]? = some position)
      definition.2 statements

/-- What steps that are taken lead to: as many positions, a table in which all nodes keep their
promises, and a function for each definition, in order. -/
structure Faithful (steps : List Step) (construction : Construction) : Prop where
  size_eq : construction.positions.size = steps.length
  shaped : WellShaped construction.nodes
  functions : List.Forall₂ construction.Defines (steps.filterMap Step.function?)
    (Script.mk construction.nodes []).functions

theorem faithful_empty : Faithful [] {} where
  size_eq := rfl
  shaped := by simp [WellShaped]
  functions := .nil

/-- What defines a function still does after one more step. -/
theorem Defines.append {construction : Construction} {definition : String × List Nat}
    {function : String × Option Nat} (h : construction.Defines definition function) (step : Step) :
    (construction.append step).Defines definition function := by
  obtain ⟨block, statements, hbody, hblock, hstatements⟩ := h.body
  exact ⟨h.name_eq, block, statements, hbody, getElem?_nodes_append_of_some step hblock,
    hstatements.imp fun _ _ => getElem?_positions_append_of_some step⟩

/-- **One more step keeps everything as promised**, if it is not raw, its operator fits and it
refers to steps that were taken. -/
theorem Faithful.append {steps : List Step} {construction : Construction}
    (h : Faithful steps construction) {step : Step} (hraw : step.isRaw = false)
    (hfits : step.fault? = none) (hoperands : ∀ n ∈ step.operands, n < steps.length) :
    Faithful (steps ++ [step]) (construction.append step) where
  size_eq := by
    rw [size_positions_append, h.size_eq, List.length_append, List.length_singleton]
  shaped := wellShaped_append h.shaped hraw hfits
  functions := by
    rw [List.filterMap_append, functions_append construction hraw]
    refine List.rel_append (h.functions.imp fun _ _ hdefines => hdefines.append step) ?_
    cases step with
    | function name params body =>
      have hlaid : (Step.function name params body).layout[0]? =
          some (.block (body.map .earlier)) := rfl
      refine .cons ⟨rfl, construction.nodes.size, _, rfl,
        getElem?_nodes_append_inner construction hlaid, ?_⟩ .nil
      rw [List.map_map, List.forall₂_map_right_iff, List.forall₂_same]
      intro n hn
      have hlt : n < construction.positions.size := by
        rw [h.size_eq]
        exact hoperands n (by simp [Step.operands, Step.layout, Node.refs, hn])
      apply getElem?_positions_append_of_some
      simp [resolve, hlt]
    | _ => exact .nil

/-- What holds of some steps holds of all, if the others may be taken after them. -/
theorem Faithful.foldl {steps rest : List Step} {construction : Construction}
    (h : Faithful steps construction)
    (hrest : ∀ i step, rest[i]? = some step → step.isRaw = false ∧ step.fault? = none ∧
      ∀ n ∈ step.operands, n < steps.length + i) :
    Faithful (steps ++ rest) (rest.foldl Construction.append construction) := by
  induction rest generalizing steps construction with
  | nil =>
    rw [List.append_nil]
    exact h
  | cons step rest ih =>
    obtain ⟨hraw, hfits, hoperands⟩ := hrest 0 step rfl
    rw [← List.singleton_append, ← List.append_assoc]
    refine ih (h.append hraw hfits hoperands) fun i next hnext => ?_
    obtain ⟨hraw, hfits, hoperands⟩ := hrest (i + 1) next hnext
    refine ⟨hraw, hfits, fun n hn => ?_⟩
    have hlt := hoperands n hn
    rw [List.length_append, List.length_singleton]
    omega

end Construction

/-- Steps that refer only to steps before them. -/
def RefersBack (steps : List Step) : Prop :=
  ∀ entry ∈ steps.zipIdx, ∀ n ∈ entry.1.operands, n < entry.2

instance (steps : List Step) : Decidable (RefersBack steps) :=
  inferInstanceAs (Decidable (∀ entry ∈ steps.zipIdx, ∀ n ∈ entry.1.operands, n < entry.2))

theorem RefersBack.orderly {steps : List Step} (h : RefersBack steps)
    (hfits : ∀ step ∈ steps, step.fault? = none) : Orderly steps :=
  fun entry hentry => ⟨hfits _ (List.fst_mem_of_mem_zipIdx hentry), h entry hentry⟩

theorem RefersBack.of_append {before after : List Step} (h : RefersBack (before ++ after)) :
    RefersBack before := by
  intro entry hentry
  apply h
  rw [List.zipIdx_append]
  exact List.mem_append_left _ hentry

theorem Construction.ofSteps_eq_error {before after : List Step} {step : Step} {fault : BuildError}
    (hrefs : RefersBack (before ++ step :: after))
    (hfits : ∀ earlier ∈ before, earlier.fault? = none)
    (hfault : step.fault? = some fault) : ofSteps (before ++ step :: after) = .error fault := by
  have hbefore := ofSteps_eq_ok (hrefs.of_append.orderly hfits)
  unfold ofSteps at hbefore ⊢
  rw [List.foldlM_append, hbefore]
  simp only [bind, Except.bind, List.foldlM_cons, add, hfault]

namespace Script

theorem build_eq_error {steps : List Step} {fault : BuildError} (top : List Nat)
    (h : Construction.ofSteps steps = .error fault) : build steps top = .error fault := by
  rw [build, h]
  rfl

/-- **Steps that are not raw keep what nodes promise.** Let them refer only to steps before them.
Either they are refused for the first step whose operator does not fit; or none has such an operator
and they put a script together in which every node keeps its promise, with one function for each
function definition, in the order of the steps: under its name, with a block that holds the nodes of
its statements. -/
theorem built_script_keeps_promises (steps : List Step) (top : List Nat)
    (hraw : ∀ step ∈ steps, step.isRaw = false) (hrefs : RefersBack steps)
    (htop : ∀ n ∈ top, n < steps.length) :
    (∃ before step after fault, steps = before ++ step :: after ∧
      (∀ earlier ∈ before, ∀ other, ¬ earlier.Misuses other) ∧ step.Misuses fault ∧
      build steps top = .error fault) ∨
    (∀ step ∈ steps, ∀ fault, ¬ step.Misuses fault) ∧
      ∃ construction script, Construction.ofSteps steps = .ok construction ∧
        build steps top = .ok script ∧ script.nodes = construction.nodes ∧
        WellShaped script.nodes ∧
        List.Forall₂ construction.Defines (steps.filterMap Step.function?) script.functions := by
  have hfits_iff : ∀ step : Step, step.fault? = none ↔ ∀ fault, ¬ step.Misuses fault := by
    intro step
    simp only [← Step.fault?_eq_some_iff, Option.eq_none_iff_forall_ne_some]
  cases hfind : steps.find? (·.fault?.isSome) with
  | some step =>
    left
    obtain ⟨hsome, before, after, rfl, hbefore⟩ := List.find?_eq_some_iff_append.mp hfind
    obtain ⟨fault, hfault⟩ := Option.isSome_iff_exists.mp hsome
    have hfits : ∀ earlier ∈ before, earlier.fault? = none := by simpa using hbefore
    exact ⟨before, step, after, fault, rfl,
      fun earlier hearlier => (hfits_iff earlier).mp (hfits earlier hearlier),
      Step.fault?_eq_some_iff.mp hfault,
      build_eq_error top (Construction.ofSteps_eq_error hrefs hfits hfault)⟩
  | none =>
    right
    have hfits : ∀ step ∈ steps, step.fault? = none := by
      simpa using List.find?_eq_none.mp hfind
    have horderly := hrefs.orderly hfits
    have hfaithful : Construction.Faithful ([] ++ steps) (steps.foldl Construction.append {}) := by
      refine Construction.faithful_empty.foldl fun i step hstep => ?_
      obtain ⟨hfit, hoperands⟩ := horderly.of_getElem? hstep
      refine ⟨hraw step (List.mem_of_getElem? hstep), hfit, fun n hn => ?_⟩
      simpa using hoperands n hn
    exact ⟨fun step hstep => (hfits_iff step).mp (hfits step hstep), _, _,
      Construction.ofSteps_eq_ok horderly, build_eq_ok horderly htop, rfl, hfaithful.shaped,
      hfaithful.functions⟩

/-- Steps with a declaration of both kinds of entries, an expression and a function. -/
def declaringSteps : List Step :=
  [.call "open_sock_tcp" [], .locals [⟨"s", some 0⟩, ⟨"t", none⟩], .reference "s", .negation 2,
    .function "f" ["x"] [1, 3]]

theorem declaringSteps_keep_promises :
    (∃ script block statements, build declaringSteps [4] = .ok script ∧
      WellShaped script.nodes ∧ script.functions = [("f", some block)] ∧
      script.nodes[block]? = some (.block statements) ∧ statements.length = 2) ∧
    build (declaringSteps ++ [.binary 2 .not 3, .unary .add 2]) [4] = .error (.notBinary .not) := by
  refine ⟨?_, rfl⟩
  rcases built_script_keeps_promises declaringSteps [4] (by decide) (by decide) (by decide) with
    ⟨_, _, _, _, -, -, -, herror⟩ |
    ⟨-, construction, script, -, hbuild, hnodes, hshaped, hfunctions⟩
  · obtain ⟨script, hbuild⟩ : ∃ script, build declaringSteps [4] = .ok script := ⟨_, rfl⟩
    cases hbuild.symm.trans herror
  · have hdefinitions : declaringSteps.filterMap Step.function? = [("f", [1, 3])] := rfl
    rw [hdefinitions] at hfunctions
    obtain ⟨⟨name, body⟩, rest, hdefines, hrest, hlist⟩ := List.forall₂_cons_left_iff.mp hfunctions
    obtain rfl := List.forall₂_nil_left_iff.mp hrest
    obtain ⟨rfl : name = "f", block, statements, rfl : body = some block, hblock, hstatements⟩ :=
      hdefines
    exact ⟨script, block, statements, hbuild, hshaped, hlist, hnodes ▸ hblock,
      hstatements.length_eq.symm⟩

end Script

end ScriptLint
