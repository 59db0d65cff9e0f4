import Mathlib.Tactic.IntervalCases
import ScriptLint.Proofs.Leak.Openings
import ScriptLint.Proofs.Leak.Strict

/-!
# What a walk does not see

A walk keeps track of few things: the statements of bodies, variables, and a handful of calls. Much
of a script may be changed without any change in what an audit reports. Values and expressions,
loops, global declarations and inclusions may be emptied. A function may have another name and other
parameters, and a call may have other arguments after the first. And whatever is reached only
through loops and global declarations may be replaced altogether, as long as no function is defined
in it: functions are walked wherever they stand.

The difficulty is that a node is not met in one place only. It may at once be a statement, a target,
a value, an entry of a declaration, a condition, the operand of a negation, a returned value and the
argument of a close. In each of these roles the walk asks whether the node is of one certain kind,
and is content with anything else. So for each role it is shown that the old node and the new one
are taken alike; the two walks then go side by side, and the parts that are not alike are never met.

## Main definitions

* `Node.Untracked`, `Node.Secludes`: nodes that may be emptied, and those among them that hold code
* `Node.Blurs`: what may be changed in a node
* `Script.Secluded`: a part of a script that is reached only through loops and global declarations,
  and that defines no function
* `Script.BlursOutside`: scripts that differ outside of such a part only in what may be changed

## Main results

* `Script.BlursOutside.walk_eq`: the walk of a statement outside of the part is the same
* `Script.BlursOutside.bodies_eq`: the same bodies are walked
* `Script.BlursOutside.findings_eq`: the same is found
* `Script.audit_is_blind_to_untracked_code`: an audit reports the same
-/

namespace ScriptLint

/-! ## Changes that are not seen -/

namespace Node

variable {ρ : Type}

/-- The nodes that no walk looks into: values, expressions other than negations, global
declarations, loops and inclusions. -/
def Untracked : Node ρ → Prop
  | integer _ | text _ | globals _ | includes _ => True
  | forLoop _ _ _ _ | foreachLoop _ _ _ | whileLoop _ _ | repeatLoop _ _ => True
  | expression op _ _ => op ≠ .not
  | _ => False

/-- The nodes that keep the code in them from being walked: global declarations and loops. -/
def Secludes (node : Node ρ) : Prop :=
  node.shape ∈ [Shape.globals, .forLoop, .foreachLoop, .whileLoop, .repeatLoop]

instance (node : Node ρ) : Decidable node.Secludes :=
  inferInstanceAs (Decidable (node.shape ∈ _))

theorem Secludes.untracked {node : Node ρ} (h : node.Secludes) : node.Untracked := by
  cases node with
  | globals _ => trivial
  | forLoop _ _ _ _ => trivial
  | foreachLoop _ _ _ => trivial
  | whileLoop _ _ => trivial
  | repeatLoop _ _ => trivial
  | _ => simp [Secludes, shape] at h

/-- **What may be changed in a node.** A node that no walk looks into may be emptied, a function may
have another name and other parameters, and a call may have other labels and other arguments as long
as the value of the first is the same. -/
inductive Blurs : Node ρ → Node ρ → Prop
  | unchanged (node : Node ρ) : Blurs node node
  | emptied {node : Node ρ} (huntracked : node.Untracked) : Blurs node .empty
  | renamed {name name' : String} {params params' : List String} {body : Option ρ} :
      Blurs (.function name params body) (.function name' params' body)
  | recalled {callee : String} {args args' : List (Argument ρ)}
      (hfirst : args'.head?.bind (·.value) = args.head?.bind (·.value)) :
      Blurs (.call callee args) (.call callee args')

/-- The body of a function definition; other nodes have none. -/
def functionBody? : Node ρ → Option (Option ρ)
  | function _ _ body => some body
  | _ => none

theorem Blurs.functionBody?_eq {node node' : Node ρ} (h : node.Blurs node') :
    node'.functionBody? = node.functionBody? := by
  cases h with
  | unchanged => rfl
  | emptied huntracked =>
    cases node with
    | function _ _ _ => exact huntracked.elim
    | _ => rfl
  | renamed => rfl
  | recalled hfirst => rfl

end Node

namespace Script

/-- **A secluded part** of a script: it holds no top-level statement and no function, and a node
outside of it refers to a node in it only if it is a loop or a global declaration. -/
structure Secluded (script : Script) (part : Nat → Prop) : Prop where
  top : ∀ t ∈ script.top, ¬ part t
  function : ∀ {r : Nat}, part r → ∀ name params body,
    script.nodes[r]? ≠ some (.function name params body)
  entrance : ∀ {r : Nat} {node : Node Nat}, script.nodes[r]? = some node → ¬ part r →
    ∀ t ∈ node.refs, part t → node.Secludes

/-- Nothing at all is a secluded part. -/
theorem secluded_nothing (script : Script) : script.Secluded fun _ => False where
  top := fun _ _ => id
  function := False.elim
  entrance := fun _ _ _ _ => False.elim

theorem Secluded.refs_outside {script : Script} {part : Nat → Prop} (h : script.Secluded part)
    {r : Nat} {node : Node Nat} (hnode : script.nodes[r]? = some node) (hr : ¬ part r)
    (htracked : ¬ node.Untracked) : ∀ t ∈ node.refs, ¬ part t := by
  intro t ht hpart
  exact htracked (h.entrance hnode hr t ht hpart).untracked

theorem functionBody?_eq_none {script : Script} {r : Nat}
    (h : ∀ name params body, script.nodes[r]? ≠ some (.function name params body)) :
    script.nodes[r]?.bind Node.functionBody? = none := by
  cases hnode : script.nodes[r]? with
  | none => rfl
  | some node =>
    cases node with
    | function name params body => exact absurd hnode (h name params body)
    | _ => rfl

/-- The bodies of the functions of a script, by the positions where they stand. -/
theorem map_functions {script : Script} {n : Nat} (h : script.nodes.size ≤ n) :
    script.functions.map (·.2) =
      (List.range n).filterMap fun r => script.nodes[r]?.bind Node.functionBody? := by
  have htable : (List.range n).filterMap (script.nodes[·]?) = script.nodes.toList := by
    simpa using filterMap_range_getElem? script.nodes.toList h
  rw [functions, ← htable, List.map_filterMap, List.filterMap_filterMap]
  congr 1
  funext r
  cases script.nodes[r]? with
  | none => rfl
  | some node => cases node <;> rfl

/-- A script with a secluded part, and another in which the nodes outside of that part differ only
in what may be changed, and those in it are any nodes but functions. -/
structure BlursOutside (script other : Script) (part : Nat → Prop) : Prop where
  secluded : script.Secluded part
  function : ∀ {r : Nat}, part r → ∀ name params body,
    other.nodes[r]? ≠ some (.function name params body)
  top_eq : other.top = script.top
  blurs : ∀ r, ¬ part r → Option.Rel Node.Blurs script.nodes[r]? other.nodes[r]?

namespace BlursOutside

variable {script other : Script} {part : Nat → Prop} {p : Option Nat} {held : NameSet}

/-! ## The roles of a node -/

/-- Where the scripts differ only in what may be changed, both have a node or none has. -/
theorem cases (h : script.BlursOutside other part) {r : Nat} (hr : ¬ part r) :
    (script.nodes[r]? = none ∧ other.nodes[r]? = none) ∨
      ∃ node node', script.nodes[r]? = some node ∧ other.nodes[r]? = some node' ∧
        node.Blurs node' := by
  have hrel := h.blurs r hr
  generalize script.nodes[r]? = found at hrel ⊢
  generalize other.nodes[r]? = found' at hrel ⊢
  cases hrel with
  | none => exact Or.inl ⟨rfl, rfl⟩
  | some hblurs => exact Or.inr ⟨_, _, rfl, rfl, hblurs⟩

/-- The same of a part that may be missing. -/
theorem cases_of_part (h : script.BlursOutside other part) (hp : ∀ t ∈ p, ¬ part t) :
    (p.bind (script.nodes[·]?) = none ∧ p.bind (other.nodes[·]?) = none) ∨
      ∃ node node', p.bind (script.nodes[·]?) = some node ∧
        p.bind (other.nodes[·]?) = some node' ∧ node.Blurs node' := by
  cases p with
  | none => exact Or.inl ⟨rfl, rfl⟩
  | some t => exact h.cases (hp t rfl)

/-- A part in the role of a variable. -/
theorem lvalueName?_eq (h : script.BlursOutside other part) (hp : ∀ t ∈ p, ¬ part t) :
    other.lvalueName? p = script.lvalueName? p := by
  unfold lvalueName?
  rcases h.cases_of_part hp with ⟨hnone, hnone'⟩ | ⟨node, node', hnode, hnode', hblurs⟩
  · rw [hnone, hnone']
  rw [hnode, hnode']
  cases hblurs with
  | emptied huntracked =>
    cases node with
    | lvalue _ _ => exact huntracked.elim
    | _ => rfl
  | _ => rfl

/-- A part in the role of a target. -/
theorem targetName_eq (h : script.BlursOutside other part) (hp : ∀ t ∈ p, ¬ part t) :
    other.targetName p = script.targetName p := by
  unfold targetName
  rcases h.cases_of_part hp with ⟨hnone, hnone'⟩ | ⟨node, node', hnode, hnode', hblurs⟩
  · rw [hnone, hnone']
  rw [hnode, hnode']
  cases hblurs with
  | emptied huntracked =>
    cases node with
    | lvalue _ _ => exact huntracked.elim
    | identifier _ => exact huntracked.elim
    | _ => rfl
  | _ => rfl

/-- A part in the role of a value that is assigned. -/
theorem openedName?_eq (h : script.BlursOutside other part) {target value : Option Nat}
    (htarget : ∀ t ∈ target, ¬ part t) (hvalue : ∀ t ∈ value, ¬ part t) :
    other.openedName? target value = script.openedName? target value := by
  unfold openedName?
  rw [h.targetName_eq htarget]
  rcases h.cases_of_part hvalue with ⟨hnone, hnone'⟩ | ⟨node, node', hnode, hnode', hblurs⟩
  · rw [hnone, hnone']
  rw [hnode, hnode']
  cases hblurs with
  | emptied huntracked =>
    cases node with
    | call _ _ => exact huntracked.elim
    | _ => rfl
  | _ => rfl

theorem assign_eq (h : script.BlursOutside other part) {target value : Option Nat}
    (htarget : ∀ t ∈ target, ¬ part t) (hvalue : ∀ t ∈ value, ¬ part t) :
    other.assign target value held = script.assign target value held := by
  unfold assign
  rw [h.openedName?_eq htarget hvalue]

/-- A node in the role of an entry of a declaration. -/
theorem declare_eq (h : script.BlursOutside other part) {entry : Nat} (hentry : ¬ part entry) :
    other.declare held entry = script.declare held entry := by
  unfold declare
  rcases h.cases hentry with ⟨hnone, hnone'⟩ | ⟨node, node', hnode, hnode', hblurs⟩
  · rw [hnone, hnone']
  rw [hnode, hnode']
  cases hblurs with
  | unchanged =>
    cases node with
    | assignment target value =>
      have hrefs := h.secluded.refs_outside hnode hentry id
      refine h.assign_eq (fun t ht => hrefs t ?_) (fun t ht => hrefs t ?_)
      · exact List.mem_append_left _ (Option.mem_toList.mpr ht)
      · exact List.mem_append_right _ (Option.mem_toList.mpr ht)
    | _ => rfl
  | emptied huntracked =>
    cases node with
    | assignment _ _ => exact huntracked.elim
    | _ => rfl
  | _ => rfl

theorem foldl_declare_eq (h : script.BlursOutside other part) {entries : List Nat}
    (hentries : ∀ t ∈ entries, ¬ part t) :
    entries.foldl other.declare held = entries.foldl script.declare held := by
  induction entries generalizing held with
  | nil => rfl
  | cons entry rest ih =>
    rw [List.foldl_cons, List.foldl_cons, h.declare_eq (hentries entry List.mem_cons_self)]
    exact ih fun t ht => hentries t (List.mem_cons_of_mem _ ht)

/-- A part in the role of a handle that is closed or returned. -/
theorem release_eq (h : script.BlursOutside other part) (hp : ∀ t ∈ p, ¬ part t) :
    other.release p held = script.release p held := by
  unfold release
  rw [h.lvalueName?_eq hp]

/-- A part in the role of a condition. If it is a negation, its operand is in the role of a
variable. -/
theorem guard?_eq (h : script.BlursOutside other part) {cond : Option Nat}
    (hcond : ∀ t ∈ cond, ¬ part t) : other.guard? cond held = script.guard? cond held := by
  cases cond with
  | none => rfl
  | some r =>
    have hr : ¬ part r := hcond r rfl
    unfold guard?
    simp only [Option.bind_some]
    rcases h.cases hr with ⟨hnone, hnone'⟩ | ⟨node, node', hnode, hnode', hblurs⟩
    · rw [hnone, hnone']
    rw [hnode, hnode']
    cases hblurs with
    | unchanged =>
      cases node with
      | expression op lhs rhs =>
        cases op with
        | not =>
          have hrefs := h.secluded.refs_outside hnode hr fun huntracked => huntracked rfl
          refine congrArg (Option.filter (· ∈ held)) (h.lvalueName?_eq fun t ht => hrefs t ?_)
          exact List.mem_append_right _ (Option.mem_toList.mpr ht)
        | _ => rfl
      | _ => rfl
    | emptied huntracked =>
      cases node with
      | expression op lhs rhs =>
        cases op with
        | not => exact absurd rfl huntracked
        | _ => rfl
      | _ => rfl
    | _ => rfl

/-- A call, which is told apart by its name and by its first argument. -/
theorem callEffect_eq (h : script.BlursOutside other part) {callee : String}
    {args args' : List (Argument Nat)}
    (hfirst : args'.head?.bind (·.value) = args.head?.bind (·.value))
    (hargs : ∀ t ∈ args.head?.bind (·.value), ¬ part t) :
    other.callEffect callee args' held = script.callEffect callee args held := by
  unfold callEffect
  rw [hfirst, h.release_eq hargs]

/-! ## The walk of a node -/

/-- **The walk of a node** that is not in the secluded part, if the walks of such nodes to which it
refers are the same. -/
theorem walkNode_eq (h : script.BlursOutside other part) {inner inner' : Nat → NameSet → Walk}
    (hinner : ∀ t, ¬ part t → inner' t = inner t) {node node' : Node Nat}
    (hblurs : node.Blurs node') (hrefs : ¬ node.Untracked → ∀ t ∈ node.refs, ¬ part t) :
    other.walkNode inner' node' held = script.walkNode inner node held := by
  have hfirst : ∀ {callee : String} {args : List (Argument Nat)},
      (∀ t ∈ (Node.call callee args).refs, ¬ part t) →
        ∀ t ∈ args.head?.bind (·.value), ¬ part t := by
    intro callee args hargs t ht
    obtain ⟨arg, harg, hvalue⟩ := Option.bind_eq_some_iff.mp ht
    exact hargs t (List.mem_filterMap.mpr ⟨arg, List.mem_of_mem_head? harg, hvalue⟩)
  cases hblurs with
  | emptied huntracked =>
    cases node with
    | branch _ _ _ => exact huntracked.elim
    | block _ => exact huntracked.elim
    | assignment _ _ => exact huntracked.elim
    | locals _ => exact huntracked.elim
    | returns _ => exact huntracked.elim
    | breaks => exact huntracked.elim
    | continues => exact huntracked.elim
    | call _ _ => exact huntracked.elim
    | _ => rfl
  | renamed => rfl
  | recalled hargs => exact h.callEffect_eq hargs (hfirst (hrefs id))
  | unchanged =>
    cases node with
    | branch cond yes no =>
      have hrefs := hrefs id
      simp only [Node.refs, List.mem_append, Option.mem_toList] at hrefs
      have hcond : other.guard? cond held = script.guard? cond held :=
        h.guard?_eq fun t ht => hrefs t (Or.inl (Or.inl ht))
      have hyes : Walk.optional inner' yes held = Walk.optional inner yes held :=
        Walk.optional_congr (fun t ht => hinner t (hrefs t (Or.inl (Or.inr ht)))) held
      have hno : Walk.optional inner' no held = Walk.optional inner no held :=
        Walk.optional_congr (fun t ht => hinner t (hrefs t (Or.inr ht))) held
      rw [walkNode, walkNode, hcond, hyes, hno]
    | block body =>
      exact congrFun (Walk.sequence_congr fun t ht => hinner t (hrefs id t ht)) held
    | assignment target value =>
      have hrefs := hrefs id
      simp only [Node.refs, List.mem_append, Option.mem_toList] at hrefs
      refine congrArg Walk.still (h.assign_eq (fun t ht => hrefs t ?_) (fun t ht => hrefs t ?_))
      · exact Or.inl ht
      · exact Or.inr ht
    | locals entries => exact congrArg Walk.still (h.foldl_declare_eq (hrefs id))
    | returns value =>
      refine congrArg Walk.still (h.release_eq fun t ht => hrefs id t ?_)
      exact Option.mem_toList.mpr ht
    | call callee args => exact h.callEffect_eq rfl (hfirst (hrefs id))
    | _ => rfl

/-- **The walk of a statement** that is not in the secluded part is the same in both scripts. -/
theorem walk_eq (h : script.BlursOutside other part) {r : Nat} (hr : ¬ part r) :
    other.walk r = script.walk r := by
  -- references are followed back only, so the induction is on the position
  induction r using Nat.strongRecOn with
  | ind r ih =>
    funext held
    rw [walk, walk]
    rcases h.cases hr with ⟨hnone, hnone'⟩ | ⟨node, node', hnode, hnode', hblurs⟩
    · rw [hnone, hnone']
    · rw [hnode, hnode']
      refine h.walkNode_eq (fun t ht => ?_) hblurs (h.secluded.refs_outside hnode hr)
      funext held
      by_cases htr : t < r
      · rw [dif_pos htr, dif_pos htr, ih t htr ht]
      · rw [dif_neg htr, dif_neg htr]

/-! ## The bodies -/

/-- The body of the function at a position is the same, and there is a function in both scripts or
in none. -/
theorem functionBody?_eq (h : script.BlursOutside other part) (r : Nat) :
    other.nodes[r]?.bind Node.functionBody? = script.nodes[r]?.bind Node.functionBody? := by
  by_cases hr : part r
  · rw [functionBody?_eq_none (h.secluded.function hr), functionBody?_eq_none (h.function hr)]
  · rcases h.cases hr with ⟨hnone, hnone'⟩ | ⟨node, node', hnode, hnode', hblurs⟩
    · rw [hnone, hnone']
    · rw [hnode, hnode']
      exact hblurs.functionBody?_eq

/-- **The same bodies are walked.** -/
theorem bodies_eq (h : script.BlursOutside other part) : other.bodies = script.bodies := by
  have hle := Nat.le_max_left script.nodes.size other.nodes.size
  have hle' := Nat.le_max_right script.nodes.size other.nodes.size
  have hfunctions : other.functions.map (·.2) = script.functions.map (·.2) := by
    rw [map_functions hle, map_functions hle']
    exact congrArg (List.filterMap · _) (funext h.functionBody?_eq)
  have htoList : ∀ functions : List (String × Option Nat),
      functions.map (·.2.toList) = (functions.map (·.2)).map Option.toList := by simp
  rw [bodies, bodies, htoList, htoList, hfunctions, h.top_eq]

/-- No statement of a body is in the secluded part. -/
theorem outside_of_mem_bodies (h : script.BlursOutside other part) {body : List Nat}
    (hbody : body ∈ script.bodies) : ∀ t ∈ body, ¬ part t := by
  rcases List.mem_append.mp hbody with hbody | hbody
  · obtain ⟨⟨name, body⟩, hfunction, rfl⟩ := List.mem_map.mp hbody
    obtain ⟨r, params, hnode⟩ := exists_of_mem_functions hfunction
    have hr : ¬ part r := fun hr => h.secluded.function hr name params body hnode
    exact h.secluded.refs_outside hnode hr id
  · obtain rfl := List.mem_singleton.mp hbody
    exact h.secluded.top

theorem sequence_eq (h : script.BlursOutside other part) {body : List Nat}
    (hbody : body ∈ script.bodies) :
    Walk.sequence other.walk body = Walk.sequence script.walk body :=
  Walk.sequence_congr fun t ht => h.walk_eq (h.outside_of_mem_bodies hbody t ht)

/-- **The same is found** in both scripts. -/
theorem findings_eq (h : script.BlursOutside other part) : other.findings = script.findings := by
  have hflushes : other.audit.flushes = script.audit.flushes := by
    rw [flushes_audit, flushes_audit, h.bodies_eq]
    apply List.flatMap_congr
    intro body hbody
    rw [h.sequence_eq hbody]
  have hheld : other.audit.held = script.audit.held := by
    ext name
    rw [mem_held_audit, mem_held_audit, h.bodies_eq]
    constructor
    · rintro ⟨body, hbody, hname⟩
      exact ⟨body, hbody, h.sequence_eq hbody ▸ hname⟩
    · rintro ⟨body, hbody, hname⟩
      exact ⟨body, hbody, h.sequence_eq hbody ▸ hname⟩
  rw [findings, findings, hflushes, hheld]

end BlursOutside

/-! ## Audits -/

/-- **An audit does not see what a walk does not track.** Take two scripts with the same top-level
statements. If each node of the one is that of the other, or is empty in place of a node that no
walk looks into, or differs from it in the name and the parameters of a function or in the arguments
of a call after the first, then an audit does the same to every report. So it does if the scripts
agree but for a secluded part of the one, in which the other has no functions: code that is reached
only through loops and global declarations and that defines no function may be replaced by any
other. -/
theorem audit_is_blind_to_untracked_code {script other : Script}
    (htop : other.top = script.top) :
    ((∀ r : Nat, Option.Rel Node.Blurs script.nodes[r]? other.nodes[r]?) →
      ∀ (file file' : String) (report : Report) (facts : Facts),
        ((auditFile ⟨file', other⟩).run report facts).report =
          ((auditFile ⟨file, script⟩).run report facts).report) ∧
    ∀ part : Nat → Prop, script.Secluded part →
      (∀ r, part r → ∀ name params body,
        other.nodes[r]? ≠ some (.function name params body)) →
      (∀ r, ¬ part r → other.nodes[r]? = script.nodes[r]?) →
      ∀ (file file' : String) (report : Report) (facts : Facts),
        ((auditFile ⟨file', other⟩).run report facts).report =
          ((auditFile ⟨file, script⟩).run report facts).report := by
  have hreport : ∀ part : Nat → Prop, script.BlursOutside other part →
      ∀ (file file' : String) (report : Report) (facts : Facts),
        ((auditFile ⟨file', other⟩).run report facts).report =
          ((auditFile ⟨file, script⟩).run report facts).report := by
    intro part hblurs file file' report facts
    rw [report_auditFile, report_auditFile, hblurs.findings_eq]
  constructor
  · intro hnodes
    apply hreport fun _ => False
    exact ⟨script.secluded_nothing, False.elim, htop, fun r _ => hnodes r⟩
  · intro part hsecluded hfunction hnodes
    apply hreport part
    refine ⟨hsecluded, hfunction _, htop, fun r hr => ?_⟩
    rw [hnodes r hr]
    cases script.nodes[r]? with
    | none => exact .none
    | some node => exact .some (.unchanged node)

/-! ## A loop that closes a handle -/

/-- A handle is opened, and closed in a loop. -/
def loopSteps : List Step :=
  [.integer 22, .call "open_sock_tcp" [0], .assign "s" 1, .reference "s", .call "close" [3],
    .whileLoop 0 4]

/-- The script of these steps. -/
def loopScript : Script where
  nodes := #[.integer 22, .call "open_sock_tcp" [⟨none, some 0⟩], .lvalue "s" [],
    .assignment (some 2) (some 1), .lvalue "s" [], .call "close" [⟨none, some 4⟩],
    .whileLoop (some 0) (some 5)]
  top := [3, 6]

/-- The script without its loop and its number, and with a label and one more argument in the call
that opens the handle. -/
def emptiedScript : Script where
  nodes := #[.empty, .call "open_sock_tcp" [⟨some "port", some 0⟩, ⟨none, none⟩], .lvalue "s" [],
    .assignment (some 2) (some 1), .lvalue "s" [], .call "close" [⟨none, some 4⟩], .empty]
  top := [3, 6]

/-- The script with another body of the loop, which leaves the script. -/
def exitingScript : Script where
  nodes := #[.integer 22, .call "open_sock_tcp" [⟨none, some 0⟩], .lvalue "s" [],
    .assignment (some 2) (some 1), .call "exit" [], .block [4], .whileLoop (some 0) (some 5)]
  top := [3, 6]

/-- The body of the loop. -/
def loopBody (r : Nat) : Prop :=
  r = 4 ∨ r = 5

instance (r : Nat) : Decidable (loopBody r) :=
  inferInstanceAs (Decidable (r = 4 ∨ r = 5))

theorem secluded_loopBody : loopScript.Secluded loopBody where
  top := by simp [loopScript, loopBody]
  function := by
    intro r _ name params body hnode
    simpa [loopScript] using Array.mem_of_getElem? hnode
  entrance := by
    have hnodes : ∀ r < 7, ∀ node ∈ loopScript.nodes[r]?, ¬ loopBody r →
        ∀ t ∈ node.refs, loopBody t → node.Secludes := by decide
    intro r node hnode
    exact hnodes r (Array.getElem?_eq_some_iff.mp hnode).1 node hnode

theorem loopScript_blurs_emptiedScript (r : Nat) :
    Option.Rel Node.Blurs loopScript.nodes[r]? emptiedScript.nodes[r]? := by
  by_cases hlt : r < 7
  · interval_cases r
    · exact .some (.emptied trivial)
    · exact .some (.recalled rfl)
    · exact .some (.unchanged _)
    · exact .some (.unchanged _)
    · exact .some (.unchanged _)
    · exact .some (.unchanged _)
    · exact .some (.emptied trivial)
  · have hle : 7 ≤ r := Nat.le_of_not_lt hlt
    rw [Array.getElem?_eq_none hle, Array.getElem?_eq_none hle]
    exact .none

theorem loopScript_audit_is_blind :
    Script.build loopSteps [2, 5] = .ok loopScript ∧
      loopScript.findings.map NameSet.toList = [["s"]] ∧
      ((auditFile ⟨"emptied", emptiedScript⟩).run {} .none).report =
        ((auditFile ⟨"loop", loopScript⟩).run {} .none).report ∧
      ((auditFile ⟨"exiting", exitingScript⟩).run {} .none).report =
        ((auditFile ⟨"loop", loopScript⟩).run {} .none).report := by
  refine ⟨by rfl, by decide +kernel, ?_, ?_⟩
  · have htop : emptiedScript.top = loopScript.top := rfl
    exact (audit_is_blind_to_untracked_code htop).1 loopScript_blurs_emptiedScript _ _ _ _
  · have htop : exitingScript.top = loopScript.top := rfl
    refine (audit_is_blind_to_untracked_code htop).2 loopBody secluded_loopBody ?_ ?_ _ _ _ _
    · intro r _ name params body hnode
      simpa [exitingScript] using Array.mem_of_getElem? hnode
    · have hnodes : ∀ r < 7, ¬ loopBody r → exitingScript.nodes[r]? = loopScript.nodes[r]? := by
        decide
      intro r hr
      by_cases hlt : r < 7
      · exact hnodes r hlt hr
      · have hle : 7 ≤ r := Nat.le_of_not_lt hlt
        rw [Array.getElem?_eq_none hle, Array.getElem?_eq_none hle]

end Script

end ScriptLint
