import Mathlib.Data.List.Basic
import ScriptLint.Leak.Audit
import ScriptLint.Proofs.Script.Grounded

/-!
# The walk of a script is the walk of its unfolding

A script is a table whose nodes may be shared, and may stand anywhere as long as they refer to
earlier ones. The same text can be tabled in many ways. Here the table is unfolded into terms, in
which each part of a node is a term of its own, and the walk is defined once more by recursion on
terms. Both walks are shown equal at every node, from whatever is held, with all that is flushed and
noted on the way. So an audit depends only on the unfolded top level and on the unfolded function
bodies in table order; numbering, sharing and nodes that nothing refers to do not matter.

One node may at once be a statement, an argument, a target and a condition. The table is looked up
anew in each of these roles, so each role has its lemma; the recursion itself only meets the
branches of conditionals and the statements of blocks.

## Main definitions

* `Term`: a node whose parts are terms
* `Term.walk`, `Term.walkPart`, `Term.walkAll`: the walk of a term, of an optional part and of a list
* `Script.term`: the unfolding of a node of a script
* `Script.topTerms`, `Script.bodyTerms`: the unfolded top level and the unfolded function bodies
* `Term.findings`: the findings of an audit of terms

## Main results

* `Script.term_eq`: in a grounded script, a node unfolds to itself with its parts unfolded
* `Script.walk_term`: the walk of a node is the walk of its unfolding
* `Script.findings_eq`: the findings of a script are those of its unfolded parts
* `report_auditFile`: what an audit adds to a report
* `Script.audit_depends_only_on_terms`: scripts with the same unfolded parts have the same report
-/

namespace ScriptLint

/-! ## Terms -/

/-- A node whose parts are terms. -/
inductive Term where
  /-- The term of a node. -/
  | of (node : Node Term)

namespace Term

/-- The name of a variable reference, indexed or not. -/
def lvalueName? : Option Term → Option String
  | some (of (.lvalue name _)) => some name
  | _ => none

/-- The name that the target of an assignment gives to a handle. -/
def targetName : Option Term → String
  | some (of (.lvalue name _)) => name
  | some (of (.identifier name)) => name
  | _ => unassigned

/-- What is held after an assignment: one more name if the value is an opening call and the target
is not a shared variable. -/
def assign (target value : Option Term) (held : NameSet) : NameSet :=
  match value with
  | some (of (.call callee _)) =>
    if callee ∈ openers ∧ targetName target ∉ sharedVariables then held.insert (targetName target)
    else held
  | _ => held

/-- What is held after one entry of a declaration. -/
def declare (held : NameSet) : Term → NameSet
  | of (.assignment target value) => assign target value held
  | _ => held

/-- What is held once a part is closed or handed on. -/
def release (part : Option Term) (held : NameSet) : NameSet :=
  match lvalueName? part with
  | some name => held.erase name
  | none => held

/-- The held variable whose failure a condition tests. -/
def guard? (cond : Option Term) (held : NameSet) : Option String :=
  match cond with
  | some (of (.expression .not _ rhs)) => (lvalueName? rhs).filter (· ∈ held)
  | _ => none

/-- The walk of a call. -/
def walkCall (callee : String) (args : List (Argument Term)) (held : NameSet) : Walk :=
  if callee ∈ exits then .flush held
  else if callee ∈ openers then .still (held.insert unassigned)
  else if callee ∈ closers then .still (release (args.head?.bind (·.value)) held)
  else if callee ∈ managers then { held, notes := [.ignored callee] }
  else .still held

mutual

/-- The walk of a term. -/
def walk : Term → NameSet → Walk
  | of (.branch cond yes no), held =>
    match guard? cond held with
    | some name => { held, notes := [.guarded name] }
    | none => (walkPart yes held).merge (walkPart no held)
  | of (.block body), held => walkAll body held
  | of (.assignment target value), held => .still (assign target value held)
  | of (.locals entries), held => .still (entries.foldl declare held)
  | of (.returns value), held => .still (release value held)
  | of .breaks, held => .flush held
  | of .continues, held => .flush held
  | of (.call callee args), held => walkCall callee args held
  | of _, held => .still held

/-- The walk of an optional part. -/
def walkPart : Option Term → NameSet → Walk
  | none, held => .still held
  | some term, held => walk term held

/-- The walks of terms, one after the other. -/
def walkAll : List Term → NameSet → Walk
  | [], held => .still held
  | term :: rest, held => (walk term held).andThen (walkAll rest)

end

end Term

/-! ## Unfolding -/

/-- A node with its references replaced depends only on what they are replaced by. -/
theorem Node.map_congr {ρ σ : Type} {f g : ρ → σ} {node : Node ρ}
    (h : ∀ t ∈ node.refs, f t = g t) : node.map f = node.map g := by
  cases node with
  | lvalue name indexes =>
    refine congrArg (lvalue name) (List.map_congr_left fun index hindex => ?_)
    refine Option.map_congr fun t ht => h t ?_
    exact List.mem_filterMap.mpr ⟨index, hindex, ht⟩
  | call callee args =>
    refine congrArg (call callee) (List.map_congr_left fun arg harg => ?_)
    refine congrArg (Argument.mk arg.label) (Option.map_congr fun t ht => h t ?_)
    exact List.mem_filterMap.mpr ⟨arg, harg, ht⟩
  | locals entries => exact congrArg locals (List.map_congr_left h)
  | globals entries => exact congrArg globals (List.map_congr_left h)
  | block body => exact congrArg block (List.map_congr_left h)
  | _ =>
    -- what is left has only optional parts
    simp only [map]
    all_goals congr 1
    all_goals exact Option.map_congr fun t ht => h t (by simp [refs, Option.mem_def.mp ht])

namespace Script

/-- The unfolding of the node at a position: shared nodes are copied. A reference that is not to an
earlier node, of which a grounded script has none, unfolds to an empty statement. -/
def term (script : Script) (r : Nat) : Term :=
  match script.nodes[r]? with
  | some node => .of (node.map fun t => if _h : t < r then term script t else .of .empty)
  | none => .of .empty
termination_by r

variable {script : Script}

/-- **A node unfolds to itself with its parts unfolded**, in a grounded script. -/
theorem term_eq (hgrounded : script.Grounded) {r : Nat} {node : Node Nat}
    (hnode : script.nodes[r]? = some node) : script.term r = .of (node.map script.term) := by
  rw [term, hnode]
  refine congrArg Term.of (Node.map_congr fun t ht => ?_)
  exact dif_pos (hgrounded.refs_lt hnode t ht)

theorem term_of_none {r : Nat} (hnone : script.nodes[r]? = none) :
    script.term r = .of .empty := by
  rw [term, hnone]

/-! ## The roles of a node -/

/-- Looking up a part in the table or in its unfolding comes to the same: there is nothing, or an
empty statement in its place, or a node whose parts are unfolded. -/
theorem look_cases (hgrounded : script.Grounded) (part : Option Nat) :
    (part.bind (script.nodes[·]?) = none ∧
      (part.map script.term = none ∨ part.map script.term = some (.of .empty))) ∨
    ∃ node, part.bind (script.nodes[·]?) = some node ∧
      part.map script.term = some (.of (node.map script.term)) := by
  cases part with
  | none => exact Or.inl ⟨rfl, Or.inl rfl⟩
  | some t =>
    simp only [Option.bind_some, Option.map_some]
    cases hnode : script.nodes[t]? with
    | none => exact Or.inl ⟨rfl, Or.inr (by rw [term_of_none hnode])⟩
    | some node => exact Or.inr ⟨node, rfl, by rw [term_eq hgrounded hnode]⟩

/-- A part in the role of a variable. -/
theorem lvalueName?_term (hgrounded : script.Grounded) (part : Option Nat) :
    script.lvalueName? part = Term.lvalueName? (part.map script.term) := by
  unfold lvalueName?
  rcases look_cases hgrounded part with ⟨hnone, hterm | hterm⟩ | ⟨node, hnode, hterm⟩
  · rw [hnone, hterm]
    rfl
  · rw [hnone, hterm]
    rfl
  · rw [hnode, hterm]
    cases node <;> rfl

/-- A part in the role of a target. -/
theorem targetName_term (hgrounded : script.Grounded) (part : Option Nat) :
    script.targetName part = Term.targetName (part.map script.term) := by
  unfold targetName
  rcases look_cases hgrounded part with ⟨hnone, hterm | hterm⟩ | ⟨node, hnode, hterm⟩
  · rw [hnone, hterm]
    rfl
  · rw [hnone, hterm]
    rfl
  · rw [hnode, hterm]
    cases node <;> rfl

/-- Two parts in the roles of the target and the value of an assignment. -/
theorem assign_term (hgrounded : script.Grounded) (target value : Option Nat) (held : NameSet) :
    script.assign target value held =
      Term.assign (target.map script.term) (value.map script.term) held := by
  unfold assign openedName? Term.assign
  rw [targetName_term hgrounded target]
  rcases look_cases hgrounded value with ⟨hnone, hterm | hterm⟩ | ⟨node, hnode, hterm⟩
  · rw [hnone, hterm]
  · rw [hnone, hterm]
  · rw [hnode, hterm]
    cases node with
    | call callee args =>
      simp only [Node.map]
      by_cases hopens : callee ∈ openers ∧
          Term.targetName (target.map script.term) ∉ sharedVariables
      · rw [if_pos hopens, if_pos hopens]
      · rw [if_neg hopens, if_neg hopens]
    | _ => rfl

/-- A node in the role of an entry of a declaration. -/
theorem declare_term (hgrounded : script.Grounded) (held : NameSet) (entry : Nat) :
    script.declare held entry = Term.declare held (script.term entry) := by
  unfold declare
  cases hnode : script.nodes[entry]? with
  | none =>
    rw [term_of_none hnode]
    rfl
  | some node =>
    rw [term_eq hgrounded hnode]
    cases node with
    | assignment target value => exact assign_term hgrounded target value held
    | _ => rfl

theorem foldl_declare_term (hgrounded : script.Grounded) (entries : List Nat) (held : NameSet) :
    entries.foldl script.declare held = (entries.map script.term).foldl Term.declare held := by
  rw [List.foldl_map]
  congr 1
  funext held entry
  exact declare_term hgrounded held entry

/-- A part in the role of a handle that is closed or returned. -/
theorem release_term (hgrounded : script.Grounded) (part : Option Nat) (held : NameSet) :
    script.release part held = Term.release (part.map script.term) held := by
  unfold release Term.release
  rewrite [lvalueName?_term hgrounded part]
  rfl

/-- A part in the role of a condition. -/
theorem guard?_term (hgrounded : script.Grounded) (cond : Option Nat) (held : NameSet) :
    script.guard? cond held = Term.guard? (cond.map script.term) held := by
  unfold guard?
  rcases look_cases hgrounded cond with ⟨hnone, hterm | hterm⟩ | ⟨node, hnode, hterm⟩
  · rw [hnone, hterm]
    rfl
  · rw [hnone, hterm]
    rfl
  · rw [hnode, hterm]
    cases node with
    | expression op lhs rhs =>
      cases op with
      | not => exact congrArg (Option.filter (· ∈ held)) (lvalueName?_term hgrounded rhs)
      | _ => rfl
    | _ => rfl

theorem callEffect_term (hgrounded : script.Grounded) (callee : String)
    (args : List (Argument Nat)) (held : NameSet) :
    script.callEffect callee args held = Term.walkCall callee
      (args.map fun arg => ⟨arg.label, arg.value.map script.term⟩) held := by
  have hfirst : (args.map fun arg => (⟨arg.label, arg.value.map script.term⟩ :
      Argument Term)).head?.bind (·.value) = (args.head?.bind (·.value)).map script.term := by
    cases args with
    | nil => rfl
    | cons arg rest => rfl
  unfold callEffect Term.walkCall
  rw [release_term hgrounded, hfirst]

/-! ## The walk of a node -/

theorem optional_term (part : Option Nat)
    (h : ∀ t, part = some t → ∀ held, script.walk t held = (script.term t).walk held)
    (held : NameSet) :
    Walk.optional script.walk part held = Term.walkPart (part.map script.term) held := by
  cases part with
  | none => rfl
  | some t => exact h t rfl held

theorem sequence_term {body : List Nat}
    (h : ∀ t ∈ body, ∀ held, script.walk t held = (script.term t).walk held) (held : NameSet) :
    Walk.sequence script.walk body held = Term.walkAll (body.map script.term) held := by
  induction body generalizing held with
  | nil => rfl
  | cons r rest ih =>
    have hrest : Walk.sequence script.walk rest = Term.walkAll (rest.map script.term) :=
      funext (ih fun t ht => h t (List.mem_cons_of_mem _ ht))
    rw [Walk.sequence, h r List.mem_cons_self, hrest]
    rfl

/-- **The walk of a node is the walk of its unfolding**, in a grounded script. -/
theorem walk_term (hgrounded : script.Grounded) (r : Nat) (held : NameSet) :
    script.walk r held = (script.term r).walk held := by
  -- references go back, so the induction is on the position; what is held differs between branches
  induction r using Nat.strongRecOn generalizing held with
  | ind r ih =>
    cases hnode : script.nodes[r]? with
    | none =>
      rw [walk, hnode, term_of_none hnode]
      rfl
    | some node =>
      have hpart : ∀ t ∈ node.refs, ∀ held, script.walk t held = (script.term t).walk held :=
        fun t ht => ih t (hgrounded.refs_lt hnode t ht)
      rw [walk_eq hgrounded hnode, term_eq hgrounded hnode]
      -- only branches and blocks are walked into; the other nodes are met in their roles
      cases node with
      | branch cond yes no =>
        have hyes := optional_term yes fun t ht => hpart t (by simp [Node.refs, ht])
        have hno := optional_term no fun t ht => hpart t (by simp [Node.refs, ht])
        rw [walkNode, guard?_term hgrounded cond, hyes, hno]
        rfl
      | block body => exact sequence_term hpart held
      | assignment target value =>
        exact congrArg Walk.still (assign_term hgrounded target value held)
      | locals entries => exact congrArg Walk.still (foldl_declare_term hgrounded entries held)
      | returns value => exact congrArg Walk.still (release_term hgrounded value held)
      | call callee args => exact callEffect_term hgrounded callee args held
      | _ => rfl

end Script

/-! ## Audits -/

/-- The walks of function bodies, each from nothing held, and then of the top level. -/
def Term.walks (bodies : List (Option Term)) (top : List Term) : List Walk :=
  bodies.map (Term.walkPart · ∅) ++ [Term.walkAll top ∅]

/-- The sets of names to warn of in an audit of function bodies and of a top level. -/
def Term.findings (bodies : List (Option Term)) (top : List Term) : List NameSet :=
  let walks := Term.walks bodies top
  (walks.flatMap (·.flushes) ++ [(walks.map (·.held)).foldl (· ∪ ·) ∅]).filter (!·.isEmpty)

namespace Walk

theorem held_foldl_merge (walks : List Walk) (first : Walk) :
    (walks.foldl merge first).held = (walks.map (·.held)).foldl (· ∪ ·) first.held := by
  induction walks generalizing first with
  | nil => rfl
  | cons walk rest ih => exact ih (first.merge walk)

theorem flushes_foldl_merge (walks : List Walk) (first : Walk) :
    (walks.foldl merge first).flushes = first.flushes ++ walks.flatMap (·.flushes) := by
  induction walks generalizing first with
  | nil => simp
  | cons walk rest ih =>
    rw [List.foldl_cons, ih, List.flatMap_cons, ← List.append_assoc]
    rfl

end Walk

namespace Script

/-- The unfolded top-level statements. -/
def topTerms (script : Script) : List Term :=
  script.top.map script.term

/-- The unfolded bodies of all functions, in table order. -/
def bodyTerms (script : Script) : List (Option Term) :=
  script.functions.map fun (_, body) => body.map script.term

variable {script : Script}

/-- The walk of a function holds and flushes what the walk of its unfolded body does. -/
theorem functionWalk_term (hgrounded : script.Grounded) (name : String) (body : Option Nat) :
    (script.functionWalk name body).held = (Term.walkPart (body.map script.term) ∅).held ∧
      (script.functionWalk name body).flushes =
        (Term.walkPart (body.map script.term) ∅).flushes := by
  rw [← optional_term body fun t _ => walk_term hgrounded t]
  -- the two cases differ in a note only
  unfold functionWalk
  dsimp only
  split
  · exact ⟨rfl, rfl⟩
  · exact ⟨rfl, rfl⟩

theorem topWalk_term (hgrounded : script.Grounded) :
    script.topWalk = Term.walkAll script.topTerms ∅ :=
  sequence_term (fun t _ => walk_term hgrounded t) ∅

/-- Whatever is read off what each walk holds and flushes is the same for a script and for its
unfolded parts. -/
theorem map_walks_term (hgrounded : script.Grounded) {β : Type} (read : Walk → β)
    (hread : ∀ walk other : Walk, walk.held = other.held → walk.flushes = other.flushes →
      read walk = read other) :
    script.walks.map read = (Term.walks script.bodyTerms script.topTerms).map read := by
  unfold walks Term.walks bodyTerms
  simp only [List.map_append, List.map_map, List.map_cons, List.map_nil, topWalk_term hgrounded]
  congr 1
  refine List.map_congr_left fun function _ => ?_
  obtain ⟨hheld, hflushes⟩ := functionWalk_term hgrounded function.1 function.2
  exact hread _ _ hheld hflushes

/-- **The findings of a script are those of its unfolded parts.** -/
theorem findings_eq (hgrounded : script.Grounded) :
    script.findings = Term.findings script.bodyTerms script.topTerms := by
  have hheld := map_walks_term hgrounded (·.held) fun _ _ h _ => h
  have hflushes := map_walks_term hgrounded (·.flushes) fun _ _ _ h => h
  unfold findings audit Term.findings
  rw [Walk.held_foldl_merge, Walk.flushes_foldl_merge, hheld, List.flatMap_def, hflushes,
    ← List.flatMap_def]
  rfl

end Script

/-! ## Reports -/

/-- A report with the warning of a set of names. -/
def Report.warnOf (report : Report) (names : NameSet) : Report :=
  (report.conclude .warn).add ⟨.warn, leakWarning names⟩

namespace Body

variable {β γ : Type}

theorem report_bind (body : Body β) (next : β → Body γ) (report : Report) (facts : Facts) :
    ((body >>= next).run report facts).report =
      ((next (body.run report facts).result).run (body.run report facts).report
        (body.run report facts).facts).report := by
  rw [run_bind]

/-- What a body does to the report, done for each member of a list in turn. -/
theorem report_forM {body : β → Body Unit} {change : Report → β → Report}
    (h : ∀ value report facts, ((body value).run report facts).report = change report value)
    (values : List β) (report : Report) (facts : Facts) :
    ((values.forM body).run report facts).report = values.foldl change report := by
  induction values generalizing report facts with
  | nil => rfl
  | cons value rest ih =>
    change ((body value >>= fun _ => rest.forM body).run report facts).report = _
    rw [report_bind, ih, h, List.foldl_cons]

/-- Notes leave the report as it is. -/
theorem report_notes (events : List Event) (report : Report) (facts : Facts) :
    ((events.forM note).run report facts).report = report := by
  have hnote : ∀ (event : Event) (report : Report) (facts : Facts),
      ((note event).run report facts).report = report := fun _ _ _ => rfl
  rw [report_forM hnote, List.foldl_fixed]

end Body

/-- **What an audit adds to a report**: a warning of each finding, in order. -/
theorem report_auditFile (file : File) (report : Report) (facts : Facts) :
    ((auditFile file).run report facts).report =
      file.script.findings.foldl Report.warnOf report := by
  have hwarn : ∀ (names : NameSet) (report : Report) (facts : Facts),
      ((warnOf names).run report facts).report = report.warnOf names := fun _ _ _ => rfl
  unfold auditFile
  rw [Body.report_bind, Body.report_bind, Body.report_notes, Body.report_forM hwarn]
  rfl

/-- **An audit depends only on what the table stands for.** In every script that is put together,
each node unfolds to itself with its parts unfolded, and the walk of the node, from whatever is held,
is the walk of the unfolding: what is held in the end, and all that is flushed and noted on the way.
So two scripts with the same unfolded top level and the same unfolded function bodies in table order
change the report of an audit in the same way. -/
theorem Script.audit_depends_only_on_terms {steps : List Step} {top : List Nat} {script : Script}
    (h : Script.build steps top = .ok script) :
    (∀ r node, script.nodes[r]? = some node → script.term r = .of (node.map script.term)) ∧
    (∀ r held, script.walk r held = (script.term r).walk held) ∧
    ∀ (steps' : List Step) (top' : List Nat) (other : Script),
      Script.build steps' top' = .ok other → other.topTerms = script.topTerms →
      other.bodyTerms = script.bodyTerms →
      ∀ (name name' : String) (report : Report) (facts : Facts),
        ((auditFile ⟨name', other⟩).run report facts).report =
          ((auditFile ⟨name, script⟩).run report facts).report := by
  have hgrounded := grounded_of_build h
  refine ⟨fun r node hnode => term_eq hgrounded hnode, walk_term hgrounded, ?_⟩
  intro steps' top' other hother htop hbodies name name' report facts
  have hfindings : other.findings = script.findings := by
    rw [findings_eq (grounded_of_build hother), findings_eq hgrounded, htop, hbodies]
  rw [report_auditFile, report_auditFile, hfindings]

/-- A text in which one variable node is argument, operand and handle at once, and one call is both a
branch and a statement. -/
def sharedSteps : List Step :=
  [.call "open_sock_tcp" [], .assign "s" 0, .reference "s", .negation 2, .call "close" [2],
    .branch 3 4 none, .function "f" [] [1, 5, 4]]

/-- The same text with a copy of the variable, other positions, another function name and a node
that nothing refers to. -/
def copiedSteps : List Step :=
  [.text "unused", .call "open_sock_tcp" [], .assign "s" 1, .reference "s", .negation 3,
    .reference "s", .call "close" [5], .branch 4 6 none, .function "g" [] [2, 7, 6]]

theorem Script.audit_sharedSteps_eq_copiedSteps :
    ∃ script other : Script, Script.build sharedSteps [1, 4] = .ok script ∧
      Script.build copiedSteps [2, 6] = .ok other ∧ other.topTerms = script.topTerms ∧
      other.bodyTerms = script.bodyTerms ∧ other ≠ script ∧
      ((auditFile ⟨"copied", other⟩).run {} .none).report =
        ((auditFile ⟨"shared", script⟩).run {} .none).report := by
  refine ⟨_, _, rfl, rfl, by cbv, by cbv, by decide, ?_⟩
  have hshared : Script.build sharedSteps [1, 4] = .ok _ := rfl
  exact (Script.audit_depends_only_on_terms hshared).2.2 copiedSteps [2, 6] _ rfl (by cbv) (by cbv)
    _ _ _ _

end ScriptLint
