import ScriptLint.Leak.Audit
import ScriptLint.Proofs.Script.Growth

/-!
# Walks that check every step

The walk of a script is total by convention: a position that is not in the table reads as nothing,
and references are followed to earlier positions only. Here the walk is defined once more without
these conventions. Each look-up must find a node, and a statement is walked whatever its position is;
what ends the walk is a bound on how deeply statements are nested. Where a look-up fails or the bound
is met, the strict walk stops with a fault.

In a script that is put together there is no fault. References go back, so every position that the
walk looks up is in the table, and a statement cannot be nested more deeply than its position says.
So both walks agree, and the conventions are never used.

## Main definitions

* `Fault`: why a strict walk stops
* `Script.look`, `Script.lookPart`: a look-up that must find a node
* `Script.strictWalk`: the walk of a statement, with a bound on the depth
* `Script.strictFunctions`, `Script.strictAudit`: the functions and the audit of a script

## Main results

* `Script.strictAssign_eq`, `Script.strictGuard_eq`, …: each part of the walk agrees on parts that are
  in the table
* `Script.strictWalk_eq`: the strict walk has no fault in a grounded script
* `Script.strictAudit_eq`: neither has the audit
* `Script.built_script_has_no_faults`: how a script is put together, and that nothing goes wrong in it
-/

namespace ScriptLint

/-- Why a strict walk stops. -/
inductive Fault where
  /-- A position is looked up that is not in the table. -/
  | dangling (position : Nat)
  /-- Statements are nested more deeply than the bound allows. -/
  | depth
deriving DecidableEq

namespace Script

section Definitions

variable (script : Script)

/-- The node at a position, which must be in the table. -/
def look (r : Nat) : Except Fault (Node Nat) :=
  match script.nodes[r]? with
  | some node => .ok node
  | none => .error (.dangling r)

/-- The node of an optional part. An absent part is not looked up. -/
def lookPart : Option Nat → Except Fault (Option (Node Nat))
  | none => .ok none
  | some r => some <$> script.look r

/-- The name of the variable that a part refers to. -/
def strictLvalueName (part : Option Nat) : Except Fault (Option String) := do
  match ← script.lookPart part with
  | some (.lvalue name _) => return some name
  | _ => return none

/-- The name that the target of an assignment gives to a handle. -/
def strictTargetName (target : Option Nat) : Except Fault String := do
  match ← script.lookPart target with
  | some (.lvalue name _) | some (.identifier name) => return name
  | _ => return unassigned

/-- What is held after an assignment. The target is looked up only if the value is an opening
call. -/
def strictAssign (target value : Option Nat) (held : NameSet) : Except Fault NameSet := do
  match ← script.lookPart value with
  | some (.call callee _) =>
    if callee ∈ openers then
      let name ← script.strictTargetName target
      return if name ∈ sharedVariables then held else held.insert name
    else return held
  | _ => return held

/-- What is held after one entry of a declaration. -/
def strictDeclare (held : NameSet) (entry : Nat) : Except Fault NameSet := do
  match ← script.look entry with
  | .assignment target value => script.strictAssign target value held
  | _ => return held

/-- What is held once a part is closed or handed on. -/
def strictRelease (part : Option Nat) (held : NameSet) : Except Fault NameSet := do
  match ← script.strictLvalueName part with
  | some name => return held.erase name
  | none => return held

/-- The held variable whose failure a condition tests. -/
def strictGuard (cond : Option Nat) (held : NameSet) : Except Fault (Option String) := do
  match ← script.lookPart cond with
  | some (.expression .not _ rhs) => return (← script.strictLvalueName rhs).filter (· ∈ held)
  | _ => return none

/-- The walk of a call. -/
def strictCall (callee : String) (args : List (Argument Nat)) (held : NameSet) :
    Except Fault Walk := do
  if callee ∈ exits then return .flush held
  else if callee ∈ openers then return .still (held.insert unassigned)
  else if callee ∈ closers then
    return .still (← script.strictRelease (args.head?.bind (·.value)) held)
  else if callee ∈ managers then return { held, notes := [.ignored callee] }
  else return .still held

/-- The walk of a statement that contains no others. -/
def strictEffect (node : Node Nat) (held : NameSet) : Except Fault Walk := do
  match node with
  | .assignment target value => return .still (← script.strictAssign target value held)
  | .locals entries => return .still (← entries.foldlM script.strictDeclare held)
  | .returns value => return .still (← script.strictRelease value held)
  | .breaks | .continues => return .flush held
  | .call callee args => script.strictCall callee args held
  | _ => return .still held

/-- The walk of an optional part. -/
def strictOptional (walk : Nat → NameSet → Except Fault Walk) (part : Option Nat)
    (held : NameSet) : Except Fault Walk :=
  match part with
  | some r => walk r held
  | none => .ok (.still held)

/-- The walks of a list of statements, one after the other. -/
def strictSequence (walk : Nat → NameSet → Except Fault Walk) :
    List Nat → NameSet → Except Fault Walk
  | [], held => .ok (.still held)
  | r :: rest, held => do
    let first ← walk r held
    let second ← strictSequence walk rest first.held
    return first.andThen fun _ => second

/-- The walk of the statement at a position, where statements are nested at most so deeply. -/
def strictWalk : Nat → Nat → NameSet → Except Fault Walk
  | 0, _, _ => .error .depth
  | depth + 1, r, held => do
    match ← script.look r with
    | .branch cond yes no =>
      match ← script.strictGuard cond held with
      | some name => return { held, notes := [.guarded name] }
      | none =>
        let first ← strictOptional (strictWalk depth) yes held
        let second ← strictOptional (strictWalk depth) no held
        return first.merge second
    | .block body => strictSequence (strictWalk depth) body held
    | node => script.strictEffect node held

/-- The name and body of each function definition, by the positions where these stand. -/
def strictFunctions : Except Fault (List (String × Option Nat)) := do
  let nodes ← (script.positions .function).mapM script.look
  return nodes.filterMap fun
    | .function name _ body => some (name, body)
    | _ => none

/-- The walk of the body of a function, from nothing held. -/
def strictFunctionWalk (depth : Nat) (name : String) (body : Option Nat) :
    Except Fault Walk := do
  let walk ← strictOptional (script.strictWalk depth) body ∅
  return if walk.held.isEmpty then walk
    else { walk with notes := walk.notes ++ [.leaking name walk.held] }

/-- The walks of all functions and of the top level, side by side. -/
def strictAudit (depth : Nat) : Except Fault Walk := do
  let functions ← script.strictFunctions
  let walks ← functions.mapM fun function => script.strictFunctionWalk depth function.1 function.2
  let top ← strictSequence (script.strictWalk depth) script.top ∅
  return (walks ++ [top]).foldl Walk.merge (.still ∅)

end Definitions

/-! ## Parts that are in the table -/

variable {script : Script}

theorem look_eq {r : Nat} {node : Node Nat} (h : script.nodes[r]? = some node) :
    script.look r = .ok node := by
  rw [look, h]

theorem lookPart_eq {part : Option Nat} (h : ∀ t ∈ part, t < script.nodes.size) :
    script.lookPart part = .ok (part.bind (script.nodes[·]?)) := by
  cases part with
  | none => rfl
  | some r =>
    have hnode := Array.getElem?_eq_getElem (h r rfl)
    rw [lookPart, look_eq hnode, Option.bind_some, hnode]
    rfl

theorem strictLvalueName_eq {part : Option Nat} (h : ∀ t ∈ part, t < script.nodes.size) :
    script.strictLvalueName part = .ok (script.lvalueName? part) := by
  rw [strictLvalueName, lookPart_eq h, lvalueName?]
  cases part.bind (script.nodes[·]?) with
  | none => rfl
  | some node => cases node <;> rfl

theorem strictTargetName_eq {target : Option Nat} (h : ∀ t ∈ target, t < script.nodes.size) :
    script.strictTargetName target = .ok (script.targetName target) := by
  rw [strictTargetName, lookPart_eq h, targetName]
  cases target.bind (script.nodes[·]?) with
  | none => rfl
  | some node => cases node <;> rfl

theorem strictAssign_eq {target value : Option Nat} (htarget : ∀ t ∈ target, t < script.nodes.size)
    (hvalue : ∀ t ∈ value, t < script.nodes.size) (held : NameSet) :
    script.strictAssign target value held = .ok (script.assign target value held) := by
  rw [strictAssign, lookPart_eq hvalue, assign, openedName?]
  cases value.bind (script.nodes[·]?) with
  | none => rfl
  | some node =>
    cases node with
    | call callee args =>
      change (if callee ∈ openers then _ else _) = _
      -- the target is looked up only after an opening call
      by_cases hopens : callee ∈ openers
      · rw [if_pos hopens, strictTargetName_eq htarget]
        change Except.ok (if script.targetName target ∈ sharedVariables then _ else _) = _
        by_cases hshared : script.targetName target ∈ sharedVariables
        · simp [hshared]
        · simp [hopens, hshared]
      · simp [hopens, pure, Except.pure]
    | _ => rfl

theorem strictRelease_eq {part : Option Nat} (h : ∀ t ∈ part, t < script.nodes.size)
    (held : NameSet) : script.strictRelease part held = .ok (script.release part held) := by
  rw [strictRelease, strictLvalueName_eq h, release]
  cases script.lvalueName? part with
  | none => rfl
  | some name => rfl

/-- The parts of a node of a grounded script are in the table. -/
theorem Grounded.refs_lt_size (hgrounded : script.Grounded) {r : Nat} {node : Node Nat}
    (hnode : script.nodes[r]? = some node) : ∀ t ∈ node.refs, t < script.nodes.size := by
  intro t ht
  obtain ⟨hr, -⟩ := Array.getElem?_eq_some_iff.mp hnode
  exact Nat.lt_trans (hgrounded.refs_lt hnode t ht) hr

theorem strictGuard_eq (hgrounded : script.Grounded) {cond : Option Nat}
    (h : ∀ t ∈ cond, t < script.nodes.size) (held : NameSet) :
    script.strictGuard cond held = .ok (script.guard? cond held) := by
  rw [strictGuard, lookPart_eq h, guard?]
  cases hnode : cond.bind (script.nodes[·]?) with
  | none => rfl
  | some node =>
    cases node with
    | expression op lhs rhs =>
      cases op with
      | not =>
        -- the operand is a part of a node of the table, so it can be looked up as well
        obtain ⟨r, -, hr⟩ := Option.bind_eq_some_iff.mp hnode
        have hrhs : ∀ t ∈ rhs, t < script.nodes.size := by
          intro t ht
          exact hgrounded.refs_lt_size hr t (by simp [Node.refs, Option.mem_def.mp ht])
        change (script.strictLvalueName rhs >>= fun name => _) = _
        rw [strictLvalueName_eq hrhs]
        rfl
      | _ => rfl
    | _ => rfl

/-- The parts of an assignment that stands in the table are in it as well. -/
theorem strictAssign_eq_of_getElem? (hgrounded : script.Grounded) {r : Nat}
    {target value : Option Nat} (hnode : script.nodes[r]? = some (.assignment target value))
    (held : NameSet) :
    script.strictAssign target value held = .ok (script.assign target value held) := by
  have hparts := hgrounded.refs_lt_size hnode
  apply strictAssign_eq
  · intro t ht
    exact hparts t (by simp [Node.refs, Option.mem_def.mp ht])
  · intro t ht
    exact hparts t (by simp [Node.refs, Option.mem_def.mp ht])

theorem strictDeclare_eq (hgrounded : script.Grounded) {entry : Nat}
    (h : entry < script.nodes.size) (held : NameSet) :
    script.strictDeclare held entry = .ok (script.declare held entry) := by
  have hnode := Array.getElem?_eq_getElem h
  rw [strictDeclare, look_eq hnode, declare, hnode]
  cases hentry : script.nodes[entry] with
  | assignment target value =>
    rw [hentry] at hnode
    exact strictAssign_eq_of_getElem? hgrounded hnode held
  | _ => rfl

theorem foldlM_strictDeclare_eq (hgrounded : script.Grounded) {entries : List Nat}
    (h : ∀ t ∈ entries, t < script.nodes.size) (held : NameSet) :
    entries.foldlM script.strictDeclare held = .ok (entries.foldl script.declare held) := by
  induction entries generalizing held with
  | nil => rfl
  | cons entry rest ih =>
    rw [List.foldlM_cons, strictDeclare_eq hgrounded (h entry List.mem_cons_self)]
    exact ih (fun t ht => h t (List.mem_cons_of_mem _ ht)) _

theorem strictCall_eq {args : List (Argument Nat)}
    (h : ∀ t ∈ args.head?.bind (·.value), t < script.nodes.size) (callee : String)
    (held : NameSet) :
    script.strictCall callee args held = .ok (script.callEffect callee args held) := by
  simp only [strictCall, callEffect, strictRelease_eq h]
  split
  · rfl
  split
  · rfl
  split
  · rfl
  split
  · rfl
  · rfl

/-- **The walk of a plain statement** of a grounded script has no fault. -/
theorem strictEffect_eq (hgrounded : script.Grounded) {r : Nat} {node : Node Nat}
    (hnode : script.nodes[r]? = some node) (held : NameSet) :
    script.strictEffect node held = .ok (script.effect node held) := by
  have hparts := hgrounded.refs_lt_size hnode
  cases node with
  | assignment target value =>
    simp only [strictEffect, strictAssign_eq_of_getElem? hgrounded hnode]
    rfl
  | locals entries =>
    have hentries : entries.foldlM script.strictDeclare held = .ok (entries.foldl script.declare held) :=
      foldlM_strictDeclare_eq hgrounded hparts held
    simp only [strictEffect, hentries]
    rfl
  | returns value =>
    have hvalue : ∀ t ∈ value, t < script.nodes.size :=
      fun t ht => hparts t (by simp [Node.refs, Option.mem_def.mp ht])
    simp only [strictEffect, strictRelease_eq hvalue]
    rfl
  | call callee args =>
    apply strictCall_eq
    -- the first argument is one of the arguments
    intro t ht
    obtain ⟨arg, harg, hvalue⟩ := Option.bind_eq_some_iff.mp ht
    exact hparts t (List.mem_filterMap.mpr ⟨arg, List.mem_of_head? harg, hvalue⟩)
  | _ => rfl

/-! ## The walk of a statement -/

theorem strictOptional_eq {strict : Nat → NameSet → Except Fault Walk} {part : Option Nat}
    (h : ∀ t ∈ part, ∀ held, strict t held = .ok (script.walk t held)) (held : NameSet) :
    strictOptional strict part held = .ok (Walk.optional script.walk part held) := by
  cases part with
  | none => rfl
  | some t => exact h t rfl held

theorem strictSequence_eq {strict : Nat → NameSet → Except Fault Walk} {body : List Nat}
    (h : ∀ t ∈ body, ∀ held, strict t held = .ok (script.walk t held)) (held : NameSet) :
    strictSequence strict body held = .ok (Walk.sequence script.walk body held) := by
  induction body generalizing held with
  | nil => rfl
  | cons r rest ih =>
    have hrest := ih (fun t ht => h t (List.mem_cons_of_mem _ ht)) (script.walk r held).held
    rw [strictSequence, h r List.mem_cons_self]
    change (strictSequence strict rest (script.walk r held).held >>= fun _ => _) = _
    rw [hrest]
    rfl

/-- **The strict walk has no fault** in a grounded script: all look-ups succeed, and it is nested no
more deeply than the position of the statement says. -/
theorem strictWalk_eq (hgrounded : script.Grounded) {r : Nat} (hr : r < script.nodes.size)
    {depth : Nat} (hdepth : r < depth) (held : NameSet) :
    script.strictWalk depth r held = .ok (script.walk r held) := by
  -- a part has a smaller position, so it needs less depth than is left
  induction r using Nat.strongRecOn generalizing depth held with
  | ind r ih =>
    obtain _ | depth := depth
    · exact absurd hdepth (Nat.not_lt_zero r)
    have hnode := Array.getElem?_eq_getElem hr
    have hpart : ∀ t ∈ script.nodes[r].refs, ∀ held,
        script.strictWalk depth t held = .ok (script.walk t held) := by
      intro t ht held
      have hlt := hgrounded.refs_lt hnode t ht
      exact ih t hlt (Nat.lt_trans hlt hr) (by omega) held
    rw [strictWalk, look_eq hnode, walk_eq hgrounded hnode]
    cases hkind : script.nodes[r] with
    | branch cond yes no =>
      rw [hkind] at hnode hpart
      have hcond : ∀ t ∈ cond, t < script.nodes.size :=
        fun t ht => hgrounded.refs_lt_size hnode t (by simp [Node.refs, Option.mem_def.mp ht])
      have hyes : strictOptional (script.strictWalk depth) yes held =
          .ok (Walk.optional script.walk yes held) :=
        strictOptional_eq (fun t ht => hpart t (by simp [Node.refs, Option.mem_def.mp ht])) held
      have hno : strictOptional (script.strictWalk depth) no held =
          .ok (Walk.optional script.walk no held) :=
        strictOptional_eq (fun t ht => hpart t (by simp [Node.refs, Option.mem_def.mp ht])) held
      change (script.strictGuard cond held >>= fun _ => _) = _
      rw [strictGuard_eq hgrounded hcond, walkNode]
      cases script.guard? cond held with
      | some name => rfl
      | none =>
        change (strictOptional (script.strictWalk depth) yes held >>= fun _ => _) = _
        rw [hyes]
        change (strictOptional (script.strictWalk depth) no held >>= fun _ => _) = _
        rw [hno]
        rfl
    | block body =>
      rw [hkind] at hpart
      exact strictSequence_eq hpart held
    | _ =>
      rw [hkind] at hnode
      exact strictEffect_eq hgrounded hnode held

/-- The same of a list of statements. -/
theorem strictSequence_walk_eq (hgrounded : script.Grounded) {body : List Nat}
    (hbody : ∀ t ∈ body, t < script.nodes.size) {depth : Nat} (hdepth : script.nodes.size ≤ depth)
    (held : NameSet) :
    strictSequence (script.strictWalk depth) body held =
      .ok (Walk.sequence script.walk body held) := by
  refine strictSequence_eq (fun t ht => ?_) held
  exact strictWalk_eq hgrounded (hbody t ht) (Nat.lt_of_lt_of_le (hbody t ht) hdepth)

/-! ## The audit -/

/-- Nodes that are in the table are found by their positions. -/
theorem mapM_look_eq {positions : List Nat} (h : ∀ r ∈ positions, r < script.nodes.size) :
    positions.mapM script.look = .ok (positions.filterMap (script.nodes[·]?)) := by
  induction positions with
  | nil => rfl
  | cons r rest ih =>
    have hnode := Array.getElem?_eq_getElem (h r List.mem_cons_self)
    rw [List.mapM_cons, look_eq hnode, ih fun t ht => h t (List.mem_cons_of_mem _ ht),
      List.filterMap_cons, hnode]
    rfl

/-- All positions in order give the whole table; those behind its end give nothing more. -/
theorem filterMap_range_getElem? (nodes : List (Node Nat)) {n : Nat} (h : nodes.length ≤ n) :
    (List.range n).filterMap (nodes[·]?) = nodes := by
  induction nodes generalizing n with
  | nil => simp
  | cons node rest ih =>
    obtain ⟨m, rfl⟩ : ∃ m, n = m + 1 := Nat.exists_eq_add_one.mpr (Nat.zero_lt_of_lt h)
    rw [List.range_succ_eq_map, List.filterMap_cons, List.filterMap_map]
    exact congrArg (node :: ·) (ih (Nat.le_of_succ_le_succ h))

/-- **The functions are found by the positions where they stand.** -/
theorem strictFunctions_eq : script.strictFunctions = .ok script.functions := by
  have hpositions : ∀ r ∈ script.positions .function, r < script.nodes.size := by
    intro r hr
    exact List.mem_range.mp (List.mem_filter.mp hr).1
  have htable : (List.range script.nodes.size).filterMap (script.nodes[·]?) =
      script.nodes.toList := by
    simpa using filterMap_range_getElem? script.nodes.toList (Nat.le_refl _)
  rw [strictFunctions, mapM_look_eq hpositions, functions, ← htable, positions]
  change Except.ok _ = Except.ok _
  rw [List.filterMap_filterMap, List.filterMap_filterMap, List.filterMap_filter]
  -- a node of another shape is no function, so that it is left out makes no difference
  refine congrArg (fun found => Except.ok (List.filterMap found _)) (funext fun r => ?_)
  cases script.nodes[r]? with
  | none => simp
  | some node => cases node <;> simp [Node.shape]

theorem strictFunctionWalk_eq (hgrounded : script.Grounded) {depth : Nat}
    (hdepth : script.nodes.size ≤ depth) {name : String} {body : Option Nat}
    (hbody : ∀ t ∈ body, t < script.nodes.size) :
    script.strictFunctionWalk depth name body = .ok (script.functionWalk name body) := by
  have hwalk : strictOptional (script.strictWalk depth) body ∅ =
      .ok (Walk.optional script.walk body ∅) := by
    refine strictOptional_eq (fun t ht => ?_) ∅
    exact strictWalk_eq hgrounded (hbody t ht) (Nat.lt_of_lt_of_le (hbody t ht) hdepth)
  rw [strictFunctionWalk, hwalk]
  rfl

theorem mapM_strictFunctionWalk_eq (hgrounded : script.Grounded) {depth : Nat}
    (hdepth : script.nodes.size ≤ depth) {functions : List (String × Option Nat)}
    (h : ∀ function ∈ functions, ∀ t ∈ function.2, t < script.nodes.size) :
    (functions.mapM fun function => script.strictFunctionWalk depth function.1 function.2) =
      .ok (functions.map fun (name, body) => script.functionWalk name body) := by
  induction functions with
  | nil => rfl
  | cons function rest ih =>
    have hfunction : script.strictFunctionWalk depth function.1 function.2 =
        .ok (script.functionWalk function.1 function.2) :=
      strictFunctionWalk_eq hgrounded hdepth (h function List.mem_cons_self)
    rw [List.mapM_cons, hfunction, ih fun other hmem => h other (List.mem_cons_of_mem _ hmem)]
    rfl

/-- A function stands somewhere in the table. -/
theorem exists_of_mem_functions {name : String} {body : Option Nat}
    (h : (name, body) ∈ script.functions) :
    ∃ (r : Nat) (params : List String),
      script.nodes[r]? = some (.function name params body) := by
  obtain ⟨node, hmem, hfunction⟩ := List.mem_filterMap.mp h
  obtain ⟨r, hr⟩ := List.getElem?_of_mem hmem
  rw [Array.getElem?_toList] at hr
  cases node with
  | function _ params _ =>
    cases hfunction
    exact ⟨r, params, hr⟩
  | _ => cases hfunction

/-- The body of a function is in the table. -/
theorem body_lt_of_mem_functions (hgrounded : script.Grounded) {function : String × Option Nat}
    (h : function ∈ script.functions) : ∀ t ∈ function.2, t < script.nodes.size := by
  obtain ⟨r, params, hr⟩ := exists_of_mem_functions h
  intro t ht
  exact hgrounded.refs_lt_size hr t (by simpa [Node.refs] using ht)

/-- **The audit of a grounded script has no fault.** -/
theorem strictAudit_eq (hgrounded : script.Grounded) {depth : Nat}
    (hdepth : script.nodes.size ≤ depth) : script.strictAudit depth = .ok script.audit := by
  have hfunctions := mapM_strictFunctionWalk_eq hgrounded hdepth
    (fun function hmem => body_lt_of_mem_functions hgrounded hmem)
  have htop : strictSequence (script.strictWalk depth) script.top ∅ =
      .ok (Walk.sequence script.walk script.top ∅) :=
    strictSequence_walk_eq hgrounded hgrounded.top_lt hdepth ∅
  rw [strictAudit, strictFunctions_eq]
  change ((script.functions.mapM fun function =>
    script.strictFunctionWalk depth function.1 function.2) >>= fun _ => _) = _
  rw [hfunctions]
  change (strictSequence (script.strictWalk depth) script.top ∅ >>= fun _ => _) = _
  rw [htop]
  rfl

/-- **No fault**: every look-up that is made for the functions of a script, for a variable, an
assignment, a condition or a statement finds a node, statements are nested no more deeply than their
positions say, and all of this has the results that the walk has. -/
structure Faultless (script : Script) : Prop where
  functions : script.strictFunctions = .ok script.functions
  lvalueName : ∀ part, (∀ t ∈ part, t < script.nodes.size) →
    script.strictLvalueName part = .ok (script.lvalueName? part)
  assign : ∀ target value, (∀ t ∈ target, t < script.nodes.size) →
    (∀ t ∈ value, t < script.nodes.size) → ∀ held,
      script.strictAssign target value held = .ok (script.assign target value held)
  guard : ∀ cond, (∀ t ∈ cond, t < script.nodes.size) → ∀ held,
    script.strictGuard cond held = .ok (script.guard? cond held)
  walk : ∀ r < script.nodes.size, ∀ depth > r, ∀ held,
    script.strictWalk depth r held = .ok (script.walk r held)
  sequence : ∀ body : List Nat, (∀ t ∈ body, t < script.nodes.size) →
    ∀ depth ≥ script.nodes.size, ∀ held,
      strictSequence (script.strictWalk depth) body held =
        .ok (Walk.sequence script.walk body held)
  audit : ∀ depth ≥ script.nodes.size, script.strictAudit depth = .ok script.audit

theorem Grounded.faultless (hgrounded : script.Grounded) : script.Faultless where
  functions := strictFunctions_eq
  lvalueName := fun _ hpart => strictLvalueName_eq hpart
  assign := fun _ _ htarget hvalue => strictAssign_eq htarget hvalue
  guard := fun _ hcond => strictGuard_eq hgrounded hcond
  walk := fun _ hr _ hdepth => strictWalk_eq hgrounded hr hdepth
  sequence := fun _ hbody _ hdepth => strictSequence_walk_eq hgrounded hbody hdepth
  audit := fun _ hdepth => strictAudit_eq hgrounded hdepth

/-- **A script that is put together has no faults.** Steps whose operators fit and that refer only to
steps before them are all taken, with any of them at top level. Each of them appends one or more
nodes behind those that are there, which stay where they are, and stands for the last of these; so
the positions of the steps increase. Every node refers only to nodes before it, and the top-level
statements are in the table. Hence every look-up succeeds and the walk ends from every statement. -/
theorem built_script_has_no_faults {steps : List Step} {top : List Nat} (hsteps : Orderly steps)
    (htop : ∀ n ∈ top, n < steps.length) :
    ∃ (construction : Construction) (script : Script),
      Construction.ofSteps steps = .ok construction ∧
      Script.build steps top = .ok script ∧ script.nodes = construction.nodes ∧
      script.top = top.map (construction.positions.getD · 0) ∧
      (∀ i step, steps[i]? = some step → ∃ before after laid,
        Construction.ofSteps (steps.take i) = .ok before ∧
        Construction.ofSteps (steps.take (i + 1)) = .ok after ∧ laid ≠ [] ∧
        after.nodes.toList = before.nodes.toList ++ laid ∧
        after.positions = before.positions.push (after.nodes.size - 1) ∧
        after.nodes.toList <+: script.nodes.toList) ∧
      construction.positions.size = steps.length ∧
      construction.positions.toList.Pairwise (· < ·) ∧
      (∀ (r : Nat) (node : Node Nat), script.nodes[r]? = some node → ∀ t ∈ node.refs, t < r) ∧
      (∀ t ∈ script.top, t < script.nodes.size) ∧ script.Faultless := by
  have hbuild := Script.build_eq_ok hsteps htop
  have hgrounded := grounded_of_build hbuild
  refine ⟨_, _, Construction.ofSteps_eq_ok hsteps, hbuild, rfl, rfl, ?_, ?_,
    (Construction.increasing_foldl steps Construction.increasing_empty).pairwise,
    fun r node => hgrounded.refs_lt, hgrounded.top_lt, hgrounded.faultless⟩
  · intro i step hstep
    obtain ⟨before, after, laid, hbefore, hafter, hne, hnodes, hpositions⟩ :=
      Construction.exists_laid hsteps hstep
    refine ⟨before, after, laid, hbefore, hafter, hne, hnodes, hpositions, ?_⟩
    -- the steps that are left only append
    obtain rfl : (steps.take (i + 1)).foldl Construction.append {} = after :=
      Except.ok.inj ((Construction.ofSteps_eq_ok (hsteps.take (i + 1))).symm.trans hafter)
    have hrest := Construction.nodes_isPrefix (steps.drop (i + 1))
      ((steps.take (i + 1)).foldl Construction.append {})
    rwa [← List.foldl_append, List.take_append_drop] at hrest
  · rw [Construction.size_positions_foldl]
    simp

/-- Steps of which some append several nodes, so that their numbers and positions drift apart. -/
def driftingSteps : List Step :=
  [.call "open_sock_tcp" [], .locals [⟨"s", some 0⟩, ⟨"t", none⟩], .assign "u" 0,
    .raw (.branch none (some 2) none), .function "f" ["x"] [1, 3]]

theorem driftingSteps_have_no_faults :
    Orderly driftingSteps ∧ ∃ construction script,
      Construction.ofSteps driftingSteps = .ok construction ∧
      Script.build driftingSteps [4, 2] = .ok script ∧
      construction.positions = #[0, 4, 6, 7, 9] ∧ script.top = [9, 6] ∧ script.Faultless := by
  have hsteps : Orderly driftingSteps := by decide
  have hrefs : ∀ n ∈ [4, 2], n < driftingSteps.length := by decide
  refine ⟨hsteps, ?_⟩
  obtain ⟨construction, script, hconstruction, hbuild, -, htop, -, -, -, -, -, hfaultless⟩ :=
    built_script_has_no_faults hsteps hrefs
  have hpositions : construction.positions = #[0, 4, 6, 7, 9] := by
    obtain rfl := Except.ok.inj hconstruction
    rfl
  refine ⟨construction, script, hconstruction, hbuild, hpositions, ?_, hfaultless⟩
  rw [htop, hpositions]
  rfl

end Script

end ScriptLint
