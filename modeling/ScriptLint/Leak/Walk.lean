import ScriptLint.Journal
import ScriptLint.Script.Basic

/-!
# Walking a script for open handles

A walk follows the statements of a body in order, and keeps the names that may hold an open socket
handle: a name is held if it is on some path. An assignment from an opening call adds the name it
assigns to; a closing call or a return drops the variable it is given. Where the script may be
left, what is held at that point is flushed, that is, put on record.

A walk is a heuristic. It enters blocks and both branches of a conditional, but no loops and no
function bodies, and a handle that is passed anywhere else is still held. A conditional on the
failure of a held handle, such as `if (!sock)`, is skipped.

## Main definitions

* `Walk`: what a walk holds at its end, and what it flushed and noted on the way
* `Walk.andThen`, `Walk.merge`: one walk after the other, and two walks side by side
* `Script.openedName?`: the name under which an assignment opens a handle
* `Script.guard?`: the held variable whose failure a condition tests
* `Script.effect`: the walk of a statement that contains no others
* `Script.walk`: the walk of any statement

## Main results

* `Script.walk_eq`: the walk of a statement in terms of the walks of its parts, in a grounded script
-/

namespace ScriptLint

/-- What a walk holds at its end, and what it flushed and noted on the way. -/
structure Walk where
  /-- The names that may hold an open handle. -/
  held : NameSet
  /-- What was held wherever the script may be left, in order. -/
  flushes : List NameSet := []
  /-- The events on the way. -/
  notes : List Event := []

namespace Walk

/-- The walk that does nothing. -/
def still (held : NameSet) : Walk :=
  { held }

/-- The walk that only flushes what is held. -/
def flush (held : NameSet) : Walk :=
  { held, flushes := [held] }

/-- The walk followed by another from what it holds. -/
def andThen (first : Walk) (next : NameSet → Walk) : Walk :=
  let second := next first.held
  { held := second.held
    flushes := first.flushes ++ second.flushes
    notes := first.notes ++ second.notes }

/-- Two walks side by side: what either holds is held. -/
def merge (first second : Walk) : Walk where
  held := first.held ∪ second.held
  flushes := first.flushes ++ second.flushes
  notes := first.notes ++ second.notes

/-- The walk of an optional part; an absent part does nothing. -/
def optional (walk : Nat → NameSet → Walk) (part : Option Nat) (held : NameSet) : Walk :=
  match part with
  | some r => walk r held
  | none => still held

/-- The walks of a list of statements, one after the other. -/
def sequence (walk : Nat → NameSet → Walk) : List Nat → NameSet → Walk
  | [], held => still held
  | r :: rest, held => (walk r held).andThen (sequence walk rest)

/-- The walk of an optional part depends only on the walk of that part. -/
theorem optional_congr {walk other : Nat → NameSet → Walk} {part : Option Nat}
    (h : ∀ t, part = some t → walk t = other t) (held : NameSet) :
    optional walk part held = optional other part held := by
  cases part with
  | none => rfl
  | some t => exact congrFun (h t rfl) held

/-- The walk of a list of statements depends only on the walks of those statements. -/
theorem sequence_congr {walk other : Nat → NameSet → Walk} {body : List Nat}
    (h : ∀ t ∈ body, walk t = other t) : sequence walk body = sequence other body := by
  induction body with
  | nil => rfl
  | cons r rest ih =>
    funext held
    rw [sequence, sequence, h r List.mem_cons_self,
      ih fun t ht => h t (List.mem_cons_of_mem _ ht)]

end Walk

/-! ## The calls that matter -/

/-- The functions that open a handle and return it. -/
def openers : List String :=
  ["open_sock_tcp", "http_open_socket"]

/-- The functions that close the handle they are given first. -/
def closers : List String :=
  ["close", "ftp_close", "http_close_socket", "smtp_close"]

/-- The functions that end the script. -/
def exits : List String :=
  ["exit", "audit"]

/-- The functions that manage handles of their own. -/
def managers : List String :=
  ["session_init", "ssh_close_connection"]

/-- The variables for shared handles, which have conventions of their own. -/
def sharedVariables : List String :=
  ["g_sock", "_ssh_socket"]

/-- The name of a handle that is assigned to nothing. -/
def unassigned : String := ""

namespace Script

variable (script : Script)

/-- The name that the target of an assignment gives to a handle. -/
def targetName (target : Option Nat) : String :=
  match target.bind (script.nodes[·]?) with
  | some (.lvalue name _) | some (.identifier name) => name
  | _ => unassigned

/-- The name under which an assignment opens a handle, if its value is an opening call and its
target is not a shared variable. -/
def openedName? (target value : Option Nat) : Option String :=
  match value.bind (script.nodes[·]?) with
  | some (.call callee _) =>
    if callee ∈ openers ∧ script.targetName target ∉ sharedVariables then
      some (script.targetName target)
    else none
  | _ => none

/-- What is held after an assignment. -/
def assign (target value : Option Nat) (held : NameSet) : NameSet :=
  match script.openedName? target value with
  | some name => held.insert name
  | none => held

/-- What is held after one entry of a declaration, which may be an assignment. -/
def declare (held : NameSet) (entry : Nat) : NameSet :=
  match script.nodes[entry]? with
  | some (.assignment target value) => script.assign target value held
  | _ => held

/-- What is held once the variable that a part refers to is closed or handed on. Nothing changes
if the part is no variable. -/
def release (part : Option Nat) (held : NameSet) : NameSet :=
  match script.lvalueName? part with
  | some name => held.erase name
  | none => held

/-- The variable that a condition of the form `!x` tests, if it is held. -/
def guard? (cond : Option Nat) (held : NameSet) : Option String :=
  match cond.bind (script.nodes[·]?) with
  | some (.expression .not _ rhs) => (script.lvalueName? rhs).filter (· ∈ held)
  | _ => none

/-- The walk of a call. -/
def callEffect (callee : String) (args : List (Argument Nat)) (held : NameSet) : Walk :=
  if callee ∈ exits then .flush held
  else if callee ∈ openers then .still (held.insert unassigned)
  else if callee ∈ closers then .still (script.release (args.head?.bind (·.value)) held)
  else if callee ∈ managers then { held, notes := [.ignored callee] }
  else .still held

/-- The walk of a statement that contains no others. -/
def effect (node : Node Nat) (held : NameSet) : Walk :=
  match node with
  | .assignment target value => .still (script.assign target value held)
  | .locals entries => .still (entries.foldl script.declare held)
  | .returns value => .still (script.release value held)
  | .breaks | .continues => .flush held
  | .call callee args => script.callEffect callee args held
  | _ => .still held

/-- The walk of a node, by the walks of the nodes it refers to. -/
def walkNode (inner : Nat → NameSet → Walk) (node : Node Nat) (held : NameSet) : Walk :=
  match node with
  | .branch cond yes no =>
    match script.guard? cond held with
    | some name => { held, notes := [.guarded name] }
    | none => (Walk.optional inner yes held).merge (Walk.optional inner no held)
  | .block body => Walk.sequence inner body held
  | node => script.effect node held

/-- The walk of the statement at a position. References are followed to earlier positions only,
so a walk ends; in a grounded script there are no others. -/
def walk (r : Nat) (held : NameSet) : Walk :=
  match script.nodes[r]? with
  | some node =>
    script.walkNode (fun t held => if _h : t < r then walk t held else .still held) node held
  | none => .still held
termination_by r

/-! ## The walk by the walks of the parts -/

variable {script}

/-- The walk of a node depends only on the walks of the nodes it refers to. -/
theorem walkNode_congr {inner other : Nat → NameSet → Walk} {node : Node Nat}
    (h : ∀ t ∈ node.refs, inner t = other t) (held : NameSet) :
    script.walkNode inner node held = script.walkNode other node held := by
  cases node with
  | branch cond yes no =>
    have hyes : Walk.optional inner yes held = Walk.optional other yes held :=
      Walk.optional_congr (fun t ht => h t (by simp [Node.refs, ht])) held
    have hno : Walk.optional inner no held = Walk.optional other no held :=
      Walk.optional_congr (fun t ht => h t (by simp [Node.refs, ht])) held
    simp only [walkNode, hyes, hno]
  | block body =>
    exact congrFun (Walk.sequence_congr h) held
  | _ => rfl

/-- **The walk of a statement** of a grounded script, by the walks of its parts. -/
theorem walk_eq (hgrounded : script.Grounded) {r : Nat} {node : Node Nat}
    (hnode : script.nodes[r]? = some node) (held : NameSet) :
    script.walk r held = script.walkNode script.walk node held := by
  rw [walk, hnode]
  exact walkNode_congr (fun t ht => funext fun held => dif_pos (hgrounded.refs_lt hnode t ht)) held

end Script

end ScriptLint
