import ScriptLint.Script.Basic

/-!
# Putting a script together

A script is put together by steps. Each step appends one or more nodes to the table and stands
for the last of them; it refers to earlier steps by their number. Most steps append the one node
they are named for. An assignment brings its variable along, a declaration its identifiers, and a
function definition the block of its body.

## Main definitions

* `Step`: the steps
* `Step.layout`: the nodes that a step appends, referring to earlier steps and to each other
* `BuildError`: why a step is refused
* `Construction`: the table so far and the position of each step's node
* `Construction.add`, `Construction.ofSteps`: taking a step, and all of them
* `Construction.finish`: the script with given top-level statements
-/

namespace ScriptLint

/-- One declared variable, with the step of its initial value if it has one. -/
structure Declaration where
  name : String
  value : Option Nat
deriving DecidableEq, Inhabited

/-- A step in putting a script together. References are numbers of earlier steps. -/
inductive Step where
  /-- An integer. -/
  | integer (value : Int64)
  /-- A string. -/
  | text (value : String)
  /-- A bare name. -/
  | identifier (name : String)
  /-- A reference to a variable. -/
  | reference (name : String)
  /-- A reference to an element of a variable. -/
  | element (name : String) (index : Nat)
  /-- A unary operator applied to an operand. -/
  | unary (op : Operator) (operand : Nat)
  /-- The negation of a condition. -/
  | negation (operand : Nat)
  /-- A binary operator between two operands. -/
  | binary (lhs : Nat) (op : Operator) (rhs : Nat)
  /-- A call with unlabelled arguments. -/
  | call (callee : String) (args : List Nat)
  /-- A call with arguments of any form. -/
  | callWith (callee : String) (args : List (Argument Nat))
  /-- An assignment to the variable of that name. -/
  | assign (name : String) (value : Nat)
  /-- An assignment to a target. -/
  | assignTo (target value : Nat)
  /-- A declaration of local variables. -/
  | locals (declarations : List Declaration)
  /-- A declaration of global variables. -/
  | globals (declarations : List Declaration)
  /-- A return from a function. -/
  | returns (value : Option Nat)
  /-- An exit from a loop. -/
  | breaks
  /-- The next round of a loop. -/
  | continues
  /-- A conditional. -/
  | branch (cond yes : Nat) (no : Option Nat)
  /-- A sequence of statements. -/
  | block (body : List Nat)
  /-- A loop that tests its condition first. -/
  | whileLoop (cond body : Nat)
  /-- A loop over the elements of a value. -/
  | foreachLoop (name : String) (range body : Nat)
  /-- A function definition. -/
  | function (name : String) (params : List String) (body : List Nat)
  /-- Any node as it stands, of which nothing is checked. -/
  | raw (node : Node Nat)
deriving DecidableEq, Inhabited

/-- What a node of a step refers to. -/
inductive Link where
  /-- The node that an earlier step stands for. -/
  | earlier (step : Nat)
  /-- A node of the same step, counted from its first. -/
  | inner (offset : Nat)
deriving DecidableEq, Inhabited

/-- Why a step is refused. -/
inductive BuildError where
  /-- A unary expression with a binary operator. -/
  | notUnary (op : Operator)
  /-- A binary expression with a unary operator. -/
  | notBinary (op : Operator)
  /-- A reference to a step that has not been taken. -/
  | dangling (step : Nat)
deriving DecidableEq, Inhabited

/-- The wording of a refusal. -/
def BuildError.message : BuildError → String
  | notUnary op => op.label ++ " is not unary"
  | notBinary op => op.label ++ " is unary"
  | dangling step => "step " ++ toString step ++ " has not been taken"

/-- The nodes of a list of declarations whose first node has the given offset, and the links to
the declared entries. An entry is the identifier, or the assignment of its initial value. -/
def Declaration.layout (offset : Nat) : List Declaration → List (Node Link) × List Link
  | [] => ([], [])
  | ⟨name, none⟩ :: rest =>
    let (nodes, entries) := layout (offset + 1) rest
    (.identifier name :: nodes, .inner offset :: entries)
  | ⟨name, some value⟩ :: rest =>
    let (nodes, entries) := layout (offset + 2) rest
    (.identifier name :: .assignment (some (.inner offset)) (some (.earlier value)) :: nodes,
      .inner (offset + 1) :: entries)

namespace Step

/-- The operator that a step may not have, if it has one. This is a debug assertion of putting
scripts together, and what is modelled is a build with debug assertions: there a fault ends the
construction. In a build without them no step has a fault, and a `unary` or `binary` step appends
its node whatever its operator is, as the `raw` step of that node does. -/
def fault? : Step → Option BuildError
  | unary op _ => if op.isUnary then none else some (.notUnary op)
  | binary _ op _ => if op.isUnary then some (.notBinary op) else none
  | _ => none

/-- The nodes that a step appends, in order. The step stands for the last. -/
def layout : Step → List (Node Link)
  | integer value => [.integer value]
  | text value => [.text value]
  | identifier name => [.identifier name]
  | reference name => [.lvalue name []]
  | element name index => [.lvalue name [some (.earlier index)]]
  | unary op operand => [.expression op none (some (.earlier operand))]
  | negation operand => [.expression .not none (some (.earlier operand))]
  | binary lhs op rhs => [.expression op (some (.earlier lhs)) (some (.earlier rhs))]
  | call callee args => [.call callee (args.map fun arg => ⟨none, some (.earlier arg)⟩)]
  | callWith callee args => [(Node.call callee args).map .earlier]
  | assign name value =>
    [.lvalue name [], .assignment (some (.inner 0)) (some (.earlier value))]
  | assignTo target value => [.assignment (some (.earlier target)) (some (.earlier value))]
  | locals declarations =>
    let (nodes, entries) := Declaration.layout 0 declarations
    nodes ++ [.locals entries]
  | globals declarations =>
    let (nodes, entries) := Declaration.layout 0 declarations
    nodes ++ [.globals entries]
  | returns value => [.returns (value.map .earlier)]
  | breaks => [.breaks]
  | continues => [.continues]
  | branch cond yes no => [.branch (some (.earlier cond)) (some (.earlier yes)) (no.map .earlier)]
  | block body => [.block (body.map .earlier)]
  | whileLoop cond body => [.whileLoop (some (.earlier cond)) (some (.earlier body))]
  | foreachLoop name range body =>
    [.foreachLoop name (some (.earlier range)) (some (.earlier body))]
  | function name params body =>
    [.block (body.map .earlier), .function name params (some (.inner 0))]
  | raw node => [node.map .earlier]

/-- The numbers of the steps that a step refers to. -/
def operands (step : Step) : List Nat :=
  (step.layout.flatMap Node.refs).filterMap fun
    | .earlier n => some n
    | .inner _ => none

end Step

/-- A script in the making: the node table so far, and where the node of each step stands. -/
structure Construction where
  nodes : Array (Node Nat) := #[]
  positions : Array Nat := #[]
deriving DecidableEq, Inhabited

namespace Construction

/-- Where a link of the next step points to in the table. -/
def resolve (construction : Construction) : Link → Nat
  | .earlier step => construction.positions.getD step 0
  | .inner offset => construction.nodes.size + offset

/-- The table with the nodes of one more step. -/
def append (construction : Construction) (step : Step) : Construction where
  nodes := construction.nodes ++ step.layout.map (·.map construction.resolve)
  positions := construction.positions.push (construction.nodes.size + step.layout.length - 1)

/-- Takes a step, unless its operator does not fit or it refers to a step not yet taken. -/
def add (construction : Construction) (step : Step) : Except BuildError Construction :=
  match step.fault? with
  | some fault => .error fault
  | none =>
    match step.operands.find? (construction.positions.size ≤ ·) with
    | some missing => .error (.dangling missing)
    | none => .ok (construction.append step)

/-- Takes the steps in order, up to the first that is refused. -/
def ofSteps (steps : List Step) : Except BuildError Construction :=
  steps.foldlM add {}

/-- The script whose top-level statements are the nodes of the given steps. -/
def finish (construction : Construction) (top : List Nat) : Except BuildError Script :=
  match top.find? (construction.positions.size ≤ ·) with
  | some missing => .error (.dangling missing)
  | none => .ok ⟨construction.nodes, top.map (construction.positions.getD · 0)⟩

end Construction

/-- The script that the steps put together, with the nodes of the steps in `top` at top level. -/
def Script.build (steps : List Step) (top : List Nat) : Except BuildError Script := do
  (← Construction.ofSteps steps).finish top

end ScriptLint
