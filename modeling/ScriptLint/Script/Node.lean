/-!
# Nodes of a script

A script is a table of nodes that refer to each other. A node is one construct of the scripting
language without its parts: where a part stands, the node holds a reference to it. The type of
references is a parameter, so that the same constructs serve while a script is put together and
once its nodes have their positions.

## Main definitions

* `Operator`: the operators of expressions; `Operator.isUnary` tells the unary ones
* `Node ρ`: one construct, referring to its parts by `ρ`
* `Node.refs`: the references that a node holds, in reading order
* `Node.map`: a node with its references replaced
* `Node.Shape`, `Node.shape`: which construct a node is
-/

namespace ScriptLint

/-- The operators of expressions. -/
inductive Operator where
  | not
  | neg
  | bitNot
  | add
  | sub
  | mul
  | div
  | mod
  | eq
  | ne
  | lt
  | ltEq
  | gt
  | gtEq
  | and
  | or
  | like
  | unlike
deriving DecidableEq, Inhabited

namespace Operator

/-- An operator that takes one operand. -/
def isUnary : Operator → Bool
  | not | neg | bitNot => true
  | _ => false

/-- The label of an operator in messages. -/
def label : Operator → String
  | not => "Not"
  | neg => "Neg"
  | bitNot => "BitNot"
  | add => "Add"
  | sub => "Sub"
  | mul => "Mul"
  | div => "Div"
  | mod => "Mod"
  | eq => "Eq"
  | ne => "Ne"
  | lt => "Lt"
  | ltEq => "LtEq"
  | gt => "Gt"
  | gtEq => "GtEq"
  | and => "And"
  | or => "Or"
  | like => "Match"
  | unlike => "NotMatch"

/-- Every operator. -/
def all : List Operator :=
  [not, neg, bitNot, add, sub, mul, div, mod, eq, ne, lt, ltEq, gt, gtEq, and, or, like, unlike]

/-- The operator with a label. -/
def ofLabel? (label : String) : Option Operator :=
  all.find? (·.label = label)

end Operator

/-- One argument of a call, with its label in a call such as `f(key:value)`. -/
structure Argument (ρ : Type) where
  label : Option String
  value : Option ρ
deriving DecidableEq, Inhabited

/-- One construct of the scripting language, referring to its parts by `ρ`. A part that may be
left out is an option. -/
inductive Node (ρ : Type) where
  /-- A signed integer of 64 bits. -/
  | integer (value : Int64)
  /-- A string. -/
  | text (value : String)
  /-- A bare name that is not a variable reference, as in a declaration. -/
  | identifier (name : String)
  /-- A variable reference, indexed or not. -/
  | lvalue (name : String) (indexes : List (Option ρ))
  /-- An operator and its operands; a unary operator has only the right one. -/
  | expression (op : Operator) (lhs rhs : Option ρ)
  /-- A function call. -/
  | call (callee : String) (args : List (Argument ρ))
  /-- An assignment of a value to a target. -/
  | assignment (target value : Option ρ)
  /-- A declaration of local variables, each an identifier or an assignment to one. -/
  | locals (entries : List ρ)
  /-- A declaration of global variables, each an identifier or an assignment to one. -/
  | globals (entries : List ρ)
  /-- A return from a function. -/
  | returns (value : Option ρ)
  /-- An exit from a loop. -/
  | breaks
  /-- The next round of a loop. -/
  | continues
  /-- A conditional. -/
  | branch (cond yes no : Option ρ)
  /-- A sequence of statements. -/
  | block (body : List ρ)
  /-- A counting loop. -/
  | forLoop (start cond step body : Option ρ)
  /-- A loop over the elements of a value. -/
  | foreachLoop (name : String) (range body : Option ρ)
  /-- A loop that tests its condition first. -/
  | whileLoop (cond body : Option ρ)
  /-- A loop that tests its condition last. -/
  | repeatLoop (body cond : Option ρ)
  /-- A function definition. -/
  | function (name : String) (params : List String) (body : Option ρ)
  /-- An inclusion of another file. -/
  | includes (file : String)
  /-- An empty statement. -/
  | empty
deriving DecidableEq, Inhabited

namespace Node

variable {ρ σ : Type}

/-- The references that a node holds, in reading order. -/
def refs : Node ρ → List ρ
  | integer _ | text _ | identifier _ | breaks | continues | includes _ | empty => []
  | lvalue _ indexes => indexes.filterMap id
  | expression _ lhs rhs => lhs.toList ++ rhs.toList
  | call _ args => args.filterMap (·.value)
  | assignment target value => target.toList ++ value.toList
  | locals entries | globals entries => entries
  | returns value => value.toList
  | branch cond yes no => cond.toList ++ yes.toList ++ no.toList
  | block body => body
  | forLoop start cond step body => start.toList ++ cond.toList ++ step.toList ++ body.toList
  | foreachLoop _ range body => range.toList ++ body.toList
  | whileLoop cond body => cond.toList ++ body.toList
  | repeatLoop body cond => body.toList ++ cond.toList
  | function _ _ body => body.toList

/-- The node with its references replaced. -/
def map (f : ρ → σ) : Node ρ → Node σ
  | integer value => integer value
  | text value => text value
  | identifier name => identifier name
  | lvalue name indexes => lvalue name (indexes.map (·.map f))
  | expression op lhs rhs => expression op (lhs.map f) (rhs.map f)
  | call callee args => call callee (args.map fun arg => ⟨arg.label, arg.value.map f⟩)
  | assignment target value => assignment (target.map f) (value.map f)
  | locals entries => locals (entries.map f)
  | globals entries => globals (entries.map f)
  | returns value => returns (value.map f)
  | breaks => breaks
  | continues => continues
  | branch cond yes no => branch (cond.map f) (yes.map f) (no.map f)
  | block body => block (body.map f)
  | forLoop start cond step body =>
    forLoop (start.map f) (cond.map f) (step.map f) (body.map f)
  | foreachLoop name range body => foreachLoop name (range.map f) (body.map f)
  | whileLoop cond body => whileLoop (cond.map f) (body.map f)
  | repeatLoop body cond => repeatLoop (body.map f) (cond.map f)
  | function name params body => function name params (body.map f)
  | includes file => includes file
  | empty => empty

/-- Replacing references replaces exactly those that the node holds. -/
@[simp]
theorem refs_map (f : ρ → σ) (node : Node ρ) : (node.map f).refs = node.refs.map f := by
  cases node with
  | lvalue name indexes =>
    rw [map, refs, refs, List.filterMap_map, List.map_filterMap]
    rfl
  | call callee args =>
    rw [map, refs, refs, List.filterMap_map, List.map_filterMap]
    rfl
  | _ => simp [refs, map, Option.toList_map]

/-- Which construct a node is. -/
inductive Shape where
  | integer
  | text
  | identifier
  | lvalue
  | expression
  | call
  | assignment
  | locals
  | globals
  | returns
  | breaks
  | continues
  | branch
  | block
  | forLoop
  | foreachLoop
  | whileLoop
  | repeatLoop
  | function
  | includes
  | empty
deriving DecidableEq, Inhabited

/-- The construct that a node is, without its contents. -/
def shape : Node ρ → Shape
  | integer _ => .integer
  | text _ => .text
  | identifier _ => .identifier
  | lvalue _ _ => .lvalue
  | expression _ _ _ => .expression
  | call _ _ => .call
  | assignment _ _ => .assignment
  | locals _ => .locals
  | globals _ => .globals
  | returns _ => .returns
  | breaks => .breaks
  | continues => .continues
  | branch _ _ _ => .branch
  | block _ => .block
  | forLoop _ _ _ _ => .forLoop
  | foreachLoop _ _ _ => .foreachLoop
  | whileLoop _ _ => .whileLoop
  | repeatLoop _ _ => .repeatLoop
  | function _ _ _ => .function
  | includes _ => .includes
  | empty => .empty

end Node

end ScriptLint
