import ScriptLint.Script.Node

/-!
# Scripts

A script is a table of nodes, which refer to each other by position, and the positions of its
top-level statements. Nodes may be shared between several parents, and a node need not be reached
from the top level at all.

## Main definitions

* `Script`: a node table with its top-level statements
* `Script.Grounded`: every reference is to an earlier node, so that following references ends
* `Script.positions`: where the nodes of a shape stand
* `Script.functions`: the function definitions of the whole table
* `Script.lvalueName?`: the name of a variable reference
* `File`: a script under the name of its file
-/

namespace ScriptLint

/-- A table of nodes that refer to each other by position, and the top-level statements in the
order of the text. -/
structure Script where
  nodes : Array (Node Nat) := #[]
  top : List Nat := []
deriving DecidableEq, Inhabited

namespace Script

/-- **Groundedness**: each node refers only to nodes before it, and the top-level statements are
in the table. -/
structure Grounded (script : Script) : Prop where
  /-- A node refers only to nodes before it. -/
  refs_lt : ∀ {r : Nat} {node : Node Nat}, script.nodes[r]? = some node → ∀ t ∈ node.refs, t < r
  /-- The top-level statements are in the table. -/
  top_lt : ∀ t ∈ script.top, t < script.nodes.size

/-- The positions of the nodes of a shape, in table order. -/
def positions (script : Script) (shape : Node.Shape) : List Nat :=
  (List.range script.nodes.size).filter fun r => (script.nodes[r]?).map Node.shape = some shape

/-- The name and body of each function definition, in table order. -/
def functions (script : Script) : List (String × Option Nat) :=
  script.nodes.toList.filterMap fun
    | .function name _ body => some (name, body)
    | _ => none

/-- The name of the variable that a part refers to, indexed or not. An absent part and any other
node name no variable. -/
def lvalueName? (script : Script) (part : Option Nat) : Option String :=
  match part.bind (script.nodes[·]?) with
  | some (.lvalue name _) => some name
  | _ => none

end Script

/-- A script under the name of its file. -/
structure File where
  name : String
  script : Script
deriving DecidableEq, Inhabited

end ScriptLint
