/-
# Reshape.Formula.Arena.Basic -- formulas as numbered nodes

The other way to hold a formula: all of its nodes in one list, where a node refers to its parts by
their places in the list. A place is a number of 32 bits, and a list that outgrew it would number
its nodes wrongly. With each node its height is recorded when it is added, so that the height of a
new node comes from the recorded heights of its parts.

Nothing here keeps a node from referring to a place that does not exist, to itself or to a later
node, or two nodes from sharing a part. That the reader makes none of these is what has to be shown
about it.
-/

import Reshape.Formula.Reading

namespace Reshape.Formula

/-- The place of a node. -/
abbrev NodeId := UInt32

/-- **A node**, with the places of its parts. -/
inductive Node where
  | number (value : Float)
  | str (text : String)
  | bool (value : Bool)
  | null
  | undefined
  | input
  | array (items : List NodeId)
  | unary (op : UnaryOp) (operand : NodeId)
  | binary (op : BinaryOp) (left right : NodeId)
  | logical (op : LogicalOp) (left right : NodeId)
  | conditional (test yes no : NodeId)
  | member (object : NodeId) (name : String)
  | index (object key : NodeId)
  | method (receiver : NodeId) (method : Method) (args : List NodeId)
  | math (function : MathFunction) (args : List NodeId)
  | call (function : FreeFunction) (args : List NodeId)
  deriving DecidableEq, Inhabited

/-- The places of a node's parts, in order. -/
def Node.children : Node → List NodeId
  | .array items => items
  | .unary _ t => [t]
  | .binary _ l r => [l, r]
  | .logical _ l r => [l, r]
  | .conditional c y n => [c, y, n]
  | .member t _ => [t]
  | .index t k => [t, k]
  | .method t _ args => t :: args
  | .math _ args => args
  | .call _ args => args
  | _ => []

/-- The node of a tree over the places of its parts. -/
def Term.node : Term → List NodeId → Node
  | .number x, _ => .number x
  | .str s, _ => .str s
  | .bool b, _ => .bool b
  | .null, _ => .null
  | .undefined, _ => .undefined
  | .input, _ => .input
  | .array _, ids => .array ids
  | .unary op _, ids => .unary op (ids.getD 0 0)
  | .binary op _ _, ids => .binary op (ids.getD 0 0) (ids.getD 1 0)
  | .logical op _ _, ids => .logical op (ids.getD 0 0) (ids.getD 1 0)
  | .conditional _ _ _, ids => .conditional (ids.getD 0 0) (ids.getD 1 0) (ids.getD 2 0)
  | .member _ name, ids => .member (ids.getD 0 0) name
  | .index _ _, ids => .index (ids.getD 0 0) (ids.getD 1 0)
  | .method _ m _, ids => .method (ids.getD 0 0) m ids.tail
  | .math f _, ids => .math f ids
  | .call f _, ids => .call f ids

/-- **An arena of nodes**: their heights stand at the same places, and the root is set last. -/
structure Arena where
  nodes : List Node := []
  heights : List Nat := []
  root : Option NodeId := none
  deriving DecidableEq, Inhabited

namespace Arena

/-- The recorded height of a node. -/
def height (a : Arena) (id : NodeId) : Nat :=
  (a.heights[id.toNat]?).getD 0

/-- The height that a node over these parts has. -/
def heightOver (a : Arena) (node : Node) : Nat :=
  1 + (node.children.map a.height).foldl max 0

/-- **Add a node** behind the others. It has the next place, as far as 32 bits hold it. -/
def push (node : Node) (a : Arena) : NodeId × Arena :=
  (UInt32.ofNat a.nodes.length,
    { a with nodes := a.nodes ++ [node], heights := a.heights ++ [a.heightOver node] })

/-- Add a node, unless it is too high. -/
def add (node : Node) (offset : Nat) (a : Arena) : Except ParseError (NodeId × Arena) :=
  if maxDepth < a.heightOver node then .error ⟨offset, .tooDeep⟩ else .ok (a.push node)

end Arena

end Reshape.Formula
