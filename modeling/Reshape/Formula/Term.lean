/-
# Reshape.Formula.Term -- the tree of a formula

A formula as a tree. Names that may be called are a closed set each: methods, functions of `Math`,
and free functions; anything else is refused when the tree is read, so a tree holds only what
evaluation knows.

`size` counts the nodes and `height` the levels. Parentheses leave no node.
-/

namespace Reshape.Formula

inductive UnaryOp where
  | neg
  | plus
  | not
  deriving DecidableEq, Repr

inductive BinaryOp where
  | add
  | sub
  | mul
  | div
  | rem
  | pow
  | eq
  | notEq
  | strictEq
  | strictNotEq
  | lt
  | ltEq
  | gt
  | gtEq
  deriving DecidableEq, Repr

/-- Operators that evaluate their right side only when it matters. -/
inductive LogicalOp where
  | and
  | or
  deriving DecidableEq, Repr

/-- Methods of strings, numbers and arrays. -/
inductive Method where
  | toUpperCase
  | toLowerCase
  | trim
  | includes
  | startsWith
  | endsWith
  | slice
  | substring
  | split
  | join
  | replace
  | toFixed
  | toString
  | indexOf
  deriving DecidableEq, Repr

/-- The methods with their names. -/
def Method.table : List (String × Method) :=
  [("toUpperCase", .toUpperCase), ("toLowerCase", .toLowerCase), ("trim", .trim),
    ("includes", .includes), ("startsWith", .startsWith), ("endsWith", .endsWith),
    ("slice", .slice), ("substring", .substring), ("split", .split), ("join", .join), ("replace", .replace),
    ("toFixed", .toFixed), ("toString", .toString), ("indexOf", .indexOf)]

/-- The method of a name. -/
def Method.ofName? (name : String) : Option Method :=
  Method.table.lookup name

/-- The name of a method. -/
def Method.name (m : Method) : String :=
  ((Method.table.find? fun e => e.2 = m).map Prod.fst).getD ""

/-- Functions of `Math`. -/
inductive MathFunction where
  | round
  | floor
  | ceil
  | abs
  | min
  | max
  | pow
  | sqrt
  deriving DecidableEq, Repr

/-- The function of `Math` with a name. -/
def MathFunction.ofName? (name : String) : Option MathFunction :=
  [("round", .round), ("floor", .floor), ("ceil", .ceil), ("abs", .abs), ("min", .min),
    ("max", .max), ("pow", .pow), ("sqrt", MathFunction.sqrt)].lookup name

/-- Functions that are called by their names alone. -/
inductive FreeFunction where
  | number
  | string
  | boolean
  | parseInt
  | parseFloat
  | isNaN
  deriving DecidableEq, Repr

/-- The free function with a name. -/
def FreeFunction.ofName? (name : String) : Option FreeFunction :=
  [("Number", .number), ("String", .string), ("Boolean", .boolean), ("parseInt", .parseInt),
    ("parseFloat", .parseFloat), ("isNaN", FreeFunction.isNaN)].lookup name

/-- **The tree of a formula.** `input` is the value that the formula is applied to. -/
inductive Term where
  | number (value : Float)
  | str (text : String)
  | bool (value : Bool)
  | null
  | undefined
  | input
  | array (items : List Term)
  | unary (op : UnaryOp) (operand : Term)
  | binary (op : BinaryOp) (left right : Term)
  | logical (op : LogicalOp) (left right : Term)
  | conditional (test yes no : Term)
  | member (object : Term) (name : String)
  | index (object key : Term)
  | method (receiver : Term) (method : Method) (args : List Term)
  | math (function : MathFunction) (args : List Term)
  | call (function : FreeFunction) (args : List Term)
  deriving Inhabited

namespace Term

mutual

/-- The number of nodes. -/
def size : Term → Nat
  | .array items => sizes items + 1
  | .unary _ t => t.size + 1
  | .binary _ l r => l.size + r.size + 1
  | .logical _ l r => l.size + r.size + 1
  | .conditional c y n => c.size + y.size + n.size + 1
  | .member t _ => t.size + 1
  | .index t k => t.size + k.size + 1
  | .method t _ args => t.size + sizes args + 1
  | .math _ args => sizes args + 1
  | .call _ args => sizes args + 1
  | _ => 1

def sizes : List Term → Nat
  | [] => 0
  | t :: ts => t.size + sizes ts

end

mutual

/-- The number of levels. -/
def height : Term → Nat
  | .array items => heights items + 1
  | .unary _ t => t.height + 1
  | .binary _ l r => max l.height r.height + 1
  | .logical _ l r => max l.height r.height + 1
  | .conditional c y n => max c.height (max y.height n.height) + 1
  | .member t _ => t.height + 1
  | .index t k => max t.height k.height + 1
  | .method t _ args => max t.height (heights args) + 1
  | .math _ args => heights args + 1
  | .call _ args => heights args + 1
  | _ => 1

/-- The greatest height of several trees. -/
def heights : List Term → Nat
  | [] => 0
  | t :: ts => max t.height (heights ts)

end

end Term

end Reshape.Formula
