/-
# Reshape.Proofs.Formula.Grammar -- the derivations of the grammar

The stratified grammar of formulas, with a type of derivations for each of its symbols. A chain of a
level is an operand, or a shorter chain with an operator of the level and one more operand: this is
what makes the level bind to the left. A power has a unary expression on its left and a power on its
right, so it binds to the right.

A derivation has the kinds of tokens that it derives (`kinds`), the tree that it stands for (`tree`)
and the number of constructs that enclose its innermost place (`nesting`). None of the three refers
to the reader of `Reshape.Formula.Reading`.
-/

import Reshape.Formula.Reading

namespace Reshape.Formula.Grammar

/-! ## Words of the grammar -/

/-- `Tighter l l'`: the operands of level `l` are the chains of level `l'`. -/
inductive Tighter : Level → Level → Prop
  | or : Tighter .or .and
  | and : Tighter .and .equality
  | equality : Tighter .equality .relation
  | relation : Tighter .relation .sum
  | sum : Tighter .sum .product

/-- The operators of a level. -/
inductive Operator : Level → Type
  | or : Operator .or
  | and : Operator .and
  | eq : Operator .equality
  | notEq : Operator .equality
  | strictEq : Operator .equality
  | strictNotEq : Operator .equality
  | lt : Operator .relation
  | ltEq : Operator .relation
  | gt : Operator .relation
  | gtEq : Operator .relation
  | add : Operator .sum
  | sub : Operator .sum
  | mul : Operator .product
  | div : Operator .product
  | rem : Operator .product

/-- The sign of an operator. -/
def Operator.kind : {l : Level} → Operator l → Kind
  | _, .or => .orOr
  | _, .and => .andAnd
  | _, .eq => .eqEq
  | _, .notEq => .notEq
  | _, .strictEq => .eqEqEq
  | _, .strictNotEq => .notEqEq
  | _, .lt => .lt
  | _, .ltEq => .ltEq
  | _, .gt => .gt
  | _, .gtEq => .gtEq
  | _, .add => .plus
  | _, .sub => .minus
  | _, .mul => .star
  | _, .div => .slash
  | _, .rem => .percent

/-- The node that an operator makes. -/
def Operator.node : {l : Level} → Operator l → Term → Term → Term
  | _, .or => .logical .or
  | _, .and => .logical .and
  | _, .eq => .binary .eq
  | _, .notEq => .binary .notEq
  | _, .strictEq => .binary .strictEq
  | _, .strictNotEq => .binary .strictNotEq
  | _, .lt => .binary .lt
  | _, .ltEq => .binary .ltEq
  | _, .gt => .binary .gt
  | _, .gtEq => .binary .gtEq
  | _, .add => .binary .add
  | _, .sub => .binary .sub
  | _, .mul => .binary .mul
  | _, .div => .binary .div
  | _, .rem => .binary .rem

/-- The sign before an operand. -/
def signKind : UnaryOp → Kind
  | .neg => .minus
  | .plus => .plus
  | .not => .bang

/-- Names that stand for themselves. -/
inductive Constant where
  | input
  | truth (value : Bool)
  | null
  | undefined
  | nan
  | infinity

/-- The name of a constant. -/
def Constant.name : Constant → String
  | .input => "value"
  | .truth true => "true"
  | .truth false => "false"
  | .null => "null"
  | .undefined => "undefined"
  | .nan => "NaN"
  | .infinity => "Infinity"

/-- The tree of a constant. -/
def Constant.tree : Constant → Term
  | .input => .input
  | .truth b => .bool b
  | .null => .null
  | .undefined => .undefined
  | .nan => .number (Float.ofBits 0x7ff8000000000000)
  | .infinity => .number (Float.ofBits 0x7ff0000000000000)

/-- The name of a function of `Math`. -/
def mathName : MathFunction → String
  | .round => "round"
  | .floor => "floor"
  | .ceil => "ceil"
  | .abs => "abs"
  | .min => "min"
  | .max => "max"
  | .pow => "pow"
  | .sqrt => "sqrt"

/-- The name of a free function. -/
def freeName : FreeFunction → String
  | .number => "Number"
  | .string => "String"
  | .boolean => "Boolean"
  | .parseInt => "parseInt"
  | .parseFloat => "parseFloat"
  | .isNaN => "isNaN"

/-! ## Derivations -/

mutual

/-- **An expression**, with or without a condition. -/
inductive Expression : Type
  | plain (body : Chain .or)
  | choice (test : Chain .or) (yes no : Expression)

/-- A chain of a level. -/
inductive Chain : Level → Type
  | single {l : Level} (operand : Operand l) : Chain l
  | link {l : Level} (left : Chain l) (op : Operator l) (right : Operand l) : Chain l

/-- What stands between the operators of a level. -/
inductive Operand : Level → Type
  | chain {l l' : Level} (h : Tighter l l') (c : Chain l') : Operand l
  | power (p : Power) : Operand .product

/-- A power. -/
inductive Power : Type
  | plain (base : Unary)
  | pow (base : Unary) (exponent : Power)

/-- Signs before something with suffixes. -/
inductive Unary : Type
  | plain (s : Suffixed)
  | signed (op : UnaryOp) (operand : Unary)

/-- A primary with suffixes after it. -/
inductive Suffixed : Type
  | plain (p : Primary)
  | suffix (object : Suffixed) (x : Suffix)

/-- A member, a call of a method, or a position. -/
inductive Suffix : Type
  | member (name : String)
  | method (m : Method) (args : Sequence)
  | index (key : Expression)

/-- A literal, a name, or something in parentheses or brackets. -/
inductive Primary : Type
  | number (x : Float)
  | str (text : String)
  | constant (c : Constant)
  | parens (e : Expression)
  | array (items : Sequence)
  | math (f : MathFunction) (args : Sequence)
  | call (f : FreeFunction) (args : Sequence)

/-- Expressions between commas, if any. -/
inductive Sequence : Type
  | empty
  | items (es : Items)

/-- Expressions between commas, at least one. -/
inductive Items : Type
  | last (e : Expression)
  | more (e : Expression) (es : Items)

end

/-! ## What a derivation derives -/

mutual

/-- **The tokens of an expression**, by their kinds. -/
def Expression.kinds : Expression → List Kind
  | .plain c => c.kinds
  | .choice c y n => c.kinds ++ .question :: (y.kinds ++ .colon :: n.kinds)

def Chain.kinds : {l : Level} → Chain l → List Kind
  | _, .single o => o.kinds
  | _, .link c op o => c.kinds ++ op.kind :: o.kinds

def Operand.kinds : {l : Level} → Operand l → List Kind
  | _, .chain _ c => c.kinds
  | _, .power p => p.kinds

def Power.kinds : Power → List Kind
  | .plain u => u.kinds
  | .pow u p => u.kinds ++ .starStar :: p.kinds

def Unary.kinds : Unary → List Kind
  | .plain s => s.kinds
  | .signed op u => signKind op :: u.kinds

def Suffixed.kinds : Suffixed → List Kind
  | .plain p => p.kinds
  | .suffix s x => s.kinds ++ x.kinds

def Suffix.kinds : Suffix → List Kind
  | .member name => [.dot, .ident name]
  | .method m args => .dot :: .ident m.name :: .lparen :: (args.kinds ++ [.rparen])
  | .index key => .lbracket :: (key.kinds ++ [.rbracket])

def Primary.kinds : Primary → List Kind
  | .number x => [.number x]
  | .str text => [.str text]
  | .constant c => [.ident c.name]
  | .parens e => .lparen :: (e.kinds ++ [.rparen])
  | .array items => .lbracket :: (items.kinds ++ [.rbracket])
  | .math f args =>
    .ident "Math" :: .dot :: .ident (mathName f) :: .lparen :: (args.kinds ++ [.rparen])
  | .call f args => .ident (freeName f) :: .lparen :: (args.kinds ++ [.rparen])

def Sequence.kinds : Sequence → List Kind
  | .empty => []
  | .items es => es.kinds

def Items.kinds : Items → List Kind
  | .last e => e.kinds
  | .more e es => e.kinds ++ .comma :: es.kinds

end

mutual

/-- **The tree of an expression.** -/
def Expression.tree : Expression → Term
  | .plain c => c.tree
  | .choice c y n => .conditional c.tree y.tree n.tree

def Chain.tree : {l : Level} → Chain l → Term
  | _, .single o => o.tree
  | _, .link c op o => op.node c.tree o.tree

def Operand.tree : {l : Level} → Operand l → Term
  | _, .chain _ c => c.tree
  | _, .power p => p.tree

def Power.tree : Power → Term
  | .plain u => u.tree
  | .pow u p => .binary .pow u.tree p.tree

def Unary.tree : Unary → Term
  | .plain s => s.tree
  | .signed op u => .unary op u.tree

def Suffixed.tree : Suffixed → Term
  | .plain p => p.tree
  | .suffix s x => x.node s.tree

/-- The node that a suffix makes of what stands before it. -/
def Suffix.node : Suffix → Term → Term
  | .member name, t => .member t name
  | .method m args, t => .method t m args.trees
  | .index key, t => .index t key.tree

def Primary.tree : Primary → Term
  | .number x => .number x
  | .str text => .str text
  | .constant c => c.tree
  | .parens e => e.tree
  | .array items => .array items.trees
  | .math f args => .math f args.trees
  | .call f args => .call f args.trees

def Sequence.trees : Sequence → List Term
  | .empty => []
  | .items es => es.trees

def Items.trees : Items → List Term
  | .last e => [e.tree]
  | .more e es => e.tree :: es.trees

end

mutual

/-- **The nesting of an expression**: of the expressions, operands of a sign and right sides of a
power that enclose a place, the greatest number. -/
def Expression.nesting : Expression → Nat
  | .plain c => c.nesting + 1
  | .choice c y n => max c.nesting (max y.nesting n.nesting) + 1

def Chain.nesting : {l : Level} → Chain l → Nat
  | _, .single o => o.nesting
  | _, .link c _ o => max c.nesting o.nesting

def Operand.nesting : {l : Level} → Operand l → Nat
  | _, .chain _ c => c.nesting
  | _, .power p => p.nesting

def Power.nesting : Power → Nat
  | .plain u => u.nesting
  | .pow u p => max u.nesting (p.nesting + 1)

def Unary.nesting : Unary → Nat
  | .plain s => s.nesting
  | .signed _ u => u.nesting + 1

def Suffixed.nesting : Suffixed → Nat
  | .plain p => p.nesting
  | .suffix s x => max s.nesting x.nesting

def Suffix.nesting : Suffix → Nat
  | .member _ => 0
  | .method _ args => args.nesting
  | .index key => key.nesting

def Primary.nesting : Primary → Nat
  | .number _ => 0
  | .str _ => 0
  | .constant _ => 0
  | .parens e => e.nesting
  | .array items => items.nesting
  | .math _ args => args.nesting
  | .call _ args => args.nesting

def Sequence.nesting : Sequence → Nat
  | .empty => 0
  | .items es => es.nesting

def Items.nesting : Items → Nat
  | .last e => e.nesting
  | .more e es => max e.nesting es.nesting

end

end Reshape.Formula.Grammar
