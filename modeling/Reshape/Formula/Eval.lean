/-
# Reshape.Formula.Eval -- the value of a formula

Evaluation goes once over the tree, from left to right. `&&`, `||` and the conditional leave out the
side that does not matter. Only three things can fail: reading a property of `undefined` or `null`,
calling a method that the receiver does not have, and a number of digits that `toFixed` does not
take.
-/

import Reshape.Formula.Function
import Reshape.Formula.Reading

namespace Reshape.Formula

/-- The property of a value. -/
def property (object : Value) (name : String) : Except EvalError Value :=
  match object with
  | .undefined => .error (.noProperty name object.typeName)
  | .null => .error (.noProperty name object.typeName)
  | .str s => .ok (if name = "length" then .num (Float.ofNat s.length) else .undefined)
  | .array items => .ok (if name = "length" then .num (Float.ofNat items.length) else .undefined)
  | .object ms => .ok ((ms.get? name).elim .undefined Value.ofJson)
  | _ => .ok .undefined

/-- The position that a key means: a whole number that is not negative. -/
def position? (key : Value) : Option Nat :=
  let x := key.toFloat
  if 0 ≤ x && Decimal.isWhole x then some (Decimal.toCount x) else none

/-- The element of a value: by position in arrays and strings, by name elsewhere. -/
def element (object key : Value) : Except EvalError Value :=
  match object with
  | .array items => .ok (((position? key).bind fun n => items[n]?).getD .undefined)
  | .str s =>
    .ok ((((position? key).bind fun n => s[n]?).map fun c => Value.str [c]).getD .undefined)
  | object => property object (String.ofList key.toText)

/-- A value that makes a sum a text. -/
def isTextual : Value → Bool
  | .str _ => true
  | .array _ => true
  | .object _ => true
  | _ => false

/-- An operator with one operand. -/
def applyUnary (op : UnaryOp) (v : Value) : Value :=
  match op with
  | .neg => .num (-v.toFloat)
  | .plus => .num v.toFloat
  | .not => .bool (!v.truthy)

/-- An operator with two operands. -/
def applyBinary (op : BinaryOp) (a b : Value) : Value :=
  match op with
  | .add =>
    if isTextual a || isTextual b then .str (a.toText ++ b.toText) else .num (a.toFloat + b.toFloat)
  | .sub => .num (a.toFloat - b.toFloat)
  | .mul => .num (a.toFloat * b.toFloat)
  | .div => .num (a.toFloat / b.toFloat)
  | .rem => .num (Decimal.remainder a.toFloat b.toFloat)
  | .pow => .num (a.toFloat.pow b.toFloat)
  | .eq => .bool (a.looseEq b)
  | .notEq => .bool (!a.looseEq b)
  | .strictEq => .bool (a.strictEq b)
  | .strictNotEq => .bool (!a.strictEq b)
  | .lt => .bool (a.less b)
  | .ltEq => .bool (a.lessEq b)
  | .gt => .bool (b.less a)
  | .gtEq => .bool (b.lessEq a)

mutual

/-- **The value of a formula** for an input. -/
def Term.eval (input : Value) : Term → Except EvalError Value
  | .number x => .ok (.num x)
  | .str s => .ok (.str s.toList)
  | .bool b => .ok (.bool b)
  | .null => .ok .null
  | .undefined => .ok .undefined
  | .input => .ok input
  | .array items => do
    let vs ← Term.evalAll input items
    return .array vs
  | .unary op t => do
    let v ← t.eval input
    return applyUnary op v
  | .binary op l r => do
    let a ← l.eval input
    let b ← r.eval input
    return applyBinary op a b
  | .logical op l r => do
    let a ← l.eval input
    if a.truthy == (op == .or) then return a else r.eval input
  | .conditional c y n => do
    let v ← c.eval input
    if v.truthy then y.eval input else n.eval input
  | .member t name => do
    let v ← t.eval input
    property v name
  | .index t key => do
    let v ← t.eval input
    let k ← key.eval input
    element v k
  | .method t m args => do
    let v ← t.eval input
    let vs ← Term.evalAll input args
    callMethod v m vs
  | .math f args => do
    let vs ← Term.evalAll input args
    return .num (callMath f vs)
  | .call f args => do
    let vs ← Term.evalAll input args
    return callFree f vs

/-- The values of several formulas, in order. -/
def Term.evalAll (input : Value) : List Term → Except EvalError (List Value)
  | [] => .ok []
  | t :: ts => do
    let v ← t.eval input
    let vs ← Term.evalAll input ts
    return v :: vs

end

end Reshape.Formula
