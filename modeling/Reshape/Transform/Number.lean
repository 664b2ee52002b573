/-
# Reshape.Transform.Number -- transformations of numbers

Numbers, and strings that hold one, are transformed; all else stays as it is. A result is an integer
whenever it can be one. What has no finite result stays as it is, except that `calculate` fails.
-/

import Reshape.Transform.Settings
import Reshape.Transform.Fault
import Reshape.Json.Loose

namespace Reshape.Transform

/-- The most decimals that rounding and formatting use. -/
def maxDecimals : Nat := 20

/-- Change the number of a value that has one. -/
def mapNumber (f : Float → Float) (value : Json) : Json :=
  ((value.toFloat?.bind fun x => Json.ofFloat? (f x))).getD value

/-- **Round to decimals**, a half upward. -/
def roundTo (decimals : Nat) (x : Float) : Float :=
  let factor := Decimal.powerOfTen (min decimals maxDecimals)
  Decimal.floor (x * factor + 0.5) / factor

/-- The result of an operation; dividing by zero gives zero. -/
def Operation.of (operation : Operation) (x y : Float) : Float :=
  match operation with
  | .add => x + y
  | .subtract => x - y
  | .multiply => x * y
  | .divide => if y == 0 then 0 else x / y
  | .modulo => Decimal.remainder x y
  | .power => x.pow y

/-- **Calculate with the number of a value.** -/
def Calculate.of (s : Calculate) (value : Json) : Except Fault Json :=
  match value.toFloat? with
  | none => .ok value
  | some x =>
    match Json.ofFloat? (s.operation.of x s.value) with
    | some result => .ok result
    | none => .error (.notFinite s.operation x s.value)

/-! ## Digits in groups -/

/-- A group of three digits, counted from the right, begins at a position that is not the first
one. -/
def opensGroup (length position : Nat) : Bool :=
  position ≠ 0 && (position + 3 - length % 3) % 3 = 0

/-- A digit at its position, behind a separator where a group begins. -/
def placed (separator : List Char) (length : Nat) : Char × Nat → List Char
  | (d, position) => if opensGroup length position then separator ++ [d] else [d]

/-- **Put a separator between groups of three digits, counted from the right.** -/
def groupDigits (separator digits : List Char) : List Char :=
  if separator.isEmpty || digits.length ≤ 3 then digits
  else digits.zipIdx.flatMap (placed separator digits.length)

/-- The text of a decimal in parts: the sign, the whole part, and the rest from the point on. -/
def decimalParts (text : List Char) : List Char × List Char × List Char :=
  match Text.dropStart? ['-'] text with
  | some magnitude => (['-'], magnitude.span (· ≠ '.'))
  | none => ([], text.span (· ≠ '.'))

/-- The text of a number. -/
def NumberFormat.text (s : NumberFormat) (x : Float) : String :=
  let fixed := Decimal.fixedText (min s.decimals maxDecimals) x
  let (sign, whole, rest) := decimalParts fixed.toList
  let separator := (s.thousandSeparator.getD ",").toList
  s.front.getD "" ++ String.ofList (sign ++ groupDigits separator whole ++ rest) ++ s.back.getD ""

/-- **Format the number of a value.** -/
def NumberFormat.of (s : NumberFormat) (value : Json) : Json :=
  match value.toFloat? with
  | some x => .str (s.text x)
  | none => value

end Reshape.Transform
