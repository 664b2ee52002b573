/-
# Reshape.Decimal.Double -- the exact value of a float

A finite float is plus or minus `m * 2 ^ q` for natural `m` and integer `q`. Everything that must be
exact is computed on those two numbers: the integral part in each direction, the remainder of a
division, the integer that a whole float equals. The sign is kept apart, so the negative zero
survives.

Not handled: infinities and not-a-number have no parts; each operation says what it does with them.
-/

namespace Reshape.Decimal

/-- `2 ^ n`. -/
def twoTo (n : Nat) : Nat :=
  Nat.pow 2 n

/-- `10 ^ n`. -/
def tenTo (n : Nat) : Nat :=
  Nat.pow 10 n

/-- The parts of a finite float: its value is `mantissa * 2 ^ exponent`, negated when `negative`. -/
structure Parts where
  negative : Bool
  mantissa : Nat
  exponent : Int
  deriving DecidableEq, Repr

/-- The exponent field of the encoding, between 0 and 2047. -/
def exponentField (x : Float) : Nat :=
  (x.toBits.toNat / twoTo 52) % 2048

/-- The fraction field of the encoding. -/
def fractionField (x : Float) : Nat :=
  x.toBits.toNat % twoTo 52

/-- The sign bit, which also tells the two zeros apart. -/
def isNegative (x : Float) : Bool :=
  x.toBits.toNat / twoTo 63 % 2 == 1

/-- **The exact value of a float**, `none` for infinities and not-a-number. -/
def parts? (x : Float) : Option Parts :=
  let e := exponentField x
  let f := fractionField x
  if e = 2047 then none
  else if e = 0 then some ⟨isNegative x, f, -1074⟩
  else some ⟨isNegative x, f + twoTo 52, (e : Int) - 1075⟩

/-- A natural number as a float, negated on demand; the sign stays on zero. -/
def signed (negative : Bool) (n : Nat) : Float :=
  if negative then -(Float.ofNat n) else Float.ofNat n

/-- The power of two with exponent `q`, for `q` from -1074 to 1023. -/
def powerOfTwo (q : Int) : Float :=
  if q < -1022 then Float.ofBits (UInt64.ofNat (twoTo (q + 1074).toNat))
  else Float.ofBits (UInt64.ofNat ((q + 1023).toNat * twoTo 52))

namespace Parts

/-- The magnitude rounded down to a natural number. -/
def down (p : Parts) : Nat :=
  if 0 ≤ p.exponent then p.mantissa * twoTo p.exponent.toNat
  else p.mantissa / twoTo (-p.exponent).toNat

/-- The magnitude is a natural number. -/
def isWhole (p : Parts) : Bool :=
  0 ≤ p.exponent || p.mantissa % twoTo (-p.exponent).toNat == 0

/-- The magnitude rounded up to a natural number. -/
def up (p : Parts) : Nat :=
  if p.isWhole then p.down else p.down + 1

/-- The value rounded toward zero. -/
def toInt (p : Parts) : Int :=
  if p.negative then -(p.down : Int) else p.down

end Parts

/-! ## Rounding to an integer -/

/-- The float is a whole number. -/
def isWhole (x : Float) : Bool :=
  match parts? x with
  | some p => p.isWhole
  | none => false

/-- Round toward zero; infinities and not-a-number stay. -/
def truncate (x : Float) : Float :=
  match parts? x with
  | some p => if p.isWhole then x else signed p.negative p.down
  | none => x

/-- Round down; infinities and not-a-number stay. -/
def floor (x : Float) : Float :=
  match parts? x with
  | some p => if p.isWhole then x else signed p.negative (if p.negative then p.up else p.down)
  | none => x

/-- Round up; infinities and not-a-number stay. -/
def ceiling (x : Float) : Float :=
  match parts? x with
  | some p => if p.isWhole then x else signed p.negative (if p.negative then p.down else p.up)
  | none => x

/-- The float rounded toward zero as an integer; infinities and not-a-number have none. -/
def toInt? (x : Float) : Option Int :=
  (parts? x).map Parts.toInt

/-- The float rounded toward zero and moved into the range from `low` to `high`; not-a-number is
0. -/
def clampToInt (low high : Int) (x : Float) : Int :=
  match toInt? x with
  | some n => max low (min high n)
  | none => if x.isNaN then 0 else if x < 0 then low else high

/-- The largest unsigned 64-bit integer. -/
def maxUnsigned : Nat := twoTo 64 - 1

/-- A position or a count: rounded toward zero, negative numbers become 0. -/
def toCount (x : Float) : Nat :=
  (clampToInt 0 maxUnsigned x).toNat

/-! ## Remainder -/

/-- **The remainder of a division whose quotient is rounded toward zero**, exact, with the sign of
the dividend. Not a number when the divisor is zero or the dividend infinite; an infinite divisor
leaves the dividend. -/
def remainder (x y : Float) : Float :=
  match parts? x, parts? y with
  | some a, some b =>
    if b.mantissa = 0 then Float.ofBits 0x7ff8000000000000
    else
      let q := min a.exponent b.exponent
      let m := a.mantissa * twoTo (a.exponent - q).toNat
      let n := b.mantissa * twoTo (b.exponent - q).toNat
      let r := m % n
      let magnitude := Float.ofNat r * powerOfTwo q
      if a.negative then -magnitude else magnitude
  | some _, none => if y.isNaN then y else x
  | none, _ => Float.ofBits 0x7ff8000000000000

end Reshape.Decimal
