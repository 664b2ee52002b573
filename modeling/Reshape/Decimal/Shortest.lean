/-
# Reshape.Decimal.Shortest -- the fewest digits that read back

`shortest m q` gives the decimal digits of `m * 2 ^ q` that reading rounds back to the same float:
as few of them as possible, and among those the nearest. A decimal reads back when it lies between
the halfway points to the two neighbouring floats; the halfway points count when `m` is even,
because reading rounds ties to even. Below a power of two the neighbour is at half the distance.

The search tries 1, 2, ... 17 digits. On the grid of decimals with that many digits only the two
neighbours of the value can be the nearest hit, so each step compares two candidates, in exact
arithmetic of naturals. Seventeen digits always suffice. A value exactly between the two candidates
is a tie, which the caller decides.
-/

import Reshape.Decimal.Double

namespace Reshape.Decimal

/-- Digits with a decimal exponent: `0.d₁d₂… * 10 ^ point`. The first digit of a nonzero value is
not zero, and neither is the last. -/
structure Digits where
  digits : List Nat
  point : Int
  deriving DecidableEq, Repr

/-- The decimal digits of `n`, most significant first; zero has the digit 0. -/
def digitsOf (n : Nat) : List Nat :=
  (Nat.toDigits 10 n).map fun c => c.toNat - '0'.toNat

/-- Drop the zeros at the end. -/
def dropTrailingZeros (ds : List Nat) : List Nat :=
  (ds.reverse.dropWhile (· == 0)).reverse

/-- A quotient of naturals, `num / den`, that stands for a positive rational. -/
structure Ratio where
  num : Nat
  den : Nat

/-- `r * 2 ^ a * 10 ^ b`. -/
def Ratio.scale (r : Ratio) (a b : Int) : Ratio :=
  ⟨r.num * twoTo a.toNat * tenTo b.toNat, r.den * twoTo (-a).toNat * tenTo (-b).toNat⟩

/-- The interval of reals that round to a float, with the float inside. -/
structure Rounding where
  low : Ratio
  value : Ratio
  high : Ratio
  closed : Bool

/-- The interval of `m * 2 ^ q`. The lower neighbour of a power of two is nearer than the upper one,
unless both are subnormal. -/
def Rounding.of (m : Nat) (q : Int) : Rounding :=
  let gap := if m = twoTo 52 ∧ -1074 < q then 1 else 2
  { low := (Ratio.mk (4 * m - gap) 4).scale q 0
    value := (Ratio.mk m 1).scale q 0
    high := (Ratio.mk (4 * m + 2) 4).scale q 0
    closed := m % 2 == 0 }

/-- `n * 10 ^ e` lies in the interval. -/
def Rounding.contains (r : Rounding) (n : Nat) (e : Int) : Bool :=
  let x := (Ratio.mk n 1).scale 0 e
  let a := r.low.num * x.den
  let b := x.num * r.low.den
  let c := x.num * r.high.den
  let d := r.high.num * x.den
  if r.closed then a ≤ b && c ≤ d else a < b && c < d

/-- Which of two equally near neighbours is taken: the one away from zero, or the even one. -/
inductive Tie where
  | away
  | even
  deriving DecidableEq

/-- The quotient rounded to nearest. -/
def roundDiv (num den : Nat) (tie : Tie) : Nat :=
  let n := num / den
  let twice := 2 * (num % den)
  if twice < den then n
  else if den < twice then n + 1
  else match tie with
    | .away => n + 1
    | .even => if n % 2 = 0 then n else n + 1

/-- The nearer of the two grid neighbours of the value among those that read back, if any. -/
def Rounding.hit? (r : Rounding) (tie : Tie) (e : Int) : Option Nat :=
  let v := r.value.scale 0 (-e)
  let n := v.num / v.den
  let below := r.contains n e
  let above := r.contains (n + 1) e
  if below && above then some (roundDiv v.num v.den tie)
  else if below then some n
  else if above then some (n + 1)
  else none

/-- The decimal exponent just above the value: `10 ^ (k - 1) ≤ value < 10 ^ k`. The estimate comes
from the binary length and is off by at most a few, which the two loops mend. -/
def decimalPoint (v : Ratio) : Int :=
  let estimate : Int := ((v.num.log2 : Int) - v.den.log2) * 30103 / 100000
  let tooSmall (k : Int) : Bool :=
    let x := v.scale 0 (-k)
    x.den ≤ x.num
  let rec raise : Nat → Int → Int
    | 0, k => k
    | fuel + 1, k => if tooSmall k then raise fuel (k + 1) else k
  raise 6 (estimate - 2)

/-- The first grid with a hit, from `count` digits on. -/
def searchDigits (r : Rounding) (tie : Tie) (point : Int) : (fuel count : Nat) → Digits
  | 0, _ => ⟨digitsOf (r.value.num / r.value.den), point⟩
  | fuel + 1, count =>
    match r.hit? tie (point - count) with
    | some n =>
      let ds := digitsOf n
      ⟨dropTrailingZeros ds, point + (ds.length - count : Int)⟩
    | none => searchDigits r tie point fuel (count + 1)

/-- **The fewest digits that read back** of the positive value `m * 2 ^ q`. -/
def shortest (tie : Tie) (m : Nat) (q : Int) : Digits :=
  let r := Rounding.of m q
  searchDigits r tie (decimalPoint r.value) 18 1

example : shortest .even (twoTo 52) (-52) = ⟨[1], 1⟩ := by decide +kernel
example : shortest .even 1 (-1074) = ⟨[5], -323⟩ := by decide +kernel

end Reshape.Decimal
