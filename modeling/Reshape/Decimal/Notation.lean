/-
# Reshape.Decimal.Notation -- how digits are laid out

Two ways to write a float from its shortest digits, and one to write it with fixed places.

* `jsonText`: positional from `10 ^ -5` up to below `10 ^ 16`, with a fraction part always;
  otherwise one digit, the rest after a point, and a signed exponent (`1e+16`, `1.25e+22`,
  `5e-324`). Of two equally near shortest texts the one with the even digit is taken.
* `plainText`: positional whatever the size, without a fraction part when there is none. Of two
  equally near shortest texts the larger one is taken.
* `fixedText`: a given number of places, the exact value rounded to nearest, a tie going to the even
  digit. The sign of a negative value stays even if every digit is zero.
* `readableText`: what a reader of a document expects, `plainText` without the sign of zero and with
  the words `NaN`, `Infinity`, `-Infinity`.
-/

import Reshape.Decimal.Shortest

namespace Reshape.Decimal

/-- The character of a decimal digit. -/
def digitChar (d : Nat) : Char :=
  Char.ofNat ('0'.toNat + d)

/-- Digits as text. -/
def digitText (ds : List Nat) : String :=
  String.ofList (ds.map digitChar)

/-- A natural number in decimal. -/
def natText (n : Nat) : String :=
  digitText (digitsOf n)

/-- An integer in decimal. -/
def intText (n : Int) : String :=
  if n < 0 then "-" ++ natText n.natAbs else natText n.natAbs

/-- Positional notation; `fraction` is written after a whole number. -/
def positional (d : Digits) (fraction : String) : String :=
  let n : Int := d.digits.length
  if d.point ≤ 0 then
    "0." ++ digitText (List.replicate (-d.point).toNat 0 ++ d.digits)
  else if d.point < n then
    digitText (d.digits.take d.point.toNat) ++ "." ++ digitText (d.digits.drop d.point.toNat)
  else
    digitText (d.digits ++ List.replicate (d.point - n).toNat 0) ++ fraction

/-- Notation with an exponent that always has a sign. -/
def scientific (d : Digits) : String :=
  let e := d.point - 1
  let tail := match d.digits.drop 1 with
    | [] => ""
    | ds => "." ++ digitText ds
  digitText (d.digits.take 1) ++ tail ++ (if e < 0 then "e-" else "e+") ++ natText e.natAbs

/-- The text before a negative number. -/
def minus (negative : Bool) : String :=
  if negative then "-" else ""

/-- **The text of a float in JSON**; JSON has no infinities and writes them, like not-a-number, as
`null`. -/
def jsonText (x : Float) : String :=
  match parts? x with
  | none => "null"
  | some p =>
    if p.mantissa = 0 then minus p.negative ++ "0.0"
    else
      let d := shortest .even p.mantissa p.exponent
      minus p.negative ++
        (if -5 < d.point && d.point ≤ 16 then positional d ".0" else scientific d)

/-- The text of a float without an exponent. -/
def plainText (x : Float) : String :=
  match parts? x with
  | none => if x.isNaN then "NaN" else minus (isNegative x) ++ "inf"
  | some p =>
    if p.mantissa = 0 then minus p.negative ++ "0"
    else minus p.negative ++ positional (shortest .away p.mantissa p.exponent) ""

/-- **The text of a float for a reader**: whole numbers below `10 ^ 21` are written exactly. -/
def readableText (x : Float) : String :=
  match parts? x with
  | none => if x.isNaN then "NaN" else minus (isNegative x) ++ "Infinity"
  | some p =>
    if p.isWhole && p.down < tenTo 21 then intText p.toInt else plainText x

/-- The digits of a magnitude with `places` after the point: the whole part and the fraction
part. -/
def fixedDigits (p : Parts) (places : Nat) : List Nat × List Nat :=
  let v := (Ratio.mk p.mantissa 1).scale p.exponent places
  let ds := digitsOf (roundDiv v.num v.den .even)
  let padded := List.replicate (places + 1 - ds.length) 0 ++ ds
  (padded.take (padded.length - places), padded.drop (padded.length - places))

/-- **The text of a float with fixed places.** -/
def fixedText (places : Nat) (x : Float) : String :=
  match parts? x with
  | none => plainText x
  | some p =>
    let (whole, fraction) := fixedDigits p places
    minus p.negative ++ digitText whole ++
      (if places = 0 then "" else "." ++ digitText fraction)

end Reshape.Decimal
