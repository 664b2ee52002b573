/-
# Reshape.Decimal.Reader -- floats from text

Two readings of a decimal.

* `parse?` reads a whole text: an optional sign, digits with an optional point, an optional
  exponent; or a word for infinity or not-a-number in any case. At least one digit stands beside the
  point, and an exponent has at least one digit. The result is the float nearest to the decimal,
  ties to even.
* `scaled?` is the rule for numbers in JSON text: the significand, at most 64 bits of it, is rounded
  to a float, and then multiplied with or divided by a power of ten, which rounds once more. The
  result can differ from the nearest float in the last bit. What is too large for a float is
  refused.
-/

import Reshape.Decimal.Double

namespace Reshape.Decimal

/-- A decimal digit of ASCII. -/
def isDigit (c : Char) : Bool :=
  '0' ≤ c && c ≤ '9'

/-- The value of a decimal digit. -/
def digitValue (c : Char) : Nat :=
  c.toNat - '0'.toNat

/-- The number that digit characters denote. -/
def natOfDigits (cs : List Char) : Nat :=
  cs.foldl (fun n c => 10 * n + digitValue c) 0

/-- The leading digits and what follows them. -/
def spanDigits (cs : List Char) : List Char × List Char :=
  cs.span isDigit

/-- The float nearest to `n * 10 ^ e`. Exponents beyond the range of floats are cut off before the
power is computed. -/
def nearest (n : Nat) (e : Int) : Float :=
  if n = 0 then 0.0
  else
    let size : Int := (n.log2 : Int) * 30103 / 100000
    if 400 < size + e then Float.ofBits 0x7ff0000000000000
    else if size + e < -400 then 0.0
    else if e < 0 then Float.ofScientific n true (-e).toNat
    else Float.ofScientific n false e.toNat

/-- An optional sign: whether it is a minus, and what follows it. -/
def spanSign : List Char → Bool × List Char
  | '-' :: cs => (true, cs)
  | '+' :: cs => (false, cs)
  | cs => (false, cs)

/-- A letter of ASCII in lower case. -/
def lowerAscii (c : Char) : Char :=
  if 'A' ≤ c && c ≤ 'Z' then Char.ofNat (c.toNat + 32) else c

/-- The exponent at the end of a decimal: nothing, or the letter, an optional sign and digits. -/
def exponent? : List Char → Option Int
  | [] => some 0
  | c :: cs =>
    if lowerAscii c = 'e' then
      let (negative, cs) := spanSign cs
      match spanDigits cs with
      | ([], _) => none
      | (ds, []) => some (if negative then -(natOfDigits ds : Int) else natOfDigits ds)
      | _ => none
    else none

/-- A decimal without a sign. -/
def magnitude? (cs : List Char) : Option Float :=
  let (whole, rest) := spanDigits cs
  let (fraction, rest) := match rest with
    | '.' :: rest => spanDigits rest
    | rest => ([], rest)
  if whole.isEmpty && fraction.isEmpty then none
  else (exponent? rest).map fun e =>
    nearest (natOfDigits (whole ++ fraction)) (e - fraction.length)

/-- The words for what no decimal denotes. -/
def word? (cs : List Char) : Option Float :=
  let w := String.ofList (cs.map lowerAscii)
  if w = "inf" || w = "infinity" then some (Float.ofBits 0x7ff0000000000000)
  else if w = "nan" then some (Float.ofBits 0x7ff8000000000000)
  else none

/-- **The float that a text denotes.** -/
def parseChars? (cs : List Char) : Option Float :=
  let (negative, rest) := spanSign cs
  let x? := match word? rest with
    | some x => some x
    | none => magnitude? rest
  x?.map fun x => if negative then -x else x

@[inherit_doc parseChars?]
def parse? (text : String) : Option Float :=
  parseChars? text.toList

/-- An unsigned 64-bit integer: an optional plus sign, then digits only. -/
def unsigned? (cs : List Char) : Option Nat :=
  let cs := match cs with
    | '+' :: cs => cs
    | cs => cs
  if cs.isEmpty || !cs.all isDigit then none
  else
    let n := natOfDigits cs
    if n ≤ maxUnsigned then some n else none

/-- `10 ^ n` as a float, for `n` up to 308. -/
def powerOfTen (n : Nat) : Float :=
  Float.ofScientific 1 false n

/-- **A significand times a power of ten, rounded after each step**; `none` when it is too large. -/
def scaled? (significand : Nat) (exponent : Int) : Option Float :=
  let x := Float.ofNat significand
  if exponent < 0 then
    some (shrink 4 x exponent.natAbs)
  else if significand = 0 then some x
  else if 308 < exponent then none
  else
    let y := x * powerOfTen exponent.toNat
    if y.isFinite then some y else none
where
  /-- Divide by `10 ^ n`, by steps of `10 ^ 308`; nothing is left after four of them. -/
  shrink : Nat → Float → Nat → Float
    | 0, x, _ => x
    | fuel + 1, x, n =>
      if n ≤ 308 then x / powerOfTen n
      else if x == 0 then x
      else shrink fuel (x / powerOfTen 308) (n - 308)

end Reshape.Decimal
