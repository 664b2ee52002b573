/-
# Reshape.Json.Loose -- values as text and as numbers

The coercions that transformations and conditions share. `display` is a value as a user reads it:
strings as they are, numbers without a superfluous `.0`, arrays joined by commas with nothing for
null, objects as JSON. `toFloat?` is the number in a value: a number, or a string that holds one.
`ofFloat?` is the JSON number of a float, an integer whenever the float equals one of 64 bits.
-/

import Reshape.Json.Printer
import Reshape.Decimal.Reader
import Reshape.Text.Search

namespace Reshape.Json

/-- The text of a truth value. -/
def boolText (b : Bool) : String :=
  if b then "true" else "false"

mutual

/-- **A value as a user reads it.** -/
def display : Json → String
  | .null => "null"
  | .bool b => boolText b
  | .num (.int n) => Decimal.intText n
  | .num (.float x) => Decimal.readableText x
  | .str s => s
  | .arr items => ",".intercalate (displayItems items)
  | .obj members => compact (.obj members)

/-- The items of an array as they stand between commas. -/
def displayItems : List Json → List String
  | [] => []
  | .null :: xs => "" :: displayItems xs
  | x :: xs => x.display :: displayItems xs

end

/-- The finite number that a text holds between blanks. -/
def textFloat? (text : List Char) : Option Float :=
  match Text.trim text with
  | [] => none
  | cs => (Decimal.parseChars? cs).filter Float.isFinite

/-- **The number in a value.** -/
def toFloat? : Json → Option Float
  | .num n => some n.toFloat
  | .str s => textFloat? s.toList
  | _ => none

/-- **The JSON number of a float**; there is none for infinities and not-a-number. -/
def ofFloat? (x : Float) : Option Json :=
  match Decimal.parts? x with
  | none => none
  | some p =>
    if p.isWhole && p.down < Decimal.twoTo 63 then some (.num (.int p.toInt))
    else some (.num (.float x))

end Reshape.Json
