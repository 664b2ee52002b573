/-
# Reshape.Formula.Value -- the values that formulas compute with

JSON values, with `undefined` beside `null` and with floats only, among them infinities and
not-a-number. Arrays hold such values; objects keep their JSON.

Operators coerce their operands: `toText` and `toFloat` give a value as text and as a number,
`truthy` tells what counts as true. Strict equality compares without coercion, loose equality with
it.
-/

import Reshape.Json.Loose

namespace Reshape.Formula

/-- **A value of a formula.** -/
inductive Value where
  | undefined
  | null
  | bool (value : Bool)
  | num (value : Float)
  | str (text : List Char)
  | array (items : List Value)
  | object (members : Members)
  deriving Inhabited

namespace Value

/-- Not a number. -/
def nan : Float := Float.ofBits 0x7ff8000000000000

/-- Infinity. -/
def infinity : Float := Float.ofBits 0x7ff0000000000000

/-! ## From and to JSON -/

mutual

/-- The value of a JSON document. -/
def ofJson : Json → Value
  | .null => .null
  | .bool b => .bool b
  | .num n => .num n.toFloat
  | .str s => .str s.toList
  | .arr items => .array (ofItems items)
  | .obj members => .object members

def ofItems : List Json → List Value
  | [] => []
  | x :: xs => ofJson x :: ofItems xs

end

mutual

/-- **The JSON of a value.** What JSON lacks becomes null. -/
def toJson : Value → Json
  | .undefined => .null
  | .null => .null
  | .bool b => .bool b
  | .num x => (Json.ofFloat? x).getD .null
  | .str s => .str (String.ofList s)
  | .array items => .arr (toItems items)
  | .object members => .obj members

def toItems : List Value → List Json
  | [] => []
  | v :: vs => v.toJson :: toItems vs

end

/-! ## Coercions -/

/-- The name of a value's type. -/
def typeName : Value → String
  | .undefined => "undefined"
  | .null => "null"
  | .bool _ => "boolean"
  | .num _ => "number"
  | .str _ => "string"
  | .array _ => "array"
  | .object _ => "object"

/-- What counts as true. -/
def truthy : Value → Bool
  | .undefined => false
  | .null => false
  | .bool b => b
  | .num x => x != 0 && !x.isNaN
  | .str s => !s.isEmpty
  | .array _ => true
  | .object _ => true

mutual

/-- **A value as text.** -/
def toText : Value → List Char
  | .undefined => "undefined".toList
  | .null => "null".toList
  | .bool b => (Json.boolText b).toList
  | .num x => (Decimal.readableText x).toList
  | .str s => s
  | .array items => Text.join [','] (itemTexts items)
  | .object _ => "[object Object]".toList

/-- The items of an array as text; `undefined` and `null` are empty. -/
def itemTexts : List Value → List (List Char)
  | [] => []
  | .undefined :: vs => [] :: itemTexts vs
  | .null :: vs => [] :: itemTexts vs
  | v :: vs => v.toText :: itemTexts vs

end

/-- A letter of ASCII that no decimal has. -/
def isForeignLetter (c : Char) : Bool :=
  let l := Decimal.lowerAscii c
  'a' ≤ l && l ≤ 'z' && l != 'e'

/-- The number of a text. Nothing but blanks is zero; infinity has one spelling; other words are not
numbers. -/
def numberOfText (text : List Char) : Float :=
  let cs := Text.trim text
  if cs.isEmpty then 0
  else if cs = "Infinity".toList || cs = "+Infinity".toList then infinity
  else if cs = "-Infinity".toList then -infinity
  else if cs.any isForeignLetter then nan
  else (Decimal.parseChars? cs).getD nan

/-- **A value as a number.** -/
def toFloat : Value → Float
  | .undefined => nan
  | .null => 0
  | .bool b => if b then 1 else 0
  | .num x => x
  | .str s => numberOfText s
  | .array items => numberOfText (toText (.array items))
  | .object _ => nan

/-! ## Equality and order -/

mutual

/-- **Strict equality**: the same type and the same content; not-a-number equals nothing. -/
def strictEq : Value → Value → Bool
  | .undefined, .undefined => true
  | .null, .null => true
  | .bool a, .bool b => a == b
  | .num a, .num b => a == b
  | .str a, .str b => a == b
  | .array xs, .array ys => strictEqItems xs ys
  | .object ms, .object ns => (Json.obj ms).same (.obj ns)
  | _, _ => false

def strictEqItems : List Value → List Value → Bool
  | [], [] => true
  | x :: xs, y :: ys => x.strictEq y && strictEqItems xs ys
  | _, _ => false

end

/-- Neither `undefined` nor `null`. -/
def isSome : Value → Bool
  | .undefined => false
  | .null => false
  | _ => true

/-- An array or object against a value that is neither: equal when its text is. -/
def textEq (text : List Char) : Value → Bool
  | .num x => numberOfText text == x
  | .str s => text == s
  | _ => false

/-- **Loose equality.** `undefined` and `null` equal each other and nothing else; a truth value, and
a number beside a string, is compared as a number; an array or object beside a number or string by
its text. -/
def looseEq (a b : Value) : Bool :=
  if !a.isSome || !b.isSome then !a.isSome && !b.isSome
  else
    match a, b with
    | .bool _, _ => a.toFloat == b.toFloat
    | _, .bool _ => a.toFloat == b.toFloat
    | .num _, .str _ => a.toFloat == b.toFloat
    | .str _, .num _ => a.toFloat == b.toFloat
    | .array _, .num _ => textEq a.toText b
    | .array _, .str _ => textEq a.toText b
    | .object _, .num _ => textEq a.toText b
    | .object _, .str _ => textEq a.toText b
    | .num _, .array _ => textEq b.toText a
    | .str _, .array _ => textEq b.toText a
    | .num _, .object _ => textEq b.toText a
    | .str _, .object _ => textEq b.toText a
    | _, _ => a.strictEq b

/-- The order of two texts, by characters. -/
def textLess : List Char → List Char → Bool
  | _, [] => false
  | [], _ :: _ => true
  | a :: as, b :: bs => a < b || (a = b && textLess as bs)

/-- One value comes before the other: two strings by characters, all else as numbers. -/
def less (a b : Value) : Bool :=
  match a, b with
  | .str x, .str y => textLess x y
  | _, _ => a.toFloat < b.toFloat

/-- One value comes before the other or at the same place. -/
def lessEq (a b : Value) : Bool :=
  match a, b with
  | .str x, .str y => !textLess y x
  | _, _ => a.toFloat ≤ b.toFloat

end Value

end Reshape.Formula
