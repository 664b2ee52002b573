/-
# Reshape.Wire.Complaint -- what keeps a text from being JSON

The first thing, front to back, that breaks the grammar of `Reshape.Wire.Text`, and where it was
noticed: at a line and at a column, which counts the bytes of the line that were looked at. Lines
count from one.

`firstIn?` finds a complaint about exactly those texts that have no value.
-/

import Reshape.Wire.Text
import Reshape.Text.Search

namespace Reshape.Wire

/-- **What is wrong with a text.** -/
inductive Blemish where
  | openValue
  | openString
  | openArray
  | openObject
  | noValue
  | noWord
  | badNumber
  | hugeNumber
  | bareControl
  | badEscape
  | loneSurrogate
  | brokenPair
  | noKey
  | noColon
  | noCommaInArray
  | noCommaInObject
  | trailingComma
  | trailingText
  | tooDeep
  deriving DecidableEq, Repr

/-- The description of what is wrong. -/
def Blemish.text : Blemish → String
  | .openValue => "EOF while parsing a value"
  | .openString => "EOF while parsing a string"
  | .openArray => "EOF while parsing a list"
  | .openObject => "EOF while parsing an object"
  | .noValue => "expected value"
  | .noWord => "expected ident"
  | .badNumber => "invalid number"
  | .hugeNumber => "number out of range"
  | .bareControl => "control character (\\u0000-\\u001F) found while parsing a string"
  | .badEscape => "invalid escape"
  | .loneSurrogate => "lone leading surrogate in hex escape"
  | .brokenPair => "unexpected end of hex escape"
  | .noKey => "key must be a string"
  | .noColon => "expected `:`"
  | .noCommaInArray => "expected `,` or `]`"
  | .noCommaInObject => "expected `,` or `\x7d`"
  | .trailingComma => "trailing comma"
  | .trailingText => "trailing characters"
  | .tooDeep => "recursion limit exceeded"

/-- **A complaint**: what is wrong, in which line, and how many bytes of the line were looked at. -/
structure Complaint where
  blemish : Blemish
  line : Nat
  column : Nat
  deriving DecidableEq, Repr

namespace Complaint

/-- The message of a complaint. -/
def message (c : Complaint) : String :=
  c.blemish.text ++ " at line " ++ Decimal.natText c.line ++ " column " ++ Decimal.natText c.column

/-- What is left of the text. -/
abbrev Rest := List Char

/-- Where reading stopped: the text that was left then, and how many bytes of it had been looked
at. -/
structure Stop where
  blemish : Blemish
  rest : Rest
  ahead : Nat

/-- Stop before what is left. -/
def stop {α : Type} (b : Blemish) (rest : Rest) : Except Stop α :=
  .error ⟨b, rest, 0⟩

/-- Stop after a look at the next byte. -/
def stopAfter {α : Type} (b : Blemish) (rest : Rest) : Except Stop α :=
  .error ⟨b, rest, 1⟩

/-! ## Words, strings and numbers -/

/-- The rest of a word that stands for a value. -/
def word : (letters : List Char) → Rest → Except Stop Rest
  | [], cs => .ok cs
  | _ :: _, [] => stop .openValue []
  | l :: ls, c :: cs => if l = c then word ls cs else stopAfter .noWord (c :: cs)

/-- Four hexadecimal digits. Their bytes are taken together. -/
def quad (cs : Rest) : Except Stop (Nat × Rest) :=
  let broken := if Text.byteLength cs < 4 then stop .openString [] else .error ⟨.badEscape, cs, 4⟩
  match cs with
  | a :: b :: c :: d :: rest =>
    match Text.hexQuad? a b c d with
    | some n => .ok (n, rest)
    | none => broken
  | _ => broken

/-- What follows the first half of a surrogate pair. -/
def secondHalf : Rest → Except Stop Rest
  | '\\' :: 'u' :: cs => do
    let (n, rest) ← quad cs
    if Text.isLowSurrogate n then return rest else stop .loneSurrogate rest
  | '\\' :: c :: cs => stopAfter .brokenPair (c :: cs)
  | '\\' :: [] => stop .openString []
  | c :: cs => stopAfter .brokenPair (c :: cs)
  | [] => stop .openString []

/-- An escape after its backslash. -/
def escape : Rest → Except Stop Rest
  | [] => stop .openString []
  | 'u' :: cs => do
    let (n, rest) ← quad cs
    if Text.isLowSurrogate n then stop .loneSurrogate rest
    else if Text.isHighSurrogate n then secondHalf rest
    else return rest
  | c :: cs => if (Text.shortEscape? c).isSome then .ok cs else stopAfter .badEscape (c :: cs)

/-- A string after its opening quote. -/
def string : (bound : Nat) → Rest → Except Stop Rest
  | _, [] => stop .openString []
  | 0, cs => stop .openString cs
  | bound + 1, c :: cs =>
    if c = '"' then .ok cs
    else if c = '\\' then do string bound (← escape cs)
    else if c.toNat < 32 then stopAfter .bareControl (c :: cs)
    else string bound cs

/-- Digits, at least one; at the end of the text something is missing, elsewhere something is
wrong. -/
def digits (cs : Rest) : Except Stop (List Char × Rest) :=
  match Decimal.spanDigits cs with
  | ([], []) => stop .openValue []
  | ([], c :: rest) => stopAfter .badNumber (c :: rest)
  | r => .ok r

/-- The fraction of a number, if there is one. -/
def fraction : Rest → Except Stop (Option (List Char) × Rest)
  | '.' :: cs => do
    let (ds, rest) ← digits cs
    return (some ds, rest)
  | cs => .ok (none, cs)

/-- The exponent of a number, if there is one: its sign and its digits. -/
def exponent : Rest → Except Stop (Option (Bool × List Char) × Rest)
  | c :: cs =>
    if c = 'e' || c = 'E' then do
      let (negative, cs) := Decimal.spanSign cs
      let (ds, rest) ← digits cs
      return (some (negative, ds), rest)
    else .ok (none, c :: cs)
  | [] => .ok (none, [])

/-- The digits of an exponent behind the one with which it exceeds 31 bits. -/
def excess (n : Nat) : List Char → List Char
  | [] => []
  | c :: cs =>
    let next := 10 * n + Decimal.digitValue c
    if Decimal.twoTo 31 ≤ next then cs else excess next cs

/-- A number after its sign. -/
def number (cs : Rest) : Except Stop Rest := do
  let (whole, afterWhole) ← digits cs
  if whole.head? = some '0' && whole.length ≠ 1 then stopAfter .badNumber cs.tail
  else
    let (places, afterPlaces) ← fraction afterWhole
    let (power, rest) ← exponent afterPlaces
    let value : Option Int := power.map fun (negative, ds) =>
      if negative then -(Decimal.natOfDigits ds : Int) else Decimal.natOfDigits ds
    match Text.number false whole places value with
    | .valueless => stop .hugeNumber (excess 0 ((power.map (·.2)).getD []) ++ rest)
    | _ => return rest

/-! ## Values -/

mutual

/-- A value; `room` more containers can be entered. -/
def value : (bound : Nat) → (room : Nat) → Rest → Except Stop Rest
  | 0, _, cs => stop .openValue cs
  | bound + 1, room, cs =>
    match Text.skipBlanks cs with
    | [] => stop .openValue []
    | 'n' :: cs => word ['u', 'l', 'l'] cs
    | 't' :: cs => word ['r', 'u', 'e'] cs
    | 'f' :: cs => word ['a', 'l', 's', 'e'] cs
    | '"' :: cs => string cs.length cs
    | '-' :: cs => number cs
    | '[' :: cs =>
      match room with
      | 0 => stopAfter .tooDeep ('[' :: cs)
      | room + 1 => items bound room true cs
    | '\x7b' :: cs =>
      match room with
      | 0 => stopAfter .tooDeep ('\x7b' :: cs)
      | room + 1 => members bound room true cs
    | c :: cs => if Decimal.isDigit c then number (c :: cs) else stopAfter .noValue (c :: cs)

/-- The items of an array that are left; before any but the first one stands a comma. -/
def items : (bound : Nat) → (room : Nat) → (first : Bool) → Rest → Except Stop Rest
  | 0, _, _, cs => stop .openArray cs
  | bound + 1, room, first, cs =>
    match Text.skipBlanks cs, first with
    | [], _ => stop .openArray []
    | ']' :: cs, _ => .ok cs
    | cs, true => do items bound room false (← value bound room cs)
    | ',' :: cs, false =>
      match Text.skipBlanks cs with
      | ']' :: cs => stopAfter .trailingComma (']' :: cs)
      | cs => do items bound room false (← value bound room cs)
    | cs, false => stopAfter .noCommaInArray cs

/-- The members of an object that are left; before any but the first one stands a comma. -/
def members : (bound : Nat) → (room : Nat) → (first : Bool) → Rest → Except Stop Rest
  | 0, _, _, cs => stop .openObject cs
  | bound + 1, room, first, cs =>
    match Text.skipBlanks cs, first with
    | [], _ => stop .openObject []
    | '\x7d' :: cs, _ => .ok cs
    | '"' :: cs, true => do members bound room false (← member bound room cs)
    | cs, true => stopAfter .noKey cs
    | ',' :: cs, false =>
      match Text.skipBlanks cs with
      | '"' :: cs => do members bound room false (← member bound room cs)
      | '\x7d' :: cs => stopAfter .trailingComma ('\x7d' :: cs)
      | [] => stop .openValue []
      | cs => stopAfter .noKey cs
    | cs, false => stopAfter .noCommaInObject cs

/-- A member after the opening quote of its key. -/
def member : (bound : Nat) → (room : Nat) → Rest → Except Stop Rest
  | 0, _, cs => stop .openObject cs
  | bound + 1, room, cs => do
    let afterKey ← string cs.length cs
    match Text.skipBlanks afterKey with
    | [] => stop .openObject []
    | ':' :: cs => value bound room cs
    | cs => stopAfter .noColon cs

end

/-- A text with one value in it. -/
def whole (cs : Rest) : Except Stop Unit := do
  let rest ← value (3 * cs.length + 3) 127 cs
  match Text.skipBlanks rest with
  | [] => return
  | rest => stopAfter .trailingText rest

/-! ## Places -/

/-- The line and the column after some bytes of a text. -/
def place : (bytes : Nat) → (line column : Nat) → List Char → Nat × Nat
  | _, line, column, [] => (line, column)
  | bytes, line, column, c :: cs =>
    if bytes < c.utf8Size then (line, column + bytes)
    else if c = '\n' then place (bytes - c.utf8Size) (line + 1) 0 cs
    else place (bytes - c.utf8Size) line (column + c.utf8Size) cs

/-- **The first complaint about a text**, if it has no value. -/
def firstIn? (text : String) : Option Complaint :=
  let cs := text.toList
  match whole cs with
  | .ok () => none
  | .error s =>
    let (line, column) := place (Text.byteLength cs - Text.byteLength s.rest + s.ahead) 1 0 cs
    some ⟨s.blemish, line, column⟩

/-- What to say about a text that has no value. -/
def about (text : String) : String :=
  match firstIn? text with
  | some c => c.message
  | none => Flaw.malformed.message

end Complaint

end Reshape.Wire
