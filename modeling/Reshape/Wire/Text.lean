/-
# Reshape.Wire.Text -- drafts from JSON text

Reads JSON text into a draft. The grammar is that of the standard, without extensions: blanks are
space, tab, line feed and return; a number has no superfluous zero and at least one digit beside its
point; a string holds no bare control character. A number with a point or an exponent, one that
exceeds 64 bits, and `-0` are floats.

Every reader returns what follows its part, or nothing after a fault. The nesting of the text is
unknown beforehand, so the recursion runs on a bound that its length provides.
-/

import Reshape.Wire.Draft
import Reshape.Decimal.Reader

namespace Reshape.Wire.Text

/-- A part that was read, with the text that follows; nothing follows a fault. -/
structure Reading (α : Type) where
  part : α
  rest : Option (List Char)

/-- A fault. -/
def Reading.fault : Reading Draft := ⟨.fault, none⟩

/-! ## Blanks and words -/

/-- The blanks of JSON. -/
def isBlank (c : Char) : Bool :=
  c = ' ' || c = '\t' || c = '\n' || c = '\r'

/-- Drop blanks at the start. -/
def skipBlanks (cs : List Char) : List Char :=
  cs.dropWhile isBlank

/-- A word that stands for a value. -/
def word (spelling : String) (value : Draft) (cs : List Char) : Reading Draft :=
  if spelling.toList.isPrefixOf cs then ⟨value, some (cs.drop spelling.length)⟩ else .fault

/-! ## Strings -/

/-- The number of four hexadecimal digits. -/
def hexQuad? (a b c d : Char) : Option Nat := do
  let a ← Reshape.Text.hexValue? a
  let b ← Reshape.Text.hexValue? b
  let c ← Reshape.Text.hexValue? c
  let d ← Reshape.Text.hexValue? d
  return ((a * 16 + b) * 16 + c) * 16 + d

/-- The first half of a surrogate pair. -/
def isHighSurrogate (n : Nat) : Bool := 0xD800 ≤ n && n ≤ 0xDBFF

/-- The second half of a surrogate pair. -/
def isLowSurrogate (n : Nat) : Bool := 0xDC00 ≤ n && n ≤ 0xDFFF

/-- The character that a surrogate pair stands for. -/
def joinSurrogates (high low : Nat) : Char :=
  Char.ofNat ((high - 0xD800) * 0x400 + (low - 0xDC00) + 0x10000)

/-- The character of an escape with one letter. -/
def shortEscape? : Char → Option Char
  | '"' => some '"'
  | '\\' => some '\\'
  | '/' => some '/'
  | 'b' => some '\x08'
  | 'f' => some '\x0c'
  | 'n' => some '\n'
  | 'r' => some '\r'
  | 't' => some '\t'
  | _ => none

/-- Put a character in front of a string; `none` stands for half of a pair and spoils the string. -/
def push (c : Option Char) (r : Option (Option (List Char) × List Char)) :
    Option (Option (List Char) × List Char) :=
  r.map fun (text, rest) => (do return (← c) :: (← text), rest)

/-- The text after an opening quote up to the closing one, and what follows. `none` is a fault; a
text of `none` has half of a surrogate pair. -/
def stringBody : List Char → Option (Option (List Char) × List Char)
  | [] => none
  | '"' :: cs => some (some [], cs)
  | '\\' :: 'u' :: a :: b :: c :: d :: '\\' :: 'u' :: e :: f :: g :: h :: cs =>
    match hexQuad? a b c d, hexQuad? e f g h with
    | some m, some n =>
      if isHighSurrogate m && isLowSurrogate n then push (some (joinSurrogates m n)) (stringBody cs)
      else push (single m) (stringBody ('\\' :: 'u' :: e :: f :: g :: h :: cs))
    | _, _ => none
  | '\\' :: 'u' :: a :: b :: c :: d :: cs =>
    match hexQuad? a b c d with
    | some m => push (single m) (stringBody cs)
    | none => none
  | '\\' :: c :: cs =>
    match shortEscape? c with
    | some e => push (some e) (stringBody cs)
    | none => none
  | c :: cs => if c.toNat < 32 then none else push (some c) (stringBody cs)
termination_by cs => cs.length
where
  /-- The character of a single escape, unless it is half of a pair. -/
  single (n : Nat) : Option Char :=
    if isHighSurrogate n || isLowSurrogate n then none else some (Char.ofNat n)

/-! ## Numbers -/

/-- Take digits while the number stays below `2 ^ 64`; the digits that are left. -/
def takeDigits (n : Nat) : List Char → Nat × List Char
  | [] => (n, [])
  | c :: cs =>
    let next := 10 * n + Decimal.digitValue c
    if next ≤ Decimal.maxUnsigned then takeDigits next cs else (n, c :: cs)

/-- A number from its digits. Without fraction and exponent it is an integer if 64 bits hold it. -/
def number (negative : Bool) (whole : List Char) (fraction : Option (List Char))
    (exponent : Option Int) : Draft :=
  let (n, spare) := takeDigits 0 whole
  let float (significand : Nat) (e : Int) : Draft :=
    match Decimal.scaled? significand e with
    | some x => .num (.float (if negative then -x else x))
    | none => .valueless
  match fraction, exponent with
  | none, none =>
    if !spare.isEmpty then float n spare.length
    else if !negative then .num (.int n)
    else if n = 0 || Decimal.twoTo 63 < n then .num (.float (-(Float.ofNat n)))
    else .num (.int (-n))
  | _, _ =>
    let fraction := fraction.getD []
    let (m, left) := takeDigits n fraction
    float m (spare.length - ((fraction.length - left.length : Nat) : Int) + exponent.getD 0)

/-- The digits after a point, if there is one: `none` is a fault. -/
def fractionPart (cs : List Char) : Option (Option (List Char) × List Char) :=
  match cs with
  | '.' :: cs =>
    match Decimal.spanDigits cs with
    | ([], _) => none
    | (ds, cs) => some (some ds, cs)
  | cs => some (none, cs)

/-- The exponent, if there is one: `none` is a fault. -/
def exponentPart (cs : List Char) : Option (Option Int × List Char) :=
  match cs with
  | c :: cs' =>
    if c = 'e' || c = 'E' then
      let (negative, cs') := Decimal.spanSign cs'
      match Decimal.spanDigits cs' with
      | ([], _) => none
      | (ds, cs') =>
        let n : Int := Decimal.natOfDigits ds
        some (some (if negative then -n else n), cs')
    else some (none, cs)
  | [] => some (none, cs)

/-- A number after its sign. -/
def unsignedNumber (negative : Bool) (cs : List Char) : Reading Draft :=
  match Decimal.spanDigits cs with
  | ([], _) => .fault
  | ('0' :: _ :: _, _) => .fault
  | (whole, cs) =>
    match fractionPart cs with
    | none => .fault
    | some (fraction, cs) =>
      match exponentPart cs with
      | none => .fault
      | some (exponent, cs) => ⟨number negative whole fraction exponent, some cs⟩

/-! ## Values -/

/-- A string in a place where a value stands. -/
def string (cs : List Char) : Reading Draft :=
  match stringBody cs with
  | some (some text, cs) => ⟨.str (String.ofList text), some cs⟩
  | some (none, cs) => ⟨.valueless, some cs⟩
  | none => .fault

mutual

/-- A value and what follows it. -/
def value : (bound : Nat) → List Char → Reading Draft
  | 0, _ => .fault
  | bound + 1, cs =>
    match skipBlanks cs with
    | 'n' :: cs => word "ull" .null cs
    | 't' :: cs => word "rue" (.bool true) cs
    | 'f' :: cs => word "alse" (.bool false) cs
    | '"' :: cs => string cs
    | '-' :: cs => unsignedNumber true cs
    | '[' :: cs =>
      match skipBlanks cs with
      | ']' :: cs => ⟨.arr [] true, some cs⟩
      | cs =>
        let r := items bound cs
        ⟨.arr r.part r.rest.isSome, r.rest⟩
    | '\x7b' :: cs =>
      match skipBlanks cs with
      | '\x7d' :: cs => ⟨.obj [] true, some cs⟩
      | cs =>
        let r := members bound cs
        ⟨.obj r.part r.rest.isSome, r.rest⟩
    | cs => unsignedNumber false cs

/-- The items of an array up to its bracket. -/
def items : (bound : Nat) → List Char → Reading (List Draft)
  | 0, _ => ⟨[], none⟩
  | bound + 1, cs =>
    let first := value bound cs
    match first.rest.map skipBlanks with
    | some (']' :: cs) => ⟨[first.part], some cs⟩
    | some (',' :: cs) =>
      let others := items bound cs
      ⟨first.part :: others.part, others.rest⟩
    | _ => ⟨[first.part], none⟩

/-- The members of an object up to its brace. -/
def members : (bound : Nat) → List Char → Reading (List (Option String × Draft))
  | 0, _ => ⟨[], none⟩
  | bound + 1, cs =>
    match skipBlanks cs with
    | '"' :: cs =>
      match stringBody cs with
      | none => ⟨[], none⟩
      | some (text, cs) =>
        let key := text.map String.ofList
        match skipBlanks cs with
        | ':' :: cs =>
          let first := value bound cs
          match first.rest.map skipBlanks with
          | some ('\x7d' :: cs) => ⟨[(key, first.part)], some cs⟩
          | some (',' :: cs) =>
            let others := members bound cs
            ⟨(key, first.part) :: others.part, others.rest⟩
          | _ => ⟨[(key, first.part)], none⟩
        | _ => ⟨[(key, .fault)], none⟩
    | _ => ⟨[], none⟩

end

/-- **The draft of a text**, and whether nothing but blanks follows it. -/
def read (text : String) : Draft × Bool :=
  let cs := text.toList
  let r := value (2 * cs.length + 2) cs
  (r.part, match r.rest with
    | some rest => (skipBlanks rest).isEmpty
    | none => false)

/-- **The value of a text.** -/
def parse (text : String) : Except Flaw Json :=
  let (draft, ended) := read text
  do
    let value ← draft.toJson .wholeText
    Draft.ending ended
    return value

end Reshape.Wire.Text
