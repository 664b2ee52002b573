/-
# Reshape.Json.Printer -- JSON text

Two layouts of a value: `compact`, without any blank, and `pretty`, with one item or member a line
and a given indentation per level. Strings are written as they are except for the quote, the
backslash and control characters below the space. Empty arrays and objects stay on one line in both
layouts.
-/

import Reshape.Json.Basic
import Reshape.Decimal.Notation
import Reshape.Text.Quoted

namespace Reshape

/-- The text of a number. -/
def Number.text : Number → String
  | .int n => Decimal.intText n
  | .float x => Decimal.jsonText x

namespace Json

/-- One character of a JSON string. -/
def escapeChar (c : Char) : List Char :=
  if c = '"' then ['\\', '"']
  else if c = '\\' then ['\\', '\\']
  else if c = '\x08' then ['\\', 'b']
  else if c = '\x0c' then ['\\', 'f']
  else if c = '\n' then ['\\', 'n']
  else if c = '\r' then ['\\', 'r']
  else if c = '\t' then ['\\', 't']
  else if c.toNat < 32 then
    let digits := Text.hexText c.toNat
    ['\\', 'u'] ++ List.replicate (4 - digits.length) '0' ++ digits
  else [c]

/-- A JSON string with its quotes. -/
def stringText (s : String) : String :=
  "\"" ++ String.ofList (s.toList.flatMap escapeChar) ++ "\""

/-! ## Compact layout -/

mutual

/-- **The text of a value without blanks.** -/
def compact : Json → String
  | .null => "null"
  | .bool true => "true"
  | .bool false => "false"
  | .num n => n.text
  | .str s => stringText s
  | .arr items => "[" ++ ",".intercalate (compactItems items) ++ "]"
  | .obj members => "\x7b" ++ ",".intercalate (compactMembers members) ++ "\x7d"

def compactItems : List Json → List String
  | [] => []
  | x :: xs => x.compact :: compactItems xs

def compactMembers : List (String × Json) → List String
  | [] => []
  | (key, x) :: ms => (stringText key ++ ":" ++ x.compact) :: compactMembers ms

end

/-! ## Indented layout -/

/-- Blocks, one a line, between two brackets. -/
def block (opening closing inner outer : String) (lines : List String) : String :=
  if lines.isEmpty then opening ++ closing
  else
    opening ++ "\n" ++ inner ++ (",\n" ++ inner).intercalate lines ++ "\n" ++ outer ++ closing

mutual

/-- The text of a value whose first line stands after `outer`; each level adds `step`. -/
def indented (step outer : String) : Json → String
  | .arr items =>
    block "[" "]" (outer ++ step) outer (indentedItems step (outer ++ step) items)
  | .obj members =>
    block "\x7b" "\x7d" (outer ++ step) outer (indentedMembers step (outer ++ step) members)
  | .null => "null"
  | .bool true => "true"
  | .bool false => "false"
  | .num n => n.text
  | .str s => stringText s

def indentedItems (step outer : String) : List Json → List String
  | [] => []
  | x :: xs => x.indented step outer :: indentedItems step outer xs

def indentedMembers (step outer : String) : List (String × Json) → List String
  | [] => []
  | (key, x) :: ms =>
    (stringText key ++ ": " ++ x.indented step outer) :: indentedMembers step outer ms

end

/-- **The text of a value with `width` spaces per level.** -/
def pretty (width : Nat) (value : Json) : String :=
  value.indented (String.ofList (List.replicate width ' ')) ""

end Json

end Reshape
