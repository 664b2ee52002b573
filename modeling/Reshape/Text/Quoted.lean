/-
# Reshape.Text.Quoted -- texts in messages

A text inside a message stands between double quotes. The quote and the backslash get a backslash,
the common control characters their letters, and whatever cannot be shown by itself, or would attach
to the character before it, is written as its number: `\u{200b}`.
-/

import Reshape.Text.Category

namespace Reshape.Text

/-- A number in lower-case hexadecimal. -/
def hexText (n : Nat) : List Char :=
  Nat.toDigits 16 n

/-- One character inside quotes. -/
def quoteChar (c : Char) : List Char :=
  if c = '"' then ['\\', '"']
  else if c = '\\' then ['\\', '\\']
  else if c = '\n' then ['\\', 'n']
  else if c = '\r' then ['\\', 'r']
  else if c = '\t' then ['\\', 't']
  else if c = '\x00' then ['\\', '0']
  else if isExtender c || !isShowable c then ['\\', 'u', '\x7b'] ++ hexText c.toNat ++ ['\x7d']
  else [c]

/-- **A text between quotes**, as messages show it. -/
def quoted (text : String) : String :=
  String.ofList ('"' :: text.toList.flatMap quoteChar ++ ['"'])

end Reshape.Text
