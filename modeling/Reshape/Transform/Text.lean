/-
# Reshape.Transform.Text -- transformations of texts

Strings are transformed as they are, numbers and truth values by the text that a user reads. All
else has no text and stays as it is, except that `concatenate` joins the items of arrays.
-/

import Reshape.Transform.Settings
import Reshape.Transform.Fault
import Reshape.Json.Loose
import Reshape.Pattern.Replacement

namespace Reshape.Transform

/-- The text of a value, if it has one. -/
def textOf? : Json → Option (List Char)
  | .str s => some s.toList
  | .num n => some (Json.num n).display.toList
  | .bool b => some (Json.boolText b).toList
  | _ => none

/-- Change the text of a value that has one. -/
def mapText (f : List Char → List Char) (value : Json) : Json :=
  match textOf? value with
  | some cs => .str (String.ofList (f cs))
  | none => value

/-! ## Case -/

/-- A word with a capital first letter and small others. -/
def capitalizeWord : List Char → List Char
  | [] => []
  | c :: cs => Text.upperChar c ++ cs.flatMap Text.lowerChar

/-- **Every word with a capital first letter**, with one space between two words. -/
def capitalizeWords (cs : List Char) : List Char :=
  Text.join [' '] (((Text.splitChar ' ' cs).filter (!·.isEmpty)).map capitalizeWord)

/-! ## Parts -/

/-- The characters from a position on, or from the start if it is negative. -/
def Substring.of (s : Substring) (cs : List Char) : List Char :=
  let tail := cs.drop s.start.toNat
  match s.length with
  | some n => tail.take n.toNat
  | none => tail

/-- A piece of the text; without a delimiter every character is one. A piece that is not there is
empty. -/
def Split.of (s : Split) (cs : List Char) : List Char :=
  if s.index < 0 then []
  else
    let pieces :=
      if s.delimiter.isEmpty then cs.map fun c => [c] else Text.split s.delimiter.toList cs
    (pieces[s.index.toNat]?).getD []

/-! ## Replacement -/

/-- A flag is set; without any, replacement goes on to the end of the text. -/
def Replace.hasFlag (s : Replace) (flag : Char) : Bool :=
  (s.flags.getD "g").toList.contains flag

/-- The modes that the flags ask for. -/
def Replace.modes (s : Replace) : Pattern.Modes :=
  { ignoreCase := s.hasFlag 'i', multiLine := s.hasFlag 'm', dotAll := s.hasFlag 's' }

/-- **Replace in the text of a value.** Finding nothing to look for, it changes nothing. -/
def Replace.of (s : Replace) (value : Json) : Except Fault Json :=
  match textOf? value with
  | none => .ok value
  | some cs =>
    if s.find.isEmpty then .ok value
    else if !s.regex then
      .ok (.str (String.ofList (Text.replaceAll s.find.toList s.replaceWith.toList cs)))
    else
      match Pattern.ofText s.modes s.find with
      | .error fault => .error (.badPattern s.find fault)
      | .ok p => .ok (.str (String.ofList (p.replace (s.hasFlag 'g') s.replaceWith.toList cs)))

/-! ## Concatenation -/

/-- The text between the two ends: the items of an array joined, nulls left out. -/
def Concatenate.body? (s : Concatenate) : Json → Option String
  | .arr items => some (s.separator.intercalate ((items.filter (!·.isNull)).map Json.display))
  | .null => none
  | .obj _ => none
  | value => some value.display

/-- **Join the items of a value and put ends around it.** -/
def Concatenate.of (s : Concatenate) (value : Json) : Json :=
  match s.body? value with
  | some body => .str (s.front.getD "" ++ body ++ s.back.getD "")
  | none => value

end Reshape.Transform
