/-
# Reshape.Text.Table -- reading tables of characters

The tables of the character database are kept as text, close to the notation in which they are
published. This module reads the notations; the modules with the tables say what they mean.
-/

namespace Reshape.Text

/-- Characters `first`, `first + step`, ..., `last`, which map to `target`, `target + step`, .... -/
structure Run where
  first : Nat
  last : Nat
  step : Nat
  target : Nat
  deriving Repr

/-- The image of a character that lies in the run. -/
def Run.image? (r : Run) (c : Nat) : Option Nat :=
  if r.first ≤ c && c ≤ r.last && (c - r.first) % r.step == 0 then some (r.target + (c - r.first))
  else none

/-- The character of the run that has a given image. -/
def Run.preimage? (r : Run) (t : Nat) : Option Nat :=
  let c := r.first + (t - r.target)
  if r.target ≤ t && c ≤ r.last && (t - r.target) % r.step == 0 then some c else none

/-- The value of a hexadecimal digit. -/
def hexValue? (c : Char) : Option Nat :=
  if '0' ≤ c && c ≤ '9' then some (c.toNat - '0'.toNat)
  else if 'a' ≤ c && c ≤ 'f' then some (c.toNat - 'a'.toNat + 10)
  else if 'A' ≤ c && c ≤ 'F' then some (c.toNat - 'A'.toNat + 10)
  else none

/-- The hexadecimal numbers of a text, divided by anything that is no hexadecimal digit. -/
def hexNumbers (cs : List Char) : List Nat :=
  go none cs
where
  go : Option Nat → List Char → List Nat
    | pending, [] => pending.toList
    | pending, c :: cs =>
      match hexValue? c with
      | some d => go (some (16 * pending.getD 0 + d)) cs
      | none => pending.toList ++ go none cs

/-- The words of a table, which stand between spaces and line breaks. -/
def entries (cs : List Char) : List (List Char) :=
  go [] cs
where
  close (word : List Char) : List (List Char) :=
    if word.isEmpty then [] else [word.reverse]
  go : List Char → List Char → List (List Char)
    | word, [] => close word
    | word, c :: cs =>
      if c = ' ' || c = '\n' then close word ++ go [] cs else go (c :: word) cs

/-- Entries `first-last/step:target`. -/
def runsOf (text : String) : List Run :=
  (entries text.toList).filterMap fun e =>
    match hexNumbers e with
    | [a, b, s, t] => some ⟨a, b, s, t⟩
    | _ => none

/-- Entries `character:target+target`. -/
def specialsOf (text : String) : List (Nat × List Nat) :=
  (entries text.toList).filterMap fun e =>
    match hexNumbers e with
    | c :: ts => some (c, ts)
    | [] => none

/-- Entries `start:name`. -/
def startsOf (text : String) : Array (Nat × String) :=
  ((entries text.toList).filterMap fun e =>
    match e.span (· ≠ ':') with
    | (n, _ :: name) => (hexNumbers n).head?.map fun c => (c, String.ofList name)
    | _ => none).toArray

/-- Entries `first-last`, or `character` alone, between plus signs. -/
def rangesIn (cs : List Char) : List (Nat × Nat) :=
  (pieces cs).filterMap fun e =>
    match hexNumbers e with
    | [a] => some (a, a)
    | [a, b] => some (a, b)
    | _ => none
where
  pieces : List Char → List (List Char)
    | [] => [[]]
    | c :: cs =>
      match pieces cs with
      | p :: ps => if c = '+' then [] :: p :: ps else (c :: p) :: ps
      | [] => [[c]]

/-- Entries `first-last`, or `character` alone, between blanks. -/
def rangesOf (text : String) : List (Nat × Nat) :=
  (entries text.toList).flatMap rangesIn

/-- Entries `name/name:ranges`. -/
def namedRangesOf (text : String) : List (List String × List (Nat × Nat)) :=
  (entries text.toList).map fun e =>
    let (names, rest) := e.span (· ≠ ':')
    ((String.ofList names).splitOn "/", rangesIn (rest.drop 1))

/-- The image of a character under a table; the character itself when no run holds it. -/
def image (table : List Run) (c : Nat) : Nat :=
  (table.findSome? fun r => r.image? c).getD c

end Reshape.Text
