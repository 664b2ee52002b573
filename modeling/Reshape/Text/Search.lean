/-
# Reshape.Text.Search -- finding, splitting and joining

Texts as lists of characters. `cut?` divides a text around the first occurrence of a pattern;
search, splitting and replacement all come from it or from its left-to-right repetition `pieces`, so
they agree on where a pattern occurs. Occurrences never overlap. The empty pattern occurs before
every character; `split` treats it as no pattern at all and leaves the choice to its callers.

Positions count characters. Messages and scanners also count some texts in bytes (`byteLength`).
-/

import Reshape.Text.Category

namespace Reshape.Text

/-! ## Search -/

/-- **The text around the first occurrence** of `pattern`. -/
def cut? (pattern : List Char) : List Char → Option (List Char × List Char)
  | [] => if pattern.isEmpty then some ([], []) else none
  | c :: cs =>
    if pattern.isPrefixOf (c :: cs) then some ([], (c :: cs).drop pattern.length)
    else (cut? pattern cs).map fun (before, after) => (c :: before, after)

/-- The position of the first occurrence. -/
def find? (pattern cs : List Char) : Option Nat :=
  (cut? pattern cs).map fun (before, _) => before.length

/-- The pattern occurs somewhere. -/
def contains (pattern cs : List Char) : Bool :=
  (cut? pattern cs).isSome

/-! ## Splitting -/

/-- The pieces between the occurrences of a pattern; `skip` characters of an occurrence are still to
be passed over. -/
def pieces (pattern : List Char) : (skip : Nat) → List Char → List (List Char)
  | _, [] => [[]]
  | skip + 1, _ :: cs => pieces pattern skip cs
  | 0, c :: cs =>
    if pattern.isPrefixOf (c :: cs) then [] :: pieces pattern (pattern.length - 1) cs
    else
      match pieces pattern 0 cs with
      | p :: ps => (c :: p) :: ps
      | [] => [[c]]

/-- **The pieces between the occurrences of a pattern**, from left to right; one more than there are
occurrences. The empty pattern leaves the text whole. -/
def split (pattern cs : List Char) : List (List Char) :=
  if pattern.isEmpty then [cs] else pieces pattern 0 cs

/-- The pieces between the occurrences of a character. -/
def splitChar (sep : Char) : List Char → List (List Char)
  | [] => [[]]
  | c :: cs =>
    if c = sep then [] :: splitChar sep cs
    else
      match splitChar sep cs with
      | p :: ps => (c :: p) :: ps
      | [] => [[c]]

/-- The pieces with a separator between each two. -/
def join (sep : List Char) : List (List Char) → List Char
  | [] => []
  | [p] => p
  | p :: ps => p ++ sep ++ join sep ps

/-- Put `other` in the place of every occurrence. -/
def replaceAll (pattern other cs : List Char) : List Char :=
  join other (split pattern cs)

/-- Put `other` in the place of the first occurrence. -/
def replaceFirst (pattern other cs : List Char) : List Char :=
  match cut? pattern cs with
  | some (before, after) => before ++ other ++ after
  | none => cs

/-! ## Ends -/

/-- Drop blanks at the start. -/
def trimStart (cs : List Char) : List Char :=
  cs.dropWhile isBlank

/-- Drop blanks at both ends. -/
def trim (cs : List Char) : List Char :=
  ((trimStart cs).reverse.dropWhile isBlank).reverse

/-- What follows a given start. -/
def dropStart? (start cs : List Char) : Option (List Char) :=
  if start.isPrefixOf cs then some (cs.drop start.length) else none

/-- The text ends in `ending`. -/
def endsWith (ending cs : List Char) : Bool :=
  ending.isSuffixOf cs

/-! ## Size -/

/-- **The length of a text in bytes**, as it is stored. -/
def byteLength : List Char → Nat
  | [] => 0
  | c :: cs => c.utf8Size + byteLength cs

/-! ## Laws -/

theorem splitChar_ne_nil (sep : Char) (cs : List Char) : splitChar sep cs ≠ [] := by
  cases cs with
  | nil => simp [splitChar]
  | cons c cs =>
    simp only [splitChar]
    split
    · simp
    · split <;> simp

theorem pieces_ne_nil (pattern : List Char) (skip : Nat) (cs : List Char) :
    pieces pattern skip cs ≠ [] := by
  induction cs generalizing skip with
  | nil => simp [pieces]
  | cons c cs ih =>
    cases skip with
    | zero =>
      simp only [pieces]
      split
      · simp
      · split <;> simp
    | succ skip => simpa [pieces] using ih skip

/-- Joining the pieces at a character gives the text back. -/
theorem join_splitChar (sep : Char) (cs : List Char) : join [sep] (splitChar sep cs) = cs := by
  induction cs with
  | nil => simp [splitChar, join]
  | cons c cs ih =>
    simp only [splitChar]
    cases hs : splitChar sep cs with
    | nil => exact absurd hs (splitChar_ne_nil sep cs)
    | cons p ps =>
      rw [hs] at ih
      by_cases hc : c = sep
      · subst hc
        simp [join, ih]
      · simp only [hc, if_false]
        cases ps with
        | nil => simpa [join] using ih
        | cons q qs => simpa [join] using ih

end Reshape.Text
