/-
# Reshape.Proofs.Formula.Positions -- finding, splitting and joining in formulas

The methods of strings agree with each other on where a text occurs. `split` cuts a string at the
occurrences of a text, from left to right, or between all characters for the empty text, and `join`
puts the pieces together again (`join_pieces`). `includes` and `indexOf` find the same thing, and
the position that `indexOf` gives is one that `slice` takes: what is left begins with the text
(`split_join_and_search_agree`).

Positions are floats that count characters. They are exact below `2 ^ 53`, and -1 is none of them.
-/

import Reshape.Formula.Eval
import Reshape.Proofs.Decimal.Counts
import Reshape.Proofs.Text.Occurrence
import Reshape.Proofs.Text.Pieces

namespace Reshape.Formula

variable {pattern s : List Char} {n : Nat}

/-! ## Pieces -/

/-- The pieces of a string: its characters one by one for the empty pattern. -/
def pieces (pattern s : List Char) : List (List Char) :=
  if pattern.isEmpty then s.map ([·]) else Text.split pattern s

theorem splitText_str (s pattern : List Char) :
    splitText s (.str pattern) = (pieces pattern s).map .str := by
  change (if pattern.isEmpty then _ else _) = _
  rw [pieces]
  split
  case isTrue => rw [List.map_map]; rfl
  case isFalse => rfl

theorem itemTexts_map_str (ps : List (List Char)) : Value.itemTexts (ps.map .str) = ps := by
  induction ps with
  | nil => rfl
  | cons p ps ih => exact congrArg (p :: ·) ih

/-- **Joining the pieces by the pattern** gives the string back. -/
theorem join_pieces (pattern s : List Char) : Text.join pattern (pieces pattern s) = s := by
  rw [pieces]
  split
  case isTrue h =>
    rw [List.isEmpty_iff.mp h, Text.join_nil, ← List.flatMap_def]
    exact List.flatMap_singleton' s
  case isFalse => exact Text.join_split pattern s

/-! ## Positions -/

/-- The position of the first occurrence as a float, -1 for none. -/
def firstPosition (pattern s : List Char) : Float :=
  match Text.find? pattern s with
  | some n => Float.ofNat n
  | none => -1

theorem exists_firstPosition (h : Text.contains pattern s = true) :
    ∃ n, firstPosition pattern s = Float.ofNat n ∧ IsLeast {n | Text.OccursAt pattern s n} n := by
  rw [Text.contains_eq_isSome_find?] at h
  obtain ⟨n, hn⟩ := Option.isSome_iff_exists.mp h
  exact ⟨n, by rw [firstPosition, hn], Text.find?_eq_some_iff.mp hn⟩

/-- **No position is taken for -1.** -/
theorem contains_iff_firstPosition_ne (hlength : s.length < 2 ^ 53) :
    Text.contains pattern s = true ↔ firstPosition pattern s ≠ -1 := by
  constructor
  · intro h
    obtain ⟨n, hn, hleast⟩ := exists_firstPosition h
    rw [hn]
    exact Decimal.ofNat_ne_neg_one (Nat.lt_of_le_of_lt hleast.1.le_length hlength)
  · intro h
    rw [Text.contains_eq_isSome_find?, Option.isSome_iff_ne_none]
    intro hnone
    exact h (by rw [firstPosition, hnone])

/-- `slice` takes a position, and leaves out what stands before it. -/
theorem segment_sliceBound (hn : n ≤ s.length) (hlength : s.length < 2 ^ 53) :
    segment s (sliceBound (.num (Float.ofNat n)) s.length 0) s.length = s.drop n := by
  have hlt : n < 2 ^ 53 := Nat.lt_of_le_of_lt hn hlength
  have hbound : sliceBound (.num (Float.ofNat n)) s.length 0 = n := by
    change (if (Float.ofNat n).isNaN then 0 else
      if Decimal.truncate (Float.ofNat n) < 0 then _
      else min (Decimal.toCount (Decimal.truncate (Float.ofNat n))) s.length) = n
    rw [Decimal.isNaN_ofNat hlt, Decimal.truncate_ofNat hlt, if_neg Bool.false_ne_true,
      if_neg (Decimal.ofNat_not_lt_zero hlt), Decimal.toCount_ofNat hlt, Nat.min_eq_left hn]
  rw [hbound, segment, List.take_of_length_le (Nat.le_of_eq List.length_drop)]

/-! ## Calls -/

/-- The call of a method with one argument. -/
def call (receiver : Term) (m : Method) (arg : Term) : Term :=
  .method receiver m [arg]

theorem eval_split (s : List Char) (x : String) :
    (call .input .split (.str x)).eval (.str s) =
      .ok (.array ((pieces x.toList s).map .str)) := by
  rw [← splitText_str]
  rfl

theorem eval_join_split (s : List Char) (x : String) :
    (call (call .input .split (.str x)) .join (.str x)).eval (.str s) = .ok (.str s) := by
  have hjoin : (call (call .input .split (.str x)) .join (.str x)).eval (.str s) =
      ((call .input .split (.str x)).eval (.str s)).bind
        fun v => callMethod v .join [.str x.toList] := rfl
  rw [hjoin, eval_split]
  change Except.ok (Value.str (Text.join x.toList (Value.itemTexts _))) = _
  rw [itemTexts_map_str, join_pieces]

theorem eval_startsWith_slice (hn : n ≤ s.length) (hlength : s.length < 2 ^ 53) (x : String) :
    (call (call .input .slice (.number (Float.ofNat n))) .startsWith (.str x)).eval (.str s) =
      .ok (.bool (x.toList.isPrefixOf (s.drop n))) := by
  rw [← segment_sliceBound hn hlength]
  rfl

/-- **Splitting, joining and searching agree.** The pieces between the occurrences of a text have
none of it in them, and joined by the text they are the string. A text is found exactly when it
occurs; then its position is the first one at which it does, and what is left from there on begins
with it. -/
theorem split_join_and_search_agree (s x : String) :
    (∃ ps : List (List Char),
      (call .input .split (.str x)).eval (.ofJson (.str s)) = .ok (.array (ps.map .str)) ∧
      (x = "" → ps = s.toList.map ([·])) ∧ (x ≠ "" → ∀ p ∈ ps, ¬ x.toList <:+: p)) ∧
    (call (call .input .split (.str x)) .join (.str x)).eval (.ofJson (.str s)) =
      .ok (.ofJson (.str s)) ∧
    (s.length < 2 ^ 53 → ∃ found position,
      (call .input .includes (.str x)).eval (.ofJson (.str s)) = .ok (.bool found) ∧
      (call .input .indexOf (.str x)).eval (.ofJson (.str s)) = .ok (.num position) ∧
      (found = true ↔ position ≠ -1) ∧
      (found = true ↔ ∃ n, Text.OccursAt x.toList s.toList n) ∧
      (position ≠ -1 → ∃ n, position = Float.ofNat n ∧
        IsLeast {n | Text.OccursAt x.toList s.toList n} n ∧
        (call (call .input .slice (.number position)) .startsWith (.str x)).eval
          (.ofJson (.str s)) = .ok (.bool true))) := by
  refine ⟨⟨pieces x.toList s.toList, eval_split s.toList x, ?_, ?_⟩,
    eval_join_split s.toList x, ?_⟩
  · rintro rfl
    rfl
  · intro hx p hp
    have hne : x.toList ≠ [] := String.toList_eq_nil_iff.not.mpr hx
    rw [pieces, if_neg (by simpa using hne)] at hp
    exact Text.not_infix_of_mem_split hne hp
  · intro hlength
    rw [← String.length_toList] at hlength
    have hfound : Text.contains x.toList s.toList = true ↔
        firstPosition x.toList s.toList ≠ -1 := contains_iff_firstPosition_ne hlength
    refine ⟨Text.contains x.toList s.toList, firstPosition x.toList s.toList, rfl, rfl, hfound,
      Text.contains_iff_exists_occursAt, fun hne => ?_⟩
    obtain ⟨n, hn, hleast⟩ := exists_firstPosition (hfound.mpr hne)
    refine ⟨n, hn, hleast, ?_⟩
    rw [hn, Value.ofJson, eval_startsWith_slice hleast.1.le_length hlength,
      List.isPrefixOf_iff_prefix.mpr hleast.1.prefix_drop]

/-- Two overlapping occurrences behind a character of two bytes: the first one is at position 1. -/
theorem split_join_and_search_agree_overlapping :
    "éΩΩΩ".length < 2 ^ 53 ∧
    (call (call .input .split (.str "ΩΩ")) .join (.str "ΩΩ")).eval (.ofJson (.str "éΩΩΩ")) =
      .ok (.ofJson (.str "éΩΩΩ")) ∧
    (call .input .indexOf (.str "ΩΩ")).eval (.ofJson (.str "éΩΩΩ")) = .ok (.num 1) ∧
    (call (call .input .slice (.number 1)) .startsWith (.str "ΩΩ")).eval
      (.ofJson (.str "éΩΩΩ")) = .ok (.bool true) := by
  obtain ⟨-, hjoin, hsearch⟩ := split_join_and_search_agree "éΩΩΩ" "ΩΩ"
  have hlength : "éΩΩΩ".length < 2 ^ 53 := by decide
  obtain ⟨found, position, -, hindex, -, -, hslice⟩ := hsearch hlength
  have hone : (call .input .indexOf (.str "ΩΩ")).eval (.ofJson (.str "éΩΩΩ")) = .ok (.num 1) := rfl
  obtain rfl : position = 1 := by
    rw [hone] at hindex
    injection hindex with hnum
    injection hnum with heq
    exact heq.symm
  obtain ⟨_, -, -, hstarts⟩ := hslice (by decide)
  exact ⟨hlength, hjoin, hone, hstarts⟩

end Reshape.Formula
