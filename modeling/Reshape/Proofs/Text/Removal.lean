/-
# Reshape.Proofs.Text.Removal -- what is left without the occurrences of a pattern

Replacing every occurrence of a pattern by nothing removes them from left to right, one after the
other. `Removes` says so by induction on the text: an occurrence goes, and a character at which none
begins stays. Whether something is left as it was, and what a removal does to the pieces of a text
between separators, follows by induction on it.
-/

import Mathlib.Data.List.Forall2
import Reshape.Proofs.Text.Pieces

namespace Reshape.Text

/-- **A text without the occurrences of a pattern**, which are found from left to right. -/
inductive Removes (pattern : List Char) : List Char → List Char → Prop
  | nil : Removes pattern [] []
  | occurrence {cs ds : List Char} (rest : Removes pattern cs ds) :
      Removes pattern (pattern ++ cs) ds
  | keep {c : Char} {cs ds : List Char} (hc : ¬ pattern <+: c :: cs)
      (rest : Removes pattern cs ds) : Removes pattern (c :: cs) (c :: ds)

variable {pattern cs ds : List Char} {sep : Char}

/-- The pieces of a text make up the text without the occurrences. -/
theorem Cut.removes {ps : List (List Char)} (h : Cut pattern cs ps) :
    Removes pattern cs ps.flatten := by
  induction h with
  | nil => exact .nil
  | occurrence _ ih => exact .occurrence ih
  | keep hc _ ih => exact .keep hc ih

/-- **Replacing the occurrences of a pattern by nothing removes them.** -/
theorem removes_replaceAll (h : pattern ≠ []) (cs : List Char) :
    Removes pattern cs (replaceAll pattern [] cs) := by
  rw [replaceAll, join_nil]
  exact (cut_split h cs).removes

namespace Removes

/-- Without an occurrence the text stays as it is. -/
theorem eq_of_not_occurs (h : Removes pattern cs ds) (hcs : ¬ pattern <:+: cs) : ds = cs := by
  induction h with
  | nil => rfl
  | occurrence _ _ => exact absurd (List.prefix_append _ _).isInfix hcs
  | keep _ _ ih => rw [ih fun hi => hcs (hi.trans (List.suffix_cons _ _).isInfix)]

/-- **What is left is determined** by the text. -/
theorem unique {es : List Char} (hpattern : pattern ≠ []) (h : Removes pattern cs ds)
    (h' : Removes pattern cs es) : es = ds := by
  induction h generalizing es with
  | nil =>
    generalize hxs : ([] : List Char) = xs at h'
    cases h' with
    | nil => rfl
    | occurrence => exact absurd (List.append_eq_nil_iff.mp hxs.symm).1 hpattern
    | keep => cases hxs
  | @occurrence cs ds _ ih =>
    generalize hxs : pattern ++ cs = xs at h'
    cases h' with
    | nil => exact absurd (List.append_eq_nil_iff.mp hxs).1 hpattern
    | occurrence rest => exact ih (List.append_cancel_left hxs ▸ rest)
    | keep hc => exact absurd (hxs ▸ List.prefix_append pattern cs) hc
  | @keep c cs ds hc _ ih =>
    generalize hxs : c :: cs = xs at h'
    cases h' with
    | nil => cases hxs
    | occurrence => exact absurd (hxs ▸ List.prefix_append pattern _) hc
    | keep _ rest =>
      cases hxs
      rw [ih rest]

/-- A text in which the pattern cannot begin stays in front of what is left. -/
theorem append_of_not_mem {c : Char} {es : List Char} (hpattern : pattern.head? = some c)
    (hes : c ∉ es) (h : Removes pattern cs ds) : Removes pattern (es ++ cs) (es ++ ds) := by
  induction es with
  | nil => exact h
  | cons e es ih =>
    rw [List.mem_cons, not_or] at hes
    refine .keep ?_ (ih hes.2)
    obtain ⟨pattern, rfl⟩ := List.head?_eq_some_iff.mp hpattern
    exact fun hp => hes.1 (List.cons_prefix_cons.mp hp).1

/-- **Pieces between separators** are freed of the pattern one by one when the separator is no part
of it. -/
theorem splitChar (h : Removes pattern cs ds) (hsep : sep ∉ pattern) :
    List.Forall₂ (Removes pattern) (splitChar sep cs) (splitChar sep ds) := by
  induction h with
  | nil => exact .cons .nil .nil
  | @occurrence cs ds _ ih =>
    obtain ⟨p, ps, hp⟩ := List.exists_cons_of_ne_nil (splitChar_ne_nil sep cs)
    rw [hp] at ih
    obtain ⟨q, qs, hfirst, hothers, hq⟩ := List.forall₂_cons_left_iff.mp ih
    rw [splitChar_append hsep hp, hq]
    exact .cons hfirst.occurrence hothers
  | @keep c cs ds hc _ ih =>
    rw [Text.splitChar, Text.splitChar]
    split
    case isTrue => exact .cons .nil ih
    case isFalse hne =>
      obtain ⟨p, ps, hp⟩ := List.exists_cons_of_ne_nil (splitChar_ne_nil sep cs)
      rw [hp] at ih
      obtain ⟨q, qs, hfirst, hothers, hq⟩ := List.forall₂_cons_left_iff.mp ih
      -- the first piece is a start of the text, so the pattern does not begin it either
      have hstart : p <+: cs := prefix_of_splitChar hp
      rw [hp, hq]
      refine .cons (.keep (fun hpre => hc ?_) hfirst) hothers
      exact hpre.trans (List.cons_prefix_cons.mpr ⟨rfl, hstart⟩)

end Removes

end Reshape.Text
