/-
# Reshape.Proofs.Text.Occurrence -- where a pattern occurs

`OccursAt pattern cs n` says that `n` characters stand before an occurrence. Occurrences may overlap
each other. Search finds the first one of them all: the position that it gives is the least at which
the pattern occurs (`find?_eq_some_iff`), and it gives one whenever the pattern occurs at all
(`contains_iff_exists_occursAt`).
-/

import Mathlib.Order.Bounds.Defs
import Reshape.Proofs.Text.Search

namespace Reshape.Text

variable {pattern cs : List Char} {c : Char} {n : Nat}

/-- **A pattern occurs at a position** of a text. -/
def OccursAt (pattern cs : List Char) (n : Nat) : Prop :=
  ∃ before after, cs = before ++ pattern ++ after ∧ before.length = n

theorem OccursAt.le_length (h : OccursAt pattern cs n) : n ≤ cs.length := by
  obtain ⟨before, after, rfl, rfl⟩ := h
  rw [List.append_assoc, List.length_append]
  exact Nat.le_add_right _ _

/-- What begins at an occurrence begins with the pattern. -/
theorem OccursAt.prefix_drop (h : OccursAt pattern cs n) : pattern <+: cs.drop n := by
  obtain ⟨before, after, rfl, rfl⟩ := h
  rw [List.append_assoc, List.drop_left]
  exact List.prefix_append pattern after

theorem occursAt_zero_iff : OccursAt pattern cs 0 ↔ pattern <+: cs := by
  constructor
  · exact OccursAt.prefix_drop
  · rintro ⟨after, rfl⟩
    exact ⟨[], after, rfl, rfl⟩

theorem occursAt_cons_succ_iff : OccursAt pattern (c :: cs) (n + 1) ↔ OccursAt pattern cs n := by
  constructor
  · rintro ⟨before, after, heq, hlength⟩
    obtain ⟨d, before, rfl⟩ := List.exists_cons_of_length_eq_add_one hlength
    exact ⟨before, after, (List.cons.inj heq).2, Nat.succ.inj hlength⟩
  · rintro ⟨before, after, rfl, rfl⟩
    exact ⟨c :: before, after, rfl, rfl⟩

theorem infix_iff_exists_occursAt : pattern <:+: cs ↔ ∃ n, OccursAt pattern cs n := by
  constructor
  · rintro ⟨before, after, rfl⟩
    exact ⟨before.length, before, after, rfl, rfl⟩
  · rintro ⟨-, before, after, rfl, -⟩
    exact ⟨before, after, rfl⟩

theorem contains_iff_exists_occursAt :
    contains pattern cs = true ↔ ∃ n, OccursAt pattern cs n := by
  have hinfix := contains_iff_infix pattern cs
  exact hinfix.trans infix_iff_exists_occursAt

/-! ## The first occurrence -/

theorem isLeast_zero_iff {P : Nat → Prop} (h : P 0) : IsLeast {n | P n} n ↔ n = 0 := by
  constructor
  · exact fun hleast => Nat.le_zero.mp (hleast.2 h)
  · rintro rfl
    exact ⟨h, fun m _ => Nat.zero_le m⟩

theorem isLeast_succ_iff {P : Nat → Prop} (h : ¬ P 0) :
    IsLeast {n | P n} n ↔ ∃ m, n = m + 1 ∧ IsLeast {m | P (m + 1)} m := by
  constructor
  · rintro ⟨hn, hleast⟩
    cases n with
    | zero => exact absurd hn h
    | succ m => exact ⟨m, rfl, hn, fun k hk => Nat.succ_le_succ_iff.mp (hleast hk)⟩
  · rintro ⟨m, rfl, hm, hleast⟩
    refine ⟨hm, fun k hk => ?_⟩
    cases k with
    | zero => exact absurd hk h
    | succ k => exact Nat.succ_le_succ (hleast hk)

theorem find?_cons_of_starts (h : pattern <+: c :: cs) : find? pattern (c :: cs) = some 0 := by
  rw [find?, cut?, if_pos (List.isPrefixOf_iff_prefix.mpr h)]
  rfl

theorem find?_cons_of_not_starts (h : ¬ pattern <+: c :: cs) :
    find? pattern (c :: cs) = (find? pattern cs).map (· + 1) := by
  rw [find?, cut?, if_neg fun hp => h (List.isPrefixOf_iff_prefix.mp hp), find?, Option.map_map,
    Option.map_map]
  rfl

/-- **Search finds the first occurrence.** -/
theorem find?_eq_some_iff : find? pattern cs = some n ↔ IsLeast {n | OccursAt pattern cs n} n := by
  induction cs generalizing n with
  | nil =>
    cases pattern with
    | nil => rw [isLeast_zero_iff ⟨[], [], rfl, rfl⟩]; exact Option.some_inj.trans eq_comm
    | cons d pattern =>
      refine iff_of_false (fun h => nomatch h) fun h => ?_
      obtain ⟨before, after, heq, -⟩ := h.1
      simp at heq
  | cons c cs ih =>
    by_cases hprefix : pattern <+: c :: cs
    · rw [find?_cons_of_starts hprefix, isLeast_zero_iff (occursAt_zero_iff.mpr hprefix)]
      exact Option.some_inj.trans eq_comm
    · rw [find?_cons_of_not_starts hprefix, isLeast_succ_iff (mt occursAt_zero_iff.mp hprefix),
        Option.map_eq_some_iff]
      simp only [ih, occursAt_cons_succ_iff]
      exact exists_congr fun m => and_comm.trans (and_congr_left' eq_comm)

theorem contains_eq_isSome_find? (pattern cs : List Char) :
    contains pattern cs = (find? pattern cs).isSome := by
  rw [contains, find?, Option.isSome_map]

end Reshape.Text
