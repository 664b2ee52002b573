/-
# Reshape.Proofs.Text.Pieces -- a text cut at the occurrences of a pattern

Occurrences are found from left to right, and one that begins within another does not count. `Cut`
says so by induction on the text: an occurrence ends a piece, and a character at which none begins
goes to the piece that it stands in front of. The pieces that `split` gives are cut in this way, so
joining them by the pattern gives the text back (`join_split`), and the pattern is in none of them
(`not_infix_of_mem_split`).
-/

import Reshape.Proofs.Text.Search

namespace Reshape.Text

variable {pattern cs p : List Char} {ps : List (List Char)}

/-! ## Joining -/

/-- **A separator stands before each piece but the first one.** -/
theorem join_cons (sep p : List Char) (ps : List (List Char)) :
    join sep (p :: ps) = p ++ (ps.map (sep ++ ·)).flatten := by
  induction ps generalizing p with
  | nil => exact (List.append_nil p).symm
  | cons q qs ih =>
    rw [join, ih, List.map_cons, List.flatten_cons, List.append_assoc, List.append_assoc]
    exact List.cons_ne_nil q qs

theorem join_nil (ps : List (List Char)) : join [] ps = ps.flatten := by
  cases ps with
  | nil => rfl
  | cons p ps => simp [join_cons]

/-! ## Cutting -/

/-- **A text cut at the occurrences of a pattern**, which are found from left to right. -/
inductive Cut (pattern : List Char) : List Char → List (List Char) → Prop
  | nil : Cut pattern [] [[]]
  | occurrence {cs : List Char} {ps : List (List Char)} (rest : Cut pattern cs ps) :
      Cut pattern (pattern ++ cs) ([] :: ps)
  | keep {c : Char} {cs p : List Char} {ps : List (List Char)} (hc : ¬ pattern <+: c :: cs)
      (rest : Cut pattern cs (p :: ps)) : Cut pattern (c :: cs) ((c :: p) :: ps)

/-- The first `skip` characters of the text belong to an occurrence that was found already. -/
theorem cut_pieces (h : pattern ≠ []) (skip : Nat) (cs : List Char) :
    Cut pattern (cs.drop skip) (pieces pattern skip cs) := by
  induction cs generalizing skip with
  | nil =>
    rw [List.drop_nil, pieces]
    exact .nil
  | cons c cs ih =>
    cases skip with
    | succ skip => exact ih skip
    | zero =>
      rw [List.drop_zero, pieces]
      split
      case isTrue hprefix =>
        obtain ⟨rest, hrest⟩ := List.isPrefixOf_iff_prefix.mp hprefix
        have hcs : cs.drop (pattern.length - 1) = rest := by
          obtain ⟨d, pattern, rfl⟩ := List.exists_cons_of_ne_nil h
          obtain ⟨-, rfl⟩ := List.cons.inj hrest
          exact List.drop_left
        rw [← hrest]
        refine .occurrence ?_
        rw [← hcs]
        exact ih _
      case isFalse hprefix =>
        have hc : ¬ pattern <+: c :: cs := fun hp =>
          hprefix (List.isPrefixOf_iff_prefix.mpr hp)
        have hrest : Cut pattern cs (pieces pattern 0 cs) := ih 0
        cases hs : pieces pattern 0 cs with
        | nil => exact absurd hs (pieces_ne_nil pattern 0 cs)
        | cons p ps => exact .keep hc (hs ▸ hrest)

theorem cut_split (h : pattern ≠ []) (cs : List Char) : Cut pattern cs (split pattern cs) := by
  rw [split, if_neg (by simpa using h)]
  exact cut_pieces h 0 cs

namespace Cut

theorem ne_nil (h : Cut pattern cs ps) : ps ≠ [] := by
  cases h <;> exact List.cons_ne_nil _ _

/-- **Joining the pieces by the pattern gives the text back.** -/
theorem join_eq (h : Cut pattern cs ps) : join pattern ps = cs := by
  induction h with
  | nil => rfl
  | occurrence rest ih =>
    obtain ⟨p, ps, rfl⟩ := List.exists_cons_of_ne_nil rest.ne_nil
    rw [join_cons] at ih
    rw [join_cons, List.map_cons, List.flatten_cons, List.append_assoc, ih, List.nil_append]
  | keep _ _ ih =>
    rw [join_cons] at ih
    rw [join_cons, List.cons_append, ih]

/-- **The pattern is in none of the pieces.** -/
theorem not_infix_of_mem (hne : pattern ≠ []) (h : Cut pattern cs ps) (hp : p ∈ ps) :
    ¬ pattern <:+: p := by
  induction h generalizing p with
  | nil =>
    rw [List.mem_singleton.mp hp, List.infix_nil]
    exact hne
  | occurrence _ ih =>
    rcases List.mem_cons.mp hp with rfl | hp
    · rw [List.infix_nil]
      exact hne
    · exact ih hp
  | @keep c cs q qs hc rest ih =>
    rcases List.mem_cons.mp hp with rfl | hp
    · -- the piece is a start of the text, so the pattern does not begin it either
      have hstart : q <+: cs := rest.join_eq ▸ prefix_join pattern q qs
      rw [List.infix_cons_iff, not_or]
      exact ⟨fun hpre => hc (hpre.trans (List.cons_prefix_cons.mpr ⟨rfl, hstart⟩)),
        ih List.mem_cons_self⟩
    · exact ih (List.mem_cons_of_mem q hp)

end Cut

/-- **Splitting and joining by the same pattern** gives the text back. -/
theorem join_split (pattern cs : List Char) : join pattern (split pattern cs) = cs := by
  cases pattern with
  | nil => rfl
  | cons c pattern => exact (cut_split (List.cons_ne_nil c pattern) cs).join_eq

theorem not_infix_of_mem_split (h : pattern ≠ []) (hp : p ∈ split pattern cs) :
    ¬ pattern <:+: p :=
  (cut_split h cs).not_infix_of_mem h hp

end Reshape.Text
