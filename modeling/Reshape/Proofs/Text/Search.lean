/-
# Reshape.Proofs.Text.Search -- what searching and splitting find

`contains` decides whether a pattern is a part of a text, and `dropStart?` leaves what follows a
start. `splitChar` leaves a text without the separator whole, a separator in a text parts the pieces
before it from those after it, and no piece has a separator in it. A pattern without the separator
is a part of a text exactly when it is a part of one of the pieces (`infix_iff_exists_splitChar`).
Dropping blanks at the ends of a text leaves it as it is when there are none (`trim_eq_self`).
-/

import Reshape.Text.Search

namespace Reshape.Text

/-- **A text contains a pattern** when the pattern is a part of it. -/
theorem contains_iff_infix (pattern cs : List Char) :
    contains pattern cs = true ↔ pattern <:+: cs := by
  induction cs with
  | nil =>
    rw [contains, cut?, List.infix_nil]
    cases pattern <;> simp
  | cons c cs ih =>
    rw [contains, cut?, List.infix_cons_iff, ← ih, contains, ← List.isPrefixOf_iff_prefix]
    split
    case isTrue h => simp [h]
    case isFalse h => simp [h]

theorem dropStart?_append (start cs : List Char) : dropStart? start (start ++ cs) = some cs := by
  rw [dropStart?, if_pos (List.isPrefixOf_iff_prefix.mpr (List.prefix_append start cs)),
    List.drop_left]

theorem dropStart?_eq_some_iff {start cs rest : List Char} :
    dropStart? start cs = some rest ↔ cs = start ++ rest := by
  constructor
  · intro h
    rw [dropStart?] at h
    split at h
    case isTrue hprefix =>
      cases h
      exact List.prefix_iff_eq_append.mp (List.isPrefixOf_iff_prefix.mp hprefix) |>.symm
    case isFalse => cases h
  · rintro rfl
    exact dropStart?_append start rest

theorem intercalate_nil {α : Type} (xs : List (List α)) : [].intercalate xs = xs.flatten := by
  induction xs with
  | nil => rfl
  | cons x xs ih =>
    cases xs with
    | nil => simp [List.intercalate_singleton]
    | cons y ys => rw [List.intercalate_cons_cons, ih, List.append_nil, ← List.flatten_cons]

/-- A text that neither begins nor ends with a blank stays as it is without the blanks at its
ends. -/
theorem trim_eq_self {cs : List Char} (hfirst : ∀ c, cs.head? = some c → isBlank c = false)
    (hlast : ∀ c, cs.getLast? = some c → isBlank c = false) : trim cs = cs := by
  have hkeep : ∀ ds : List Char, (∀ c, ds.head? = some c → isBlank c = false) →
      ds.dropWhile isBlank = ds := by
    intro ds hds
    cases ds with
    | nil => rfl
    | cons d ds => exact List.dropWhile_cons_of_neg (by simp [hds d rfl])
  rw [trim, trimStart, hkeep cs hfirst, hkeep cs.reverse, List.reverse_reverse]
  rwa [List.head?_reverse]

theorem splitChar_of_not_mem {sep : Char} {cs : List Char} (h : sep ∉ cs) :
    splitChar sep cs = [cs] := by
  induction cs with
  | nil => rfl
  | cons c cs ih =>
    have hc : c ≠ sep := fun e => h (e ▸ List.mem_cons_self)
    have hcs : sep ∉ cs := fun hx => h (List.mem_cons_of_mem c hx)
    rw [splitChar, if_neg hc, ih hcs]

/-- The pieces are free of the separator. -/
theorem not_mem_of_mem_splitChar {sep : Char} {cs p : List Char} (h : p ∈ splitChar sep cs) :
    sep ∉ p := by
  induction cs generalizing p with
  | nil =>
    rw [splitChar, List.mem_singleton] at h
    exact h ▸ List.not_mem_nil
  | cons c cs ih =>
    rw [splitChar] at h
    split at h
    case isTrue =>
      rcases List.mem_cons.mp h with rfl | h
      · exact List.not_mem_nil
      · exact ih h
    case isFalse hc =>
      split at h
      case h_1 q qs hs =>
        rw [hs, List.forall_mem_cons] at ih
        rcases List.mem_cons.mp h with rfl | h
        · exact List.not_mem_cons_of_ne_of_not_mem (Ne.symm hc) ih.1
        · exact ih.2 p h
      case h_2 hs => exact absurd hs (splitChar_ne_nil sep cs)

/-- Splitting goes on behind a separator as if nothing had been before it. -/
theorem splitChar_append_cons (sep : Char) (cs ds : List Char) :
    splitChar sep (cs ++ sep :: ds) = splitChar sep cs ++ splitChar sep ds := by
  induction cs with
  | nil => simp [splitChar]
  | cons c cs ih =>
    rw [List.cons_append, splitChar, splitChar, ih]
    split
    case isTrue => rfl
    case isFalse =>
      cases hs : splitChar sep cs with
      | nil => exact absurd hs (splitChar_ne_nil sep cs)
      | cons p ps => rfl

theorem prefix_join (sep p : List Char) (ps : List (List Char)) : p <+: join sep (p :: ps) := by
  cases ps with
  | nil => exact List.prefix_rfl
  | cons q qs =>
    rw [join]
    · exact (List.prefix_append p sep).trans (List.prefix_append (p ++ sep) _)
    · exact List.cons_ne_nil q qs

theorem infix_join_of_mem (sep : List Char) {p : List Char} {ps : List (List Char)} (h : p ∈ ps) :
    p <:+: join sep ps := by
  induction ps with
  | nil => exact absurd h List.not_mem_nil
  | cons q qs ih =>
    rcases List.mem_cons.mp h with rfl | h
    · exact (prefix_join sep p qs).isInfix
    · rw [join]
      · exact (ih h).trans (List.suffix_append (q ++ sep) _).isInfix
      · exact List.ne_nil_of_mem h

/-- What stands before the first separator is a start of the text. -/
theorem prefix_of_splitChar {sep : Char} {cs p : List Char} {ps : List (List Char)}
    (h : splitChar sep cs = p :: ps) : p <+: cs := by
  rw [← join_splitChar sep cs, h]
  exact prefix_join [sep] p ps

/-- A piece of a text is a part of it. -/
theorem infix_of_mem_splitChar {sep : Char} {cs p : List Char} (h : p ∈ splitChar sep cs) :
    p <:+: cs := by
  have hjoin := infix_join_of_mem [sep] h
  rwa [join_splitChar] at hjoin

/-- A text without the separator goes to the first piece of what follows it. -/
theorem splitChar_append {sep : Char} {cs ds p : List Char} {ps : List (List Char)} (h : sep ∉ ds)
    (hcs : splitChar sep cs = p :: ps) : splitChar sep (ds ++ cs) = (ds ++ p) :: ps := by
  induction ds with
  | nil => exact hcs
  | cons d ds ih =>
    have hd : d ≠ sep := fun e => h (e ▸ List.mem_cons_self)
    have hds : sep ∉ ds := fun hx => h (List.mem_cons_of_mem d hx)
    rw [List.cons_append, splitChar, if_neg hd, ih hds]
    rfl

/-- What stands before the first one of a character is determined by the text. -/
theorem append_cons_inj_of_not_mem {c : Char} {xs xs' ys ys' : List Char} (h : c ∉ xs)
    (h' : c ∉ xs') (heq : xs ++ c :: ys = xs' ++ c :: ys') : xs = xs' ∧ ys = ys' := by
  have hfront : ∀ zs ws : List Char, c ∉ zs → (zs ++ c :: ws).takeWhile (· ≠ c) = zs := by
    intro zs ws hzs
    have hall : ∀ d ∈ zs, decide (d ≠ c) = true := fun d hd => decide_eq_true fun e => hzs (e ▸ hd)
    rw [List.takeWhile_append_of_pos hall]
    simp
  have hxs : xs = xs' := by rw [← hfront xs ys h, heq, hfront xs' ys' h']
  subst hxs
  exact ⟨rfl, (List.cons.inj (List.append_cancel_left heq)).2⟩

/-! ## Where a pattern can be -/

/-- A pattern does not go across a character that it does not have. -/
theorem infix_append_cons_iff {pattern : List Char} {c : Char} (hne : pattern ≠ [])
    (hc : c ∉ pattern) (xs ys : List Char) :
    pattern <:+: xs ++ c :: ys ↔ pattern <:+: xs ∨ pattern <:+: ys := by
  have hcross : ∀ start, start ≠ [] → start ⊆ pattern → ¬ start <+: c :: ys := by
    intro start hstart hsub hprefix
    obtain ⟨d, rest, rfl⟩ := List.exists_cons_of_ne_nil hstart
    obtain ⟨rfl, -⟩ := List.cons_prefix_cons.mp hprefix
    exact hc (hsub List.mem_cons_self)
  rw [List.infix_append_iff_ne_nil, List.infix_cons_iff]
  constructor
  · rintro (h | (h | h) | ⟨front, back, -, hback, rfl, -, h⟩)
    · exact .inl h
    · exact absurd h (hcross pattern hne (List.Subset.refl pattern))
    · exact .inr h
    · exact absurd h (hcross back hback (List.subset_append_right front back))
  · rintro (h | h)
    · exact .inl h
    · exact .inr (.inl (.inr h))

/-- A pattern does not begin among characters that it does not begin with. -/
theorem infix_append_iff_of_head_not_mem {b : Char} {rest xs : List Char} (hb : b ∉ xs)
    (ys : List Char) : b :: rest <:+: xs ++ ys ↔ b :: rest <:+: ys := by
  rw [List.infix_append_iff_ne_nil]
  constructor
  · rintro (h | h | ⟨front, back, hfront, -, heq, h, -⟩)
    · exact absurd (h.subset List.mem_cons_self) hb
    · exact h
    · obtain ⟨d, front, rfl⟩ := List.exists_cons_of_ne_nil hfront
      obtain ⟨rfl, -⟩ := List.cons.inj heq
      exact absurd (h.subset List.mem_cons_self) hb
  · exact fun h => .inr (.inl h)

/-- A pattern that begins with a character that the rest of a text does not have is its start. -/
theorem infix_cons_iff_of_head_not_mem {b : Char} {rest xs : List Char} (hb : b ∉ xs) :
    b :: rest <:+: b :: xs ↔ rest <+: xs := by
  rw [List.infix_cons_iff, List.cons_prefix_cons]
  constructor
  · rintro (⟨-, h⟩ | h)
    · exact h
    · exact absurd (h.subset List.mem_cons_self) hb
  · exact fun h => .inl ⟨rfl, h⟩

/-- **A pattern without the separator** is in one of the pieces, if it is in the text. -/
theorem infix_iff_exists_splitChar {pattern : List Char} {sep : Char} (hne : pattern ≠ [])
    (hsep : sep ∉ pattern) (cs : List Char) :
    pattern <:+: cs ↔ ∃ p ∈ splitChar sep cs, pattern <:+: p := by
  have hjoin : ∀ ps : List (List Char),
      pattern <:+: join [sep] ps ↔ ∃ p ∈ ps, pattern <:+: p := by
    intro ps
    induction ps with
    | nil => simp [join, hne]
    | cons p ps ih =>
      cases ps with
      | nil => simp [join]
      | cons q qs =>
        have hparts : join [sep] (p :: q :: qs) = p ++ sep :: join [sep] (q :: qs) := by
          simp [join]
        rw [hparts, infix_append_cons_iff hne hsep, ih]
        simp
  rw [← hjoin, join_splitChar]

end Reshape.Text
