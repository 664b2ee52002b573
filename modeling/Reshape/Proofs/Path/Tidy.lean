/-
# Reshape.Proofs.Path.Tidy -- which paths are written back as they were read

The segments of a path that can be read do not keep how its positions were spelled: `items[2]`,
`items[02]` and `items[+2]` have the same segments, and only the first of them is written back from
these. A path is tidy when no position in it starts with a plus sign or with a zero before another
digit. The main result (`text_of_parse_eq_iff`) is that what is written back has the same segments
in any case, and is the path itself exactly when that is tidy.

Keys and wildcards have one spelling each, so all depends on what stands between two brackets
(`inner_eq_iff`). The pins that are taken from a path stand for the path exactly when it is tidy,
too (`roundTrips_iff_tidy`): an audit complains of pins taken from any other path.
-/

import Mathlib.Data.List.Basic
import Reshape.Proofs.Path.Wildcards
import Reshape.Proofs.Plan.Pins

namespace Reshape.Path

/-- **Positions are spelled as they are written**: no bracket stands before a plus sign, or before a
zero and another digit. -/
structure Tidy (cs : List Char) : Prop where
  no_plus : ¬ ['[', '+'] <:+: cs
  no_zero : ∀ d, d.isDigit = true → ¬ ['[', '0', d] <:+: cs

/-- What stands between two brackets begins neither with a plus sign nor with a zero before another
digit. -/
structure TidyInner (inner : List Char) : Prop where
  no_plus : ¬ ['+'] <+: inner
  no_zero : ∀ d, d.isDigit = true → ¬ ['0', d] <+: inner

variable {path : String} {cs inner raw : List Char} {us : List Suffix} {s : Segment}
variable {ss : List Segment}

/-! ## Parts of a text -/

theorem digit_ne {c d : Char} (hd : d.isDigit = true) (hc : c.isDigit = false) : c ≠ d := by
  rintro rfl
  rw [hd] at hc
  cases hc

theorem tidy_iff_pieces (cs : List Char) : Tidy cs ↔ ∀ p ∈ Text.splitChar '.' cs, Tidy p := by
  have hplus : ['[', '+'] <:+: cs ↔ ∃ p ∈ Text.splitChar '.' cs, ['[', '+'] <:+: p :=
    Text.infix_iff_exists_splitChar (List.cons_ne_nil _ _) (by decide) cs
  have hzero : ∀ d, d.isDigit = true →
      (['[', '0', d] <:+: cs ↔ ∃ p ∈ Text.splitChar '.' cs, ['[', '0', d] <:+: p) := by
    intro d hd
    have hdot : '.' ≠ d := digit_ne hd rfl
    exact Text.infix_iff_exists_splitChar (List.cons_ne_nil _ _) (by simp [hdot]) cs
  constructor
  · intro h p hp
    exact ⟨fun hi => h.no_plus (hplus.mpr ⟨p, hp, hi⟩),
      fun d hd hi => h.no_zero d hd ((hzero d hd).mpr ⟨p, hp, hi⟩)⟩
  · intro h
    constructor
    · intro hi
      obtain ⟨p, hp, hi⟩ := hplus.mp hi
      exact (h p hp).no_plus hi
    · intro d hd hi
      obtain ⟨p, hp, hi⟩ := (hzero d hd).mp hi
      exact (h p hp).no_zero d hd hi

/-- A key does not matter. -/
theorem tidy_key_append {key : List Char} (h : '[' ∉ key) (cs : List Char) :
    Tidy (key ++ cs) ↔ Tidy cs := by
  constructor
  · intro ht
    exact ⟨fun hi => ht.no_plus ((Text.infix_append_iff_of_head_not_mem h cs).mpr hi),
      fun d hd hi => ht.no_zero d hd ((Text.infix_append_iff_of_head_not_mem h cs).mpr hi)⟩
  · intro ht
    exact ⟨fun hi => ht.no_plus ((Text.infix_append_iff_of_head_not_mem h cs).mp hi),
      fun d hd hi => ht.no_zero d hd ((Text.infix_append_iff_of_head_not_mem h cs).mp hi)⟩

/-- Suffixes are looked at one by one. -/
theorem tidy_bracket (h : '[' ∉ inner) (cs : List Char) :
    Tidy ('[' :: inner ++ ']' :: cs) ↔ TidyInner inner ∧ Tidy cs := by
  have hparts : ∀ rest : List Char, ']' ∉ rest →
      ('[' :: rest <:+: '[' :: inner ++ ']' :: cs ↔ rest <+: inner ∨ '[' :: rest <:+: cs) := by
    intro rest hrest
    have hclose : ']' ∉ '[' :: rest := by simp [hrest]
    rw [Text.infix_append_cons_iff (List.cons_ne_nil _ _) hclose,
      Text.infix_cons_iff_of_head_not_mem h]
  have hplus := hparts ['+'] (by decide)
  have hzero : ∀ d, d.isDigit = true → (['[', '0', d] <:+: '[' :: inner ++ ']' :: cs ↔
      ['0', d] <+: inner ∨ ['[', '0', d] <:+: cs) := by
    intro d hd
    have hd : ']' ≠ d := digit_ne hd rfl
    exact hparts ['0', d] (by simp [hd])
  constructor
  · intro ht
    exact ⟨⟨fun hi => ht.no_plus (hplus.mpr (.inl hi)),
        fun d hd hi => ht.no_zero d hd ((hzero d hd).mpr (.inl hi))⟩,
      ⟨fun hi => ht.no_plus (hplus.mpr (.inr hi)),
        fun d hd hi => ht.no_zero d hd ((hzero d hd).mpr (.inr hi))⟩⟩
  · rintro ⟨hinner, hcs⟩
    exact ⟨fun hi => (hplus.mp hi).elim hinner.no_plus hcs.no_plus,
      fun d hd hi => ((hzero d hd).mp hi).elim (hinner.no_zero d hd) (hcs.no_zero d hd)⟩

/-! ## What is written back -/

/-- **Between brackets** the star has one spelling, and a number the one without a sign and without
a zero in front. -/
theorem inner_eq_iff {u : Suffix} (h : Suffix.ofInner inner = .ok u) :
    u.inner = inner ↔ TidyInner inner := by
  rcases ofInner_eq_ok_iff.mp h with ⟨rfl, rfl⟩ | ⟨n, hn, rfl⟩
  · refine iff_of_true rfl ⟨by decide, fun d _ => ?_⟩
    rintro ⟨rest, hrest⟩
    cases hrest
  · obtain ⟨ds, hds, hne, hdigits, rfl, -⟩ := Decimal.unsigned?_eq_some_iff.mp hn
    show (Decimal.natText (Decimal.natOfDigits ds)).toList = inner ↔ _
    rw [Decimal.toList_natText]
    rcases hds with rfl | rfl
    · rw [Decimal.toDigits_natOfDigits_iff hne hdigits]
      refine ⟨fun hzero => ⟨?_, hzero⟩, TidyInner.no_zero⟩
      rintro ⟨rest, rfl⟩
      exact absurd (hdigits '+' (by simp)) (by decide)
    · refine iff_of_false (fun heq => ?_) fun ht => ht.no_plus ⟨ds, rfl⟩
      have hplus : '+' ∈ Nat.toDigits 10 (Decimal.natOfDigits ds) := heq ▸ List.mem_cons_self
      exact absurd (Decimal.isDigit_of_mem_toDigits hplus) (by decide)

theorem Spells.text_eq_iff (h : Spells cs us) : us.flatMap Suffix.text = cs ↔ Tidy cs := by
  induction h with
  | nil => exact iff_of_true rfl ⟨by decide, fun d _ => by simp⟩
  | @cons inner cs u us hu _ ih =>
    have hopen : '[' ∉ inner := not_mem_of_ofInner hu (by decide) (by decide) rfl
    have hclose : ']' ∉ inner := not_mem_of_ofInner hu (by decide) (by decide) rfl
    have hwritten : ']' ∉ u.inner := Suffix.not_mem_inner (by decide) (by decide)
    have hparts : (u :: us).flatMap Suffix.text =
        '[' :: (u.inner ++ ']' :: us.flatMap Suffix.text) := by
      simp [Suffix.text]
    rw [tidy_bracket hopen, ← inner_eq_iff hu, ← ih, hparts, List.cons_append, List.cons_inj_right]
    constructor
    · exact Text.append_cons_inj_of_not_mem hwritten hclose
    · rintro ⟨hinner, hrest⟩
      rw [hinner, hrest]

/-- **A segment is written back as it was read** when what it was read from is tidy. -/
theorem text_eq_iff_of_parseSegment (h : parseSegment path raw = .ok s) :
    s.text.toList = raw ↔ Tidy raw := by
  obtain ⟨-, cs, us, rfl, hopen, -, hspells, haccess⟩ := parseSegment_eq_ok_iff.mp h
  rw [Segment.toList_text, ← eq_suffixes_of_accessOf haccess, List.append_cancel_left_eq,
    tidy_key_append hopen, hspells.text_eq_iff]

theorem texts_eq_iff_of_parseSegment {raws : List (List Char)}
    (h : List.Forall₂ (fun raw s => parseSegment path raw = .ok s) raws ss) :
    (ss.map fun s => s.text.toList) = raws ↔ ∀ raw ∈ raws, Tidy raw := by
  induction h with
  | nil => simp
  | cons hs _ ih =>
    rw [List.map_cons, List.cons.injEq, ih, text_eq_iff_of_parseSegment hs, List.forall_mem_cons]

/-- Paths with the same pieces are the same. -/
theorem raws_injective {p q : String} (h : raws p = raws q) : p = q := by
  apply String.toList_injective
  rw [← Text.join_splitChar '.' p.toList, ← Text.join_splitChar '.' q.toList]
  exact congrArg (Text.join ['.']) h

/-- **A path is written back as it was read exactly when it is tidy.** -/
theorem text_eq_iff_tidy (h : parse path = .ok ss) : text ss = path ↔ Tidy path.toList := by
  by_cases hempty : path = ""
  · subst hempty
    cases h
    exact iff_of_true rfl ⟨by decide, fun d _ => by simp⟩
  · have hpieces := forall₂_of_parse h hempty
    have hne : ss ≠ [] := by
      rintro rfl
      exact Text.splitChar_ne_nil '.' path.toList (List.forall₂_nil_right_iff.mp hpieces)
    have hraws := raws_text hne (proper_of_parse h)
    rw [tidy_iff_pieces, ← raws, ← texts_eq_iff_of_parseSegment hpieces, ← hraws]
    exact ⟨congrArg raws, raws_injective⟩

/-- **What is written back** from the segments of a path has the same segments, and it is the path
itself exactly when no position in the path starts with a plus sign or with a zero before another
digit. -/
theorem text_of_parse_eq_iff (h : parse path = .ok ss) :
    parse (text ss) = .ok ss ∧ (text ss = path ↔ Tidy path.toList) :=
  ⟨parse_text (proper_of_parse h), text_eq_iff_tidy h⟩

/-- A cell in the eighth row. -/
def cellSegments : List Segment :=
  [⟨"rows", .indices [7]⟩, ⟨"cells", .wildcard 2⟩, ⟨"", .indices [0, 10]⟩]

/-- A row with a zero in front is written back without it. -/
theorem text_of_parse_eq_iff_cell :
    parse "rows[07].cells[*][*].[0][+10]" = .ok cellSegments ∧
      parse (text cellSegments) = .ok cellSegments ∧
      text cellSegments ≠ "rows[07].cells[*][*].[0][+10]" ∧
      Tidy "rows[7].cells[*][*].[0][10]".toList := by
  have hspelled : parse "rows[07].cells[*][*].[0][+10]" = .ok cellSegments := rfl
  have htidy : parse "rows[7].cells[*][*].[0][10]" = .ok cellSegments := rfl
  obtain ⟨hread, hiff⟩ := text_of_parse_eq_iff hspelled
  refine ⟨hspelled, hread, fun heq => ?_, (text_of_parse_eq_iff htidy).2.mp (by decide)⟩
  exact (hiff.mp heq).no_zero '7' rfl ((Text.contains_iff_infix _ _).mp (by decide))

/-- **A path can be read and not be written back**: the zero in front of a position is lost. -/
theorem not_forall_text_eq :
    ¬ ∀ (path : String) (ss : List Segment), parse path = .ok ss → text ss = path := by
  intro h
  have heq := h "items[02]" [⟨"items", .indices [2]⟩] rfl
  exact absurd heq (by decide)

end Reshape.Path

namespace Reshape.Plan.Pins

/-- **Pins stand for the path that they were taken from** exactly when it is tidy. -/
theorem roundTrips_iff_tidy {path : String} {p : Pins} (h : ofPath path = .ok (some p)) :
    p.roundTrips path = true ↔ Path.Tidy path.toList := by
  obtain ⟨ss, hparse, hss, -, rfl⟩ := ofPath_eq_ok_some_iff.mp h
  rw [← Path.text_eq_iff_tidy hparse, roundTrips, resolve_ofSegments hss]
  exact beq_iff_eq

end Reshape.Plan.Pins
