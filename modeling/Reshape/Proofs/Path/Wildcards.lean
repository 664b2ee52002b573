/-
# Reshape.Proofs.Path.Wildcards -- wildcards in the text of a path

Whether a path has a wildcard, and what it is without its wildcards, is decided on its text. For a
path that can be read the text tells the truth: `[*]` stands in it exactly when a segment has
wildcards (`hasWildcard_eq_false_iff`), however its positions are spelled. Taking the wildcards out
of the text takes them out of each segment by itself (`removes_raws_stripWildcards`).
-/

import Reshape.Proofs.Path.Spelling
import Reshape.Proofs.Text.Removal

namespace Reshape.Path

variable {path : String} {cs raw : List Char} {s : Segment} {ss : List Segment}

/-! ## Segments with wildcards -/

/-- Every piece of a path is read as one of its segments. -/
theorem exists_of_mem_raws {raws : List (List Char)} (h : parseSegments path raws = .ok ss)
    (hraw : raw ∈ raws) : ∃ s ∈ ss, parseSegment path raw = .ok s := by
  induction raws generalizing ss with
  | nil => exact absurd hraw List.not_mem_nil
  | cons other raws ih =>
    obtain ⟨t, ts, ht, hts, rfl⟩ := exists_of_cons_eq_ok h
    rcases List.mem_cons.mp hraw with rfl | hraw
    · exact ⟨t, List.mem_cons_self, ht⟩
    · obtain ⟨s, hs, hread⟩ := ih hts hraw
      exact ⟨s, List.mem_cons_of_mem t hs, hread⟩

/-- Suffixes that are all positions have no star behind a bracket, however they are spelled. -/
theorem Spells.starless {us : List Suffix} (h : Spells cs us) (hevery : .every ∉ us) :
    Starless cs := by
  induction h with
  | nil => exact starless_of_not_mem List.not_mem_nil
  | @cons inner cs u us hu _ ih =>
    rw [List.mem_cons, not_or] at hevery
    have hopen : '[' ∉ inner := not_mem_of_ofInner hu (by decide) (by decide) rfl
    have hstar : '*' ∉ inner := by
      intro hc
      rcases ofInner_eq_ok_iff.mp hu with ⟨-, rfl⟩ | ⟨n, hn, -⟩
      · exact hevery.1 rfl
      · rw [Json.unsigned?_eq_none_of_mem hc (by decide) rfl] at hn
        cases hn
    have hbracket : Starless ('[' :: inner ++ [']']) := starless_bracket hopen hstar
    have hall := hbracket.append (ih hevery.2)
    simpa using hall

/-- A segment without wildcards is spelled without one. -/
theorem starless_of_parseSegment (h : parseSegment path raw = .ok s)
    (hs : ∀ count, s.access ≠ .wildcard count) : Starless raw := by
  obtain ⟨-, cs, us, rfl, hopen, -, hspells, haccess⟩ := parseSegment_eq_ok_iff.mp h
  refine (starless_of_not_mem hopen).append (hspells.starless ?_)
  rw [eq_suffixes_of_accessOf haccess]
  cases hcase : s.access with
  | plain => exact List.not_mem_nil
  | wildcard count => exact absurd hcase (hs count)
  | indices ns => simp [Access.suffixes]

/-- A segment with wildcards is spelled with one. -/
theorem everyText_infix_of_parseSegment {count : Nat} (h : parseSegment path raw = .ok s)
    (hs : s.access = .wildcard count) : everyText.toList <:+: raw := by
  obtain ⟨-, cs, us, rfl, -, -, hspells, haccess⟩ := parseSegment_eq_ok_iff.mp h
  have hproper : s.access.Proper := Access.proper_of_accessOf hspells.proper haccess
  have hus := eq_suffixes_of_accessOf haccess
  rw [hs] at hproper hus
  obtain ⟨n, rfl⟩ := Nat.exists_eq_succ_of_ne_zero hproper
  rw [Access.suffixes, List.replicate_succ] at hus
  subst hus
  cases hspells with
  | @cons inner cs _ _ hu rest =>
    rcases ofInner_eq_ok_iff.mp hu with ⟨rfl, -⟩ | ⟨_, _, hat⟩
    · refine List.IsInfix.trans ?_ (List.suffix_append _ _).isInfix
      exact (List.prefix_append everyText.toList cs).isInfix
    · cases hat

theorem Starless.join {ps : List (List Char)} (h : ∀ p ∈ ps, Starless p) :
    Starless (Text.join ['.'] ps) := by
  induction ps with
  | nil => exact starless_of_not_mem List.not_mem_nil
  | cons p ps ih =>
    obtain ⟨hp, hps⟩ := List.forall_mem_cons.mp h
    have hdot : Starless ['.'] := starless_of_not_mem (by decide)
    cases ps with
    | nil => exact hp
    | cons q qs => exact (hp.append hdot).append (ih hps)

/-- **A path that can be read has a wildcard when a segment has one**, and not otherwise. -/
theorem hasWildcard_eq_false_iff (h : parse path = .ok ss) :
    hasWildcard path = false ↔ ∀ s ∈ ss, ∀ count, s.access ≠ .wildcard count := by
  rw [parse] at h
  split at h
  case isTrue hempty =>
    cases h
    subst hempty
    exact ⟨fun _ s hs => absurd hs List.not_mem_nil, fun _ => by decide⟩
  case isFalse =>
    constructor
    · intro hnone s hs count haccess
      obtain ⟨raw, hraw, hparse⟩ := exists_of_mem_parseSegments h hs
      have hinfix := (everyText_infix_of_parseSegment hparse haccess).trans
        (Text.infix_of_mem_splitChar hraw)
      rw [hasWildcard, (Text.contains_iff_infix _ _).mpr hinfix] at hnone
      cases hnone
    · intro hall
      apply Starless.hasWildcard
      rw [← Text.join_splitChar '.' path.toList]
      apply Starless.join
      intro raw hraw
      obtain ⟨s, hs, hparse⟩ := exists_of_mem_raws h hraw
      exact starless_of_parseSegment hparse (hall s hs)

/-! ## Taking wildcards out -/

theorem removes_stripWildcards (path : String) :
    Text.Removes everyText.toList path.toList (stripWildcards path).toList := by
  rw [stripWildcards, String.toList_ofList]
  exact Text.removes_replaceAll (by decide) path.toList

/-- A path without wildcards stays as it is. -/
theorem stripWildcards_of_hasWildcard_eq_false (h : hasWildcard path = false) :
    stripWildcards path = path := by
  apply String.toList_injective
  apply (removes_stripWildcards path).eq_of_not_occurs
  rw [← Text.contains_iff_infix]
  exact ne_true_of_eq_false h

/-- **Wildcards are taken out of each segment by itself.** -/
theorem removes_raws_stripWildcards (path : String) :
    List.Forall₂ (Text.Removes everyText.toList) (raws path) (raws (stripWildcards path)) :=
  (removes_stripWildcards path).splitChar (by decide)

/-! ## Paths that can be read without their wildcards -/

/-- **A segment that is nothing but wildcards**: it has no key of its own. -/
def Segment.IsBare (s : Segment) : Prop :=
  s.key = "" ∧ ∃ count, s.access = .wildcard count

/-- Of suffixes that are all wildcards nothing is left. -/
theorem Spells.removes_every {count : Nat} (h : Spells cs (List.replicate count .every)) :
    Text.Removes everyText.toList cs [] := by
  generalize hus : List.replicate count Suffix.every = us at h
  induction h generalizing count with
  | nil => exact .nil
  | @cons inner cs u us hu _ ih =>
    cases count with
    | zero => cases hus
    | succ count =>
      obtain ⟨rfl, rfl⟩ := List.cons.inj hus
      rcases ofInner_eq_ok_iff.mp hu with ⟨rfl, -⟩ | ⟨_, _, hat⟩
      · exact .occurrence (ih rfl)
      · cases hat

/-- **Of a segment with wildcards** its key is left. -/
theorem eq_key_of_removes {count : Nat} {rest : List Char} (h : parseSegment path raw = .ok s)
    (hs : s.access = .wildcard count) (hrest : Text.Removes everyText.toList raw rest) :
    rest = s.key.toList := by
  obtain ⟨-, cs, us, rfl, hopen, -, hspells, haccess⟩ := parseSegment_eq_ok_iff.mp h
  have hus : us = List.replicate count .every := by
    rw [eq_suffixes_of_accessOf haccess, hs, Access.suffixes]
  rw [hus] at hspells
  have hkey := hspells.removes_every.append_of_not_mem rfl hopen
  rw [List.append_nil] at hkey
  exact hkey.unique (by decide) hrest

/-- A segment without wildcards is left as it is. -/
theorem eq_of_removes {rest : List Char} (h : parseSegment path raw = .ok s)
    (hs : ∀ count, s.access ≠ .wildcard count)
    (hrest : Text.Removes everyText.toList raw rest) : rest = raw :=
  hrest.eq_of_not_occurs (starless_of_parseSegment h hs).not_occurs

/-- A text without brackets is a segment, unless it is empty. -/
theorem parseSegment_of_plain {key : String} (hne : key ≠ "") (hopen : '[' ∉ key.toList)
    (hclose : ']' ∉ key.toList) (path : String) :
    parseSegment path key.toList = .ok ⟨key, .plain⟩ := by
  apply parseSegment_eq_ok_iff.mpr
  refine ⟨?_, [], [], (List.append_nil _).symm, hopen, hclose, .nil, rfl⟩
  intro hnil
  exact hne (String.toList_eq_nil_iff.mp hnil)

/-- **What is left of a segment can be read**, unless the segment is bare and nothing is left. -/
theorem exists_parseSegment_iff_not_isBare {rest : List Char} (h : parseSegment path raw = .ok s)
    (hrest : Text.Removes everyText.toList raw rest) (other : String) :
    (∃ t, parseSegment other rest = .ok t) ↔ ¬ s.IsBare := by
  by_cases hs : ∃ count, s.access = .wildcard count
  · obtain ⟨count, hcount⟩ := hs
    rw [eq_key_of_removes h hcount hrest]
    constructor
    · rintro ⟨t, ht⟩ ⟨hkey, -⟩
      exact (parseSegment_eq_ok_iff.mp ht).1 (String.toList_eq_nil_iff.mpr hkey)
    · intro hbare
      obtain ⟨-, _, _, -, hopen, hclose, -, -⟩ := parseSegment_eq_ok_iff.mp h
      have hkey : s.key ≠ "" := fun hkey => hbare ⟨hkey, count, hcount⟩
      exact ⟨_, parseSegment_of_plain hkey hopen hclose other⟩
  · rw [eq_of_removes h (fun count hcount => hs ⟨count, hcount⟩) hrest]
    constructor
    · intro _ hbare
      exact hs hbare.2
    · -- the path is named in a refusal only
      intro _
      exact ⟨s, parseSegment_eq_ok_iff.mpr (parseSegment_eq_ok_iff.mp h)⟩

theorem parseSegments_isOk_iff {raws : List (List Char)} :
    (parseSegments path raws).isOk = true ↔ ∀ raw ∈ raws, ∃ s, parseSegment path raw = .ok s := by
  induction raws with
  | nil => simp [parseSegments, Except.isOk, Except.toBool]
  | cons raw raws ih =>
    rw [List.forall_mem_cons, ← ih, parseSegments]
    cases parseSegment path raw with
    | error _ => simp [bind, Except.bind, Except.isOk, Except.toBool]
    | ok s =>
      cases parseSegments path raws <;>
        simp [bind, Except.bind, pure, Except.pure, Except.isOk, Except.toBool]

/-- The pieces of a path are read as its segments one by one. -/
theorem forall₂_parseSegment {raws : List (List Char)} (h : parseSegments path raws = .ok ss) :
    List.Forall₂ (fun raw s => parseSegment path raw = .ok s) raws ss := by
  induction raws generalizing ss with
  | nil =>
    cases h
    exact .nil
  | cons raw raws ih =>
    obtain ⟨t, ts, ht, hts, rfl⟩ := exists_of_cons_eq_ok h
    exact .cons ht (ih hts)

/-- Pieces that were read as segments can be read without their wildcards when no segment is
bare. -/
theorem parseSegments_isOk_iff_not_isBare {raws rests : List (List Char)}
    (h : List.Forall₂ (fun raw s => parseSegment path raw = .ok s) raws ss)
    (hrests : List.Forall₂ (Text.Removes everyText.toList) raws rests) (other : String) :
    (parseSegments other rests).isOk = true ↔ ∀ s ∈ ss, ¬ s.IsBare := by
  rw [parseSegments_isOk_iff]
  induction h generalizing rests with
  | nil =>
    cases hrests
    simp
  | cons hs _ ih =>
    cases hrests with
    | cons hrest hrests =>
      rw [List.forall_mem_cons, List.forall_mem_cons,
        exists_parseSegment_iff_not_isBare hs hrest, ih hrests]

/-- The pieces of a path that can be read are its segments, unless it is empty. -/
theorem forall₂_of_parse (h : parse path = .ok ss) (hne : path ≠ "") :
    List.Forall₂ (fun raw s => parseSegment path raw = .ok s) (raws path) ss := by
  rw [parse, if_neg hne] at h
  exact forall₂_parseSegment h

/-- Of a path that is one bare segment nothing is left. -/
theorem stripWildcards_of_isBare (h : parse path = .ok [s]) (hbare : s.IsBare) :
    stripWildcards path = "" := by
  have hne : path ≠ "" := by
    rintro rfl
    cases h
  obtain ⟨raw, _, hraw, hnil, hraws⟩ := List.forall₂_cons_right_iff.mp (forall₂_of_parse h hne)
  have hrests := removes_raws_stripWildcards path
  rw [hraws, List.forall₂_nil_right_iff.mp hnil] at hrests
  obtain ⟨rest, _, hrest, hnil, hraws⟩ := List.forall₂_cons_left_iff.mp hrests
  obtain ⟨hkey, count, hcount⟩ := hbare
  rw [List.forall₂_nil_left_iff.mp hnil, eq_key_of_removes hraw hcount hrest, hkey] at hraws
  apply String.toList_eq_nil_iff.mp
  rw [← Text.join_splitChar '.' (stripWildcards path).toList, ← raws, hraws]
  rfl

/-- **Without its wildcards a path can be read** when none of its segments is bare. Of a path that
is one bare segment nothing is left at all, which is the path of the root. -/
theorem valid_stripWildcards_iff (h : parse path = .ok ss) :
    valid (stripWildcards path) = true ↔ ss.length ≤ 1 ∨ ∀ s ∈ ss, ¬ s.IsBare := by
  by_cases hpath : path = ""
  · subst hpath
    cases h
    exact ⟨fun _ => .inl (Nat.zero_le 1), fun _ => by decide⟩
  · have hread := forall₂_of_parse h hpath
    have hrests := removes_raws_stripWildcards path
    have hlength : ss.length = (raws (stripWildcards path)).length :=
      hread.length_eq.symm.trans hrests.length_eq
    rw [valid, parse]
    split
    case isTrue hempty =>
      -- one piece was there, and nothing is left of it
      rw [hempty] at hlength
      exact ⟨fun _ => .inl hlength.le, fun _ => rfl⟩
    case isFalse hne =>
      rw [parseSegments_isOk_iff_not_isBare hread hrests]
      refine ⟨.inr, ?_⟩
      rintro (hle | hall)
      · intro s hs hbare
        obtain rfl : ss = [s] := by
          obtain ⟨t, rfl⟩ := List.length_eq_one_iff.mp
            (Nat.le_antisymm hle (List.length_pos_of_mem hs))
          rw [List.mem_singleton.mp hs]
        exact hne (stripWildcards_of_isBare h hbare)
      · exact hall

end Reshape.Path
