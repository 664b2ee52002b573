/-
# Reshape.Proofs.Path.RoundTrip -- written paths are read back

Segments whose keys hold none of the characters `.`, `[` and `]` are read back from the path that
they are written as (`parse_text`), provided that none of them is empty and every position fits into
64 bits. A segment is taken apart into its key and its single suffixes: each suffix is read back by
itself (`suffixes_text_append`), and suffixes of one kind make up the access they came from
(`accessOf_suffixes`).

A path written from such segments has a wildcard when one of its segments has.
-/

import Mathlib.Data.List.Chain
import Reshape.Proofs.Decimal.Natural
import Reshape.Proofs.Path.Place
import Reshape.Proofs.Text.Search

namespace Reshape.Path

/-! ## Segments that can be read back -/

/-- The text has none of the characters that divide a path. -/
def Unstructured (text : String) : Prop :=
  ∀ c ∈ text.toList, c ≠ '.' ∧ c ≠ '[' ∧ c ≠ ']'

instance (text : String) : Decidable (Unstructured text) :=
  List.decidableBAll (fun c => c ≠ '.' ∧ c ≠ '[' ∧ c ≠ ']') text.toList

/-- An access as reading makes it: no list of suffixes is empty, and positions fit into 64 bits. -/
def Access.Proper : Access → Prop
  | .plain => True
  | .wildcard count => count ≠ 0
  | .indices ns => ns ≠ [] ∧ ∀ n ∈ ns, n ≤ Decimal.maxUnsigned

/-- **A segment that can be read back** from its text. -/
structure Segment.Proper (s : Segment) : Prop where
  key : Unstructured s.key
  access : s.access.Proper
  nonempty : s.key = "" → s.access ≠ .plain

/-! ## Single suffixes -/

/-- What a suffix has between its brackets. -/
def Suffix.inner : Suffix → List Char
  | .every => ['*']
  | .at n => (Decimal.natText n).toList

/-- A suffix as text. -/
def Suffix.text (s : Suffix) : List Char :=
  '[' :: s.inner ++ [']']

/-- The suffix can be read back. -/
def Suffix.Proper : Suffix → Prop
  | .every => True
  | .at n => n ≤ Decimal.maxUnsigned

/-- The single suffixes of an access. -/
def Access.suffixes : Access → List Suffix
  | .plain => []
  | .wildcard count => List.replicate count .every
  | .indices ns => ns.map .at

theorem text_every : Suffix.text .every = everyText.toList := rfl

theorem text_at (n : Nat) : Suffix.text (.at n) = (indexText n).toList := by
  rw [Suffix.text, indexText, String.toList_append, String.toList_append]
  rfl

theorem isDigit_of_mem_natText {n : Nat} {c : Char} (h : c ∈ (Decimal.natText n).toList) :
    c.isDigit = true :=
  Decimal.isDigit_of_mem_toDigits (Decimal.toList_natText n ▸ h)

/-- Between its brackets a suffix has a star or digits. -/
theorem Suffix.of_mem_inner {s : Suffix} {c : Char} (h : c ∈ s.inner) :
    c = '*' ∨ c.isDigit = true := by
  cases s with
  | every => exact .inl (List.mem_singleton.mp h)
  | «at» n => exact .inr (isDigit_of_mem_natText h)

theorem Suffix.not_mem_inner {s : Suffix} {c : Char} (hstar : c ≠ '*')
    (hdigit : c.isDigit = false) :
    c ∉ s.inner := by
  intro h
  rcases s.of_mem_inner h with rfl | hc
  · exact hstar rfl
  · rw [hdigit] at hc
    cases hc

theorem Suffix.ofInner_inner {s : Suffix} (h : s.Proper) : Suffix.ofInner s.inner = .ok s := by
  cases s with
  | every => rfl
  | «at» n =>
    have hstar : Suffix.inner (.at n) ≠ ['*'] := by
      intro he
      cases isDigit_of_mem_natText (n := n) (show '*' ∈ Suffix.inner (.at n) by rw [he]; decide)
    rw [Suffix.ofInner, if_neg hstar, Suffix.inner, Decimal.unsigned?_natText h]

theorem suffixes_some_append {inner cs ds : List Char} (h : ']' ∉ cs) :
    suffixes (some inner) (cs ++ ds) = suffixes (some (cs.reverse ++ inner)) ds := by
  induction cs generalizing inner with
  | nil => rfl
  | cons c cs ih =>
    have hc : c ≠ ']' := fun e => h (e ▸ List.mem_cons_self)
    rw [List.cons_append, suffixes, if_neg hc, ih fun hx => h (List.mem_cons_of_mem c hx)]
    simp

/-- One suffix is read off, and reading goes on behind it. -/
theorem suffixes_text_append {s : Suffix} (h : s.Proper) (cs : List Char) :
    suffixes none (s.text ++ cs) = (suffixes none cs).map (s :: ·) := by
  have hclose : ']' ∉ s.inner := Suffix.not_mem_inner (by decide) (by decide)
  rw [Suffix.text, List.cons_append, List.cons_append, List.append_assoc, suffixes, if_pos rfl,
    suffixes_some_append hclose, List.append_nil, List.singleton_append, suffixes, if_pos rfl,
    List.reverse_reverse, Suffix.ofInner_inner h]
  cases suffixes none cs <;> rfl

theorem suffixes_flatMap_text {ss : List Suffix} (h : ∀ s ∈ ss, s.Proper) :
    suffixes none (ss.flatMap Suffix.text) = .ok ss := by
  induction ss with
  | nil => rfl
  | cons s ss ih =>
    rw [List.flatMap_cons, suffixes_text_append (h s List.mem_cons_self),
      ih fun x hx => h x (List.mem_cons_of_mem s hx)]
    rfl

/-! ## The suffixes of an access -/

theorem Access.toList_text (a : Access) : a.text.toList = a.suffixes.flatMap Suffix.text := by
  cases a with
  | plain => rfl
  | wildcard count =>
    rw [Access.text, Access.suffixes, String.toList_intercalate, String.toList_empty,
      Text.intercalate_nil, List.map_replicate, List.flatMap, List.map_replicate, text_every]
  | indices ns =>
    rw [Access.text, Access.suffixes, String.toList_intercalate, String.toList_empty,
      Text.intercalate_nil, List.map_map, List.flatMap, List.map_map]
    congr 2
    funext n
    exact (text_at n).symm

theorem Access.Proper.suffix {a : Access} (h : a.Proper) {s : Suffix} (hs : s ∈ a.suffixes) :
    s.Proper := by
  cases a with
  | plain => exact absurd hs List.not_mem_nil
  | wildcard count =>
    rw [List.eq_of_mem_replicate hs]
    exact trivial
  | indices ns =>
    obtain ⟨n, hn, rfl⟩ := List.mem_map.mp hs
    exact h.2 n hn

theorem positions_replicate_every (count : Nat) : positions (List.replicate count .every) = [] := by
  simp [positions]

theorem positions_map_at (ns : List Nat) : positions (ns.map .at) = ns := by
  induction ns with
  | nil => rfl
  | cons n ns ih => exact congrArg (n :: ·) ih

/-- **Suffixes of one kind make up the access they came from.** -/
theorem accessOf_suffixes {a : Access} (h : a.Proper) : accessOf a.suffixes = some a := by
  cases a with
  | plain => rfl
  | wildcard count =>
    have hcount : count ≠ 0 := h
    simp [accessOf, Access.suffixes, positions_replicate_every, hcount]
  | indices ns =>
    have hnone : (ns.map Suffix.at).count .every = 0 := by simp [List.count_eq_zero]
    have hns : ns.isEmpty = false := List.isEmpty_eq_false_iff.mpr h.1
    simp [accessOf, Access.suffixes, positions_map_at, hnone, hns]

/-! ## Segments -/

theorem Segment.toList_text (s : Segment) :
    s.text.toList = s.key.toList ++ s.access.suffixes.flatMap Suffix.text := by
  rw [Segment.text, String.toList_append, Access.toList_text]

/-- The suffixes of a segment start with a bracket, if there are any. -/
theorem takeWhile_flatMap_text (ss : List Suffix) :
    (ss.flatMap Suffix.text).takeWhile (· ≠ '[') = [] := by
  cases ss with
  | nil => rfl
  | cons s ss => simp [Suffix.text]

theorem dropWhile_flatMap_text (ss : List Suffix) :
    (ss.flatMap Suffix.text).dropWhile (· ≠ '[') = ss.flatMap Suffix.text := by
  cases ss with
  | nil => rfl
  | cons s ss => simp [Suffix.text]

theorem Segment.Proper.text_ne_nil {s : Segment} (h : s.Proper) : s.text.toList ≠ [] := by
  intro he
  rw [Segment.toList_text, List.append_eq_nil_iff] at he
  refine h.nonempty (String.toList_eq_nil_iff.mp he.1) ?_
  have haccess := accessOf_suffixes h.access
  cases hs : s.access.suffixes with
  | nil =>
    rw [hs] at haccess
    exact (Option.some.inj haccess).symm
  | cons x xs =>
    rw [hs] at he
    cases he.2

/-- **The text of a segment is read back.** -/
theorem parseSegment_text {s : Segment} (h : s.Proper) (path : String) :
    parseSegment path s.text.toList = .ok s := by
  have hkey : ∀ c ∈ s.key.toList, decide (c ≠ '[') = true :=
    fun c hc => decide_eq_true (h.key c hc).2.1
  have hclose : s.key.toList.contains ']' = false := by
    rw [List.contains_eq_mem]
    exact decide_eq_false fun hc => (h.key _ hc).2.2 rfl
  -- no character of the key is an opening bracket, so the text parts into key and suffixes
  rw [parseSegment, if_neg (by rw [List.isEmpty_iff]; exact h.text_ne_nil), Segment.toList_text,
    List.takeWhile_append_of_pos hkey, List.dropWhile_append_of_pos hkey, takeWhile_flatMap_text,
    dropWhile_flatMap_text, List.append_nil]
  dsimp only
  rw [if_neg (by rw [hclose]; exact Bool.false_ne_true),
    suffixes_flatMap_text fun x hx => h.access.suffix hx]
  dsimp only
  rw [accessOf_suffixes h.access, String.ofList_toList]

theorem Segment.Proper.dot_not_mem {s : Segment} (h : s.Proper) : '.' ∉ s.text.toList := by
  intro hc
  rw [Segment.toList_text, List.mem_append, List.mem_flatMap] at hc
  rcases hc with hc | ⟨x, -, hc⟩
  · exact (h.key _ hc).1 rfl
  · have hinner : '.' ∉ x.inner := Suffix.not_mem_inner (by decide) (by decide)
    simp [Suffix.text, hinner] at hc

/-! ## Paths -/

theorem text_cons_cons (s t : Segment) (ss : List Segment) :
    text (s :: t :: ss) = s.text ++ "." ++ text (t :: ss) := by
  rw [text, List.map_cons, List.map_cons, String.intercalate_cons_cons]
  rfl

/-- The written segments of a path are the texts of its segments. -/
theorem raws_text {ss : List Segment} (hss : ss ≠ []) (h : ∀ s ∈ ss, s.Proper) :
    raws (text ss) = ss.map fun s => s.text.toList := by
  induction ss with
  | nil => exact absurd rfl hss
  | cons s ss ih =>
    have hs := (h s List.mem_cons_self).dot_not_mem
    cases ss with
    | nil =>
      rw [raws, text, List.map_cons, List.map_nil, String.intercalate_singleton,
        Text.splitChar_of_not_mem hs]
      rfl
    | cons t ss =>
      rw [text_cons_cons, raws, String.append_assoc, String.toList_append, String.toList_append,
        show ".".toList = ['.'] from rfl, List.singleton_append, Text.splitChar_append_cons,
        Text.splitChar_of_not_mem hs, List.map_cons, ← ih (List.cons_ne_nil t ss)
          fun x hx => h x (List.mem_cons_of_mem s hx)]
      rfl

theorem text_ne_empty {ss : List Segment} (hss : ss ≠ []) (h : ∀ s ∈ ss, s.Proper) :
    text ss ≠ "" := by
  intro he
  have hraws := raws_text hss h
  cases ss with
  | nil => exact hss rfl
  | cons s ss =>
    rw [he, List.map_cons] at hraws
    exact (h s List.mem_cons_self).text_ne_nil (List.cons.inj hraws).1.symm

theorem written_text {ss : List Segment} (h : ∀ s ∈ ss, s.Proper) :
    written (text ss) = ss.map fun s => s.text.toList := by
  cases ss with
  | nil => rfl
  | cons s ss =>
    have hne := List.cons_ne_nil s ss
    rw [written, if_neg (text_ne_empty hne h), raws_text hne h]

theorem parse_eq_parseSegments (path : String) :
    parse path = parseSegments path (written path) := by
  rw [parse, written]
  split <;> rfl

theorem parseSegments_text {ss : List Segment} (h : ∀ s ∈ ss, s.Proper) (path : String) :
    parseSegments path (ss.map fun s => s.text.toList) = .ok ss := by
  induction ss with
  | nil => rfl
  | cons s ss ih =>
    rw [List.map_cons, parseSegments, parseSegment_text (h s List.mem_cons_self),
      ih fun x hx => h x (List.mem_cons_of_mem s hx)]
    rfl

/-- **Segments are read back from the path that they are written as.** -/
theorem parse_text {ss : List Segment} (h : ∀ s ∈ ss, s.Proper) : parse (text ss) = .ok ss := by
  rw [parse_eq_parseSegments, written_text h, parseSegments_text h]

/-- A segment behind others is written below their path. -/
theorem text_concat {ss : List Segment} (h : ∀ s ∈ ss, s.Proper) (s : Segment) :
    text (ss ++ [s]) = below (text ss) s.text := by
  induction ss with
  | nil => rfl
  | cons t ss ih =>
    have hss : ∀ x ∈ ss, x.Proper := fun x hx => h x (List.mem_cons_of_mem t hx)
    have hne : text (t :: ss) ≠ "" := text_ne_empty (List.cons_ne_nil t ss) h
    rw [below, if_neg hne]
    cases ss with
    | nil => exact text_cons_cons t s []
    | cons u ss =>
      have hne' : text (u :: ss) ≠ "" := text_ne_empty (List.cons_ne_nil u ss) hss
      rw [List.cons_append, List.cons_append, text_cons_cons, ← List.cons_append, ih hss, below,
        if_neg hne', text_cons_cons]
      simp only [String.append_assoc]

/-! ## Wildcards -/

theorem infix_text_of_mem {s : Segment} {ss : List Segment} (h : s ∈ ss) :
    s.text.toList <:+: (text ss).toList := by
  induction ss with
  | nil => exact absurd h List.not_mem_nil
  | cons t ss ih =>
    cases ss with
    | nil =>
      rw [List.mem_singleton.mp h]
      exact List.infix_rfl
    | cons u ss =>
      rw [text_cons_cons, String.toList_append, String.toList_append]
      rcases List.mem_cons.mp h with rfl | h
      · exact ((List.prefix_append _ _).trans (List.prefix_append _ _)).isInfix
      · exact (ih h).trans (List.suffix_append _ _).isInfix

/-- A segment with wildcards makes a path with wildcards. -/
theorem hasWildcard_text {s : Segment} {ss : List Segment} {count : Nat} (h : s ∈ ss)
    (haccess : s.access = .wildcard count) (hcount : count ≠ 0) : hasWildcard (text ss) = true := by
  rw [hasWildcard, Text.contains_iff_infix]
  refine List.IsInfix.trans ?_ (infix_text_of_mem h)
  rw [Segment.toList_text, haccess, ← text_every]
  obtain ⟨n, rfl⟩ := Nat.exists_eq_succ_of_ne_zero hcount
  rw [Access.suffixes, List.replicate_succ, List.flatMap_cons]
  exact List.infix_append' _ _ _

/-- No segment of a path without wildcards has one. -/
theorem access_ne_wildcard {ss : List Segment} (hss : ∀ s ∈ ss, s.Proper)
    (h : hasWildcard (text ss) = false) :
    ∀ s ∈ ss, ∀ count, s.access ≠ .wildcard count := by
  intro s hs count haccess
  have hcount : count ≠ 0 := by
    have hproper := (hss s hs).access
    rw [haccess] at hproper
    exact hproper
  exact Bool.false_ne_true (h.symm.trans (hasWildcard_text hs haccess hcount))

/-- No bracket is followed by a star, and the last character is no bracket either: so none is when
more text of this kind follows. -/
def Starless (cs : List Char) : Prop :=
  cs.IsChain (fun a b => a = '[' → b ≠ '*') ∧ cs.getLast? ≠ some '['

theorem Starless.append {cs ds : List Char} (hcs : Starless cs) (hds : Starless ds) :
    Starless (cs ++ ds) := by
  refine ⟨List.isChain_append.mpr ⟨hcs.1, hds.1, ?_⟩, ?_⟩
  · intro x hx y _ hopen
    exact absurd (hopen ▸ hx) hcs.2
  · rw [List.getLast?_append]
    cases hlast : ds.getLast? with
    | none => exact hcs.2
    | some d =>
      have hd := hds.2
      rw [hlast] at hd
      exact hd

theorem starless_of_not_mem {cs : List Char} (h : '[' ∉ cs) : Starless cs := by
  refine ⟨?_, fun hlast => h (List.mem_of_getLast? hlast)⟩
  induction cs with
  | nil => exact List.IsChain.nil
  | cons c cs ih =>
    refine List.isChain_cons.mpr ⟨fun d _ hopen => ?_, ih fun hx => h (List.mem_cons_of_mem c hx)⟩
    exact absurd (hopen ▸ List.mem_cons_self) h

theorem Starless.flatMap {α : Type} {f : α → List Char} {xs : List α}
    (h : ∀ x ∈ xs, Starless (f x)) : Starless (xs.flatMap f) := by
  induction xs with
  | nil => exact starless_of_not_mem List.not_mem_nil
  | cons x xs ih =>
    rw [List.flatMap_cons]
    exact (h x List.mem_cons_self).append (ih fun y hy => h y (List.mem_cons_of_mem x hy))

/-- Between two brackets there is neither a star nor a bracket. -/
theorem starless_bracket {inner : List Char} (hopen : '[' ∉ inner) (hstar : '*' ∉ inner) :
    Starless ('[' :: inner ++ [']']) := by
  have hrest : Starless (inner ++ [']']) := starless_of_not_mem (by simp [hopen])
  show Starless ('[' :: (inner ++ [']']))
  refine ⟨List.isChain_cons.mpr ⟨fun c hc _ => ?_, hrest.1⟩, ?_⟩
  · rintro rfl
    have hmem := List.mem_of_head? hc
    simp [hstar] at hmem
  · rw [List.getLast?_cons_of_ne_nil (by simp)]
    exact hrest.2

/-- Behind the bracket of a position there is a digit. -/
theorem starless_text_at (n : Nat) : Starless (Suffix.text (.at n)) := by
  apply starless_bracket
  · exact Suffix.not_mem_inner (by decide) (by decide)
  · intro hc
    cases isDigit_of_mem_natText (n := n) hc

theorem Segment.starless_text {s : Segment} (hs : s.Proper)
    (h : ∀ count, s.access ≠ .wildcard count) : Starless s.text.toList := by
  rw [Segment.toList_text]
  refine (starless_of_not_mem fun hc => (hs.key _ hc).2.1 rfl).append (.flatMap fun x hx => ?_)
  cases haccess : s.access with
  | plain =>
    rw [haccess] at hx
    exact absurd hx List.not_mem_nil
  | wildcard count => exact absurd haccess (h count)
  | indices ns =>
    rw [haccess] at hx
    obtain ⟨n, -, rfl⟩ := List.mem_map.mp hx
    exact starless_text_at n

theorem starless_text {ss : List Segment} (hss : ∀ s ∈ ss, s.Proper)
    (h : ∀ s ∈ ss, ∀ count, s.access ≠ .wildcard count) : Starless (text ss).toList := by
  induction ss with
  | nil => exact starless_of_not_mem List.not_mem_nil
  | cons s ss ih =>
    have hs := Segment.starless_text (hss s List.mem_cons_self) (h s List.mem_cons_self)
    cases ss with
    | nil =>
      rw [text, List.map_cons, List.map_nil, String.intercalate_singleton]
      exact hs
    | cons t ss =>
      have hdot : Starless ".".toList := starless_of_not_mem (by decide)
      rw [text_cons_cons, String.toList_append, String.toList_append]
      refine (hs.append hdot).append (ih ?_ ?_)
      · exact fun x hx => hss x (List.mem_cons_of_mem s hx)
      · exact fun x hx => h x (List.mem_cons_of_mem s hx)

theorem Starless.not_occurs {cs : List Char} (h : Starless cs) : ¬ everyText.toList <:+: cs := by
  rintro ⟨front, back, rfl⟩
  have hchain := h.1
  rw [List.isChain_append, List.isChain_append] at hchain
  exact (List.isChain_cons.mp hchain.1.2.1).1 '*' rfl rfl rfl

theorem Starless.hasWildcard {path : String} (h : Starless path.toList) :
    hasWildcard path = false := by
  rw [← Bool.not_eq_true, Path.hasWildcard, Text.contains_iff_infix]
  exact h.not_occurs

/-- **A path has a wildcard when a segment has one**, and not otherwise. -/
theorem hasWildcard_text_eq_false_iff {ss : List Segment} (hss : ∀ s ∈ ss, s.Proper) :
    hasWildcard (text ss) = false ↔ ∀ s ∈ ss, ∀ count, s.access ≠ .wildcard count :=
  ⟨access_ne_wildcard hss, fun h => (starless_text hss h).hasWildcard⟩

end Reshape.Path
