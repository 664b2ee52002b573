/-
# Reshape.Proofs.Survey.Resolve -- every field of a survey resolves

A walk through a plain document goes from a value to the members of an object, and to elements of an
array (`walk_obj`, `walk_arr`). Two things follow from what these steps can do.

* `Reached root path value`: the walk comes to `value` at `path` by such steps. The path is then
  made of segments that can be read back, and they lead from the root to the value, by the first
  element wherever the path speaks of every one (`Reached.segments`). The rule that the suffixes of
  one segment are never of both kinds is kept by looking at the end of the path as a text
  (`underIndex_of_suffix`, `underWildcard_of_suffix`).
* `Extends path other`: below a path, only paths stand that go on from it with a dot or a bracket.
  Paths that go on from different children are different, so no path is listed twice.
-/

import Mathlib.Data.List.Induction
import Mathlib.Data.List.Nodup
import Reshape.Proofs.Path.First
import Reshape.Survey.Basic

namespace Reshape.Survey

open Reshape.Path (Suffix Segment Access below)

/-! ## What a walk does -/

/-- A suffix may follow a path: no segment gets suffixes of both kinds. -/
def Fits (path : String) : Suffix → Prop
  | .every => underIndex path = false
  | .at _ => underWildcard path = false

/-- The path of elements of an array. -/
def element (path : String) (s : Suffix) : String :=
  path ++ String.ofList s.text

theorem element_at (path : String) (n : Nat) : element path (.at n) = path ++ Path.indexText n := by
  rw [element, Path.text_at, String.ofList_toList]

/-- The elements through which an array is entered. -/
def entries (o : Options) (path : String) (xs : List Json) : List (Suffix × Json) :=
  (if o.includeWildcards && !underIndex path then
      xs.head?.toList.map fun x => (.every, x)
    else []) ++
    (if o.includeFixedIndices && !underWildcard path then
      ((xs.take o.maxArrayIndices).zipIdx).map fun (x, n) => (.at n, x)
    else [])

theorem walk_scalar (o : Options) (path : String) (depth : Nat) {value : Json}
    (h : value.isContainer = false) : walk o path depth value = [field o path value] := by
  cases value with
  | obj ms => cases h
  | arr xs => cases h
  | _ => rfl

theorem walkMembers_eq_flatMap (o : Options) (path : String) (depth : Nat) (ms : Members) :
    walkMembers o path depth ms = ms.flatMap fun m => walk o (below path m.1) depth m.2 := by
  induction ms with
  | nil => rw [walkMembers, List.flatMap_nil]
  | cons m ms ih => rw [walkMembers, List.flatMap_cons, ih]

theorem walkItems_eq_flatMap (o : Options) (path : String) (depth index left : Nat)
    (xs : List Json) :
    walkItems o path depth index left xs =
      (((xs.take left).zipIdx index).map fun (x, n) => (Suffix.at n, x)).flatMap fun e =>
        walk o (element path e.1) depth e.2 := by
  induction xs generalizing index left with
  | nil => simp [walkItems]
  | cons x xs ih =>
    cases left with
    | zero => simp [walkItems]
    | succ left =>
      rw [walkItems, ih, List.take_succ_cons, List.zipIdx_cons, List.map_cons, List.flatMap_cons,
        element_at]

theorem walkFirst_eq_flatMap (o : Options) (path : String) (depth : Nat) (xs : List Json) :
    walkFirst o (path ++ Path.everyText) depth xs =
      (xs.head?.toList.map fun x => (Suffix.every, x)).flatMap fun e =>
        walk o (element path e.1) depth e.2 := by
  cases xs with
  | nil => rw [walkFirst]; rfl
  | cons x xs =>
    rw [walkFirst]
    exact (List.append_nil _).symm

/-- **The fields of an object** are those of its members, or there is one for the object itself. -/
theorem walk_obj (o : Options) (path : String) (depth : Nat) (ms : Members) :
    (walk o path depth (.obj ms) = [] ∧ path = "") ∨
      (walk o path depth (.obj ms) = [field o path (.obj ms)] ∧ path ≠ "") ∨
      walk o path depth (.obj ms) =
        ms.flatMap fun m => walk o (below path m.1) (depth - 1) m.2 := by
  rw [walk]
  split
  case isTrue =>
    split
    case isTrue hpath => exact .inl ⟨rfl, hpath⟩
    case isFalse hpath => exact .inr (.inl ⟨rfl, hpath⟩)
  case isFalse => exact .inr (.inr (walkMembers_eq_flatMap o path (depth - 1) ms))

/-- **The fields of an array** are those of its entries, or there is one for the array itself. -/
theorem walk_arr (o : Options) (path : String) (depth : Nat) (xs : List Json) :
    walk o path depth (.arr xs) = [field o path (.arr xs)] ∨
      walk o path depth (.arr xs) =
        (entries o path xs).flatMap fun e => walk o (element path e.1) (depth - 1) e.2 := by
  have hentries : ((entries o path xs).flatMap fun e => walk o (element path e.1) (depth - 1) e.2) =
      (if o.includeWildcards && !underIndex path then
          walkFirst o (path ++ Path.everyText) (depth - 1) xs
        else []) ++
      (if o.includeFixedIndices && !underWildcard path then
          walkItems o path (depth - 1) 0 o.maxArrayIndices xs
        else []) := by
    rw [entries, List.flatMap_append, walkFirst_eq_flatMap, walkItems_eq_flatMap]
    congr 1 <;> split <;> rfl
  rw [walk, hentries]
  split
  case isTrue => exact .inl rfl
  case isFalse => exact ite_eq_or_eq _ _ _

/-- **What an entry of an array is**: an element at the position of a suffix that fits. -/
theorem of_mem_entries {o : Options} (ho : o.maxArrayIndices ≤ Decimal.maxUnsigned) {path : String}
    {xs : List Json} {e : Suffix × Json} (h : e ∈ entries o path xs) :
    e.1.Proper ∧ Fits path e.1 ∧ xs[e.1.position]? = some e.2 := by
  rcases List.mem_append.mp h with h | h
  · split at h
    case isFalse => exact absurd h List.not_mem_nil
    case isTrue hc =>
      obtain ⟨x, hx, rfl⟩ := List.mem_map.mp h
      rw [Option.mem_toList, List.head?_eq_getElem?] at hx
      rw [Bool.and_eq_true, Bool.not_eq_true'] at hc
      exact ⟨trivial, hc.2, hx⟩
  · split at h
    case isFalse => exact absurd h List.not_mem_nil
    case isTrue hc =>
      obtain ⟨⟨x, n⟩, hx, rfl⟩ := List.mem_map.mp h
      rw [List.mem_zipIdx_iff_getElem?, List.getElem?_take] at hx
      rw [Bool.and_eq_true, Bool.not_eq_true'] at hc
      split at hx
      case isTrue hn => exact ⟨Nat.le_of_lt (Nat.lt_of_lt_of_le hn ho), hc.2, hx⟩
      case isFalse => cases hx

theorem mem_of_mem_entries {o : Options} {path : String} {xs : List Json} {e : Suffix × Json}
    (h : e ∈ entries o path xs) : e.2 ∈ xs := by
  rcases List.mem_append.mp h with h | h
  · split at h
    case isFalse => exact absurd h List.not_mem_nil
    case isTrue =>
      obtain ⟨x, hx, rfl⟩ := List.mem_map.mp h
      exact List.mem_of_mem_head? (Option.mem_toList.mp hx)
  · split at h
    case isFalse => exact absurd h List.not_mem_nil
    case isTrue =>
      obtain ⟨⟨x, n⟩, hx, rfl⟩ := List.mem_map.mp h
      exact List.mem_of_mem_take (List.fst_mem_of_mem_zipIdx hx)

/-- No suffix stands for two entries. -/
theorem nodup_entries (o : Options) (path : String) (xs : List Json) :
    ((entries o path xs).map Prod.fst).Nodup := by
  have hsingle : ∀ ys : List Json, ((ys.zipIdx.map fun (x, n) => (Suffix.at n, x)).map Prod.fst) =
      (List.range' 0 ys.length).map Suffix.at := by
    intro ys
    rw [← List.zipIdx_map_snd 0 ys, List.map_map, List.map_map]
    rfl
  rw [entries, List.map_append, List.nodup_append]
  refine ⟨?_, ?_, ?_⟩
  · split
    case isTrue => cases xs <;> simp
    case isFalse => exact List.nodup_nil
  · split
    case isTrue =>
      rw [hsingle]
      exact List.Nodup.map (fun m n h => Suffix.at.inj h) List.nodup_range'
    case isFalse => exact List.nodup_nil
  · intro s hs t ht
    have hs : s = .every := by
      split at hs
      case isTrue =>
        obtain ⟨e, he, rfl⟩ := List.mem_map.mp hs
        obtain ⟨x, -, rfl⟩ := List.mem_map.mp he
        rfl
      case isFalse => exact absurd hs List.not_mem_nil
    have ht : ∃ n, t = .at n := by
      split at ht
      case isTrue =>
        rw [hsingle] at ht
        obtain ⟨n, -, rfl⟩ := List.mem_map.mp ht
        exact ⟨n, rfl⟩
      case isFalse => exact absurd ht List.not_mem_nil
    obtain ⟨n, rfl⟩ := ht
    rw [hs]
    exact Suffix.noConfusion

/-! ## Where a walk comes to -/

/-- **A walk comes to a value**: from the root through members and through elements of arrays. -/
inductive Reached (root : Json) : String → Json → Prop
  | root : Reached root "" root
  | member {path key : String} {ms : Members} {value : Json} (h : Reached root path (.obj ms))
      (hkey : Path.PlainKey key) (hvalue : Members.get? ms key = some value) :
      Reached root (below path key) value
  | element {path : String} {xs : List Json} {s : Suffix} {value : Json}
      (h : Reached root path (.arr xs)) (hs : s.Proper) (hfits : Fits path s)
      (hvalue : xs[s.position]? = some value) : Reached root (element path s) value

/-- **Every field is one of a value to which the walk comes.** -/
theorem reached_of_mem_walk {o : Options} (ho : o.maxArrayIndices ≤ Decimal.maxUnsigned)
    {root value : Json} (hplain : value.Plain) {path : String} {depth : Nat}
    (hpath : Reached root path value) {f : Field} (hf : f ∈ walk o path depth value) :
    ∃ w, Reached root f.path w ∧ f = field o f.path w := by
  induction hplain generalizing path depth with
  | scalar h =>
    rw [walk_scalar o path depth h, List.mem_singleton] at hf
    exact hf ▸ ⟨_, hpath, rfl⟩
  | arr _ ih =>
    rcases walk_arr o path depth _ with hw | hw
    · rw [hw, List.mem_singleton] at hf
      exact hf ▸ ⟨_, hpath, rfl⟩
    · rw [hw] at hf
      obtain ⟨e, he, hf⟩ := List.mem_flatMap.mp hf
      obtain ⟨hs, hfits, hvalue⟩ := of_mem_entries ho he
      exact ih e.2 (List.mem_of_getElem? hvalue) (.element hpath hs hfits hvalue) hf
  | obj hdistinct hkeys _ ih =>
    rcases walk_obj o path depth _ with ⟨hw, -⟩ | ⟨hw, -⟩ | hw
    · rw [hw] at hf
      exact absurd hf List.not_mem_nil
    · rw [hw, List.mem_singleton] at hf
      exact hf ▸ ⟨_, hpath, rfl⟩
    · rw [hw] at hf
      obtain ⟨m, hm, hf⟩ := List.mem_flatMap.mp hf
      exact ih m hm (.member hpath (hkeys m hm) (lookup_of_mem hdistinct hm)) hf

/-! ## Paths as segments -/

theorem underWildcard_of_suffix {path : String} (h : Suffix.text .every <:+ path.toList) :
    underWildcard path = true :=
  List.isSuffixOf_iff_suffix.mpr h

/-- The suffix for one element ends in a digit and a bracket. -/
theorem exists_text_at_eq (n : Nat) :
    ∃ (init : List Char) (d : Char), Suffix.text (.at n) = init ++ [d, ']'] ∧ d.isDigit = true := by
  rcases List.eq_nil_or_concat (Suffix.inner (.at n)) with h | ⟨init, d, h⟩
  · exact absurd ((Decimal.toList_natText n).symm.trans h) Nat.toDigits_ne_nil
  · rw [List.concat_eq_append] at h
    refine ⟨'[' :: init, d, ?_, Path.isDigit_of_mem_natText (n := n) ?_⟩
    · rw [Suffix.text, h]
      simp
    · change d ∈ Suffix.inner (.at n)
      rw [h]
      exact List.mem_append_right init List.mem_cons_self

theorem underIndex_of_suffix {path : String} {n : Nat} (h : Suffix.text (.at n) <:+ path.toList) :
    underIndex path = true := by
  obtain ⟨init, d, htext, hd⟩ := exists_text_at_eq n
  obtain ⟨cs, hcs⟩ := h
  rw [htext, ← List.append_assoc] at hcs
  have hclose : [']'] <:+ path.toList := ⟨cs ++ init ++ [d], by rw [← hcs]; simp⟩
  have hstar : ¬ Suffix.text .every <:+ path.toList := by
    rintro ⟨ds, hds⟩
    have hboth : (ds ++ ['[']) ++ ['*', ']'] = (cs ++ init) ++ [d, ']'] := by
      rw [hcs, ← hds, List.append_assoc]
      rfl
    have hlast := (List.append_inj' hboth rfl).2
    rw [← (List.cons.inj hlast).1] at hd
    cases hd
  rw [underIndex, Bool.and_eq_true, Bool.not_eq_true', ← Bool.not_eq_true]
  exact ⟨List.isSuffixOf_iff_suffix.mpr hclose, fun hw => hstar (List.isSuffixOf_iff_suffix.mp hw)⟩

/-- A suffix that fits is of the kind of the one before it. -/
theorem Fits.kind {path : String} {s t : Suffix} (h : Fits path s) (ht : t.text <:+ path.toList) :
    t = .every ↔ s = .every := by
  cases t with
  | every =>
    cases s with
    | every => exact Iff.rfl
    | «at» n => cases (underWildcard_of_suffix ht).symm.trans h
  | «at» m =>
    cases s with
    | every => cases (underIndex_of_suffix ht).symm.trans h
    | «at» n => exact ⟨Suffix.noConfusion, Suffix.noConfusion⟩

/-- All suffixes of a segment are of one kind. -/
theorem suffixes_kind {a : Access} {s t : Suffix} (hs : s ∈ a.suffixes) (ht : t ∈ a.suffixes) :
    s = .every ↔ t = .every := by
  cases a with
  | plain => exact absurd hs List.not_mem_nil
  | wildcard count => rw [List.eq_of_mem_replicate hs, List.eq_of_mem_replicate ht]
  | indices ns =>
    obtain ⟨m, -, rfl⟩ := List.mem_map.mp hs
    obtain ⟨n, -, rfl⟩ := List.mem_map.mp ht
    exact ⟨Suffix.noConfusion, Suffix.noConfusion⟩

/-- One more suffix of the same kind. -/
theorem exists_access_concat {a : Access} (h : a.Proper) {s : Suffix} (hs : s.Proper)
    (hkind : ∀ t ∈ a.suffixes, t = .every ↔ s = .every) :
    ∃ b : Access, b.Proper ∧ b ≠ .plain ∧ b.suffixes = a.suffixes ++ [s] := by
  cases a with
  | plain =>
    cases s with
    | every => exact ⟨.wildcard 1, Nat.one_ne_zero, Access.noConfusion, rfl⟩
    | «at» n =>
      refine ⟨.indices [n], ⟨List.cons_ne_nil n [], ?_⟩, Access.noConfusion, rfl⟩
      exact fun m hm => List.mem_singleton.mp hm ▸ hs
  | wildcard count =>
    obtain ⟨k, rfl⟩ := Nat.exists_eq_succ_of_ne_zero h
    obtain rfl := (hkind .every List.mem_cons_self).mp rfl
    exact ⟨.wildcard (k + 2), Nat.succ_ne_zero _, Access.noConfusion, List.replicate_succ'⟩
  | indices ns =>
    cases s with
    | every =>
      obtain ⟨n, ns', rfl⟩ := List.exists_cons_of_ne_nil h.1
      cases (hkind (.at n) List.mem_cons_self).mpr rfl
    | «at» n =>
      have hne : ns ++ [n] ≠ [] := List.append_ne_nil_of_right_ne_nil ns (List.cons_ne_nil n [])
      refine ⟨.indices (ns ++ [n]), ⟨hne, ?_⟩, Access.noConfusion, List.map_append⟩
      intro m hm
      rcases List.mem_append.mp hm with hm | hm
      · exact h.2 m hm
      · exact List.mem_singleton.mp hm ▸ hs

/-- A segment with one more suffix goes one step further. -/
theorem exists_segment_concat {t : Segment} (hkey : Path.Unstructured t.key)
    (haccess : t.access.Proper) {s : Suffix} (hs : s.Proper)
    (hkind : ∀ x ∈ t.access.suffixes, x = .every ↔ s = .every) :
    ∃ u : Segment, u.Proper ∧ u.text = element t.text s ∧
      ∀ node, u.first? node = (t.first? node).bind (Json.item? s.position) := by
  obtain ⟨b, hb, hplain, hsuffixes⟩ := exists_access_concat haccess hs hkind
  refine ⟨⟨t.key, b⟩, ⟨hkey, hb, fun _ => hplain⟩, ?_, fun node => ?_⟩
  · apply String.toList_injective
    rw [element, String.toList_append, String.toList_ofList, Segment.toList_text,
      Segment.toList_text, hsuffixes, List.flatMap_append, List.flatMap_singleton,
      List.append_assoc]
  · rw [Segment.first?, Segment.first?, hsuffixes, List.map_append, Option.bind_assoc]
    exact Option.bind_congr fun v _ => Json.itemAt?_concat _ _ v

theorem below_element (path key : String) (s : Suffix) :
    below path (element key s) = element (below path key) s := by
  rw [below, below]
  split
  case isTrue => rfl
  case isFalse => simp only [element, String.append_assoc]

theorem suffix_below (path key : String) : key.toList <:+ (below path key).toList := by
  rw [below]
  split
  case isTrue => exact List.suffix_rfl
  case isFalse =>
    rw [String.toList_append]
    exact List.suffix_append _ _

/-- A suffix that fits after segments is of the kind of all suffixes of the last one. -/
theorem Fits.kinds {ss : List Segment} {t : Segment} {s : Suffix} (hss : ∀ x ∈ ss, x.Proper)
    (h : Fits (Path.text (ss ++ [t])) s) : ∀ x ∈ t.access.suffixes, x = .every ↔ s = .every := by
  intro x hx
  obtain ⟨init, y, hy⟩ := (List.eq_nil_or_concat t.access.suffixes).resolve_left
    (List.ne_nil_of_mem hx)
  rw [List.concat_eq_append] at hy
  have hlast : y ∈ t.access.suffixes := hy ▸ List.mem_append_right init List.mem_cons_self
  have hend : y.text <:+ (Path.text (ss ++ [t])).toList := by
    rw [Path.text_concat hss]
    refine List.IsSuffix.trans ?_ (suffix_below _ _)
    rw [Segment.toList_text, hy, List.flatMap_append, List.flatMap_singleton]
    exact List.suffix_append_of_suffix (List.suffix_append _ _)
  exact (suffixes_kind hx hlast).trans (h.kind hend)

/-- Segments that lead to a value, and of which a path is the text. -/
def Along (root : Json) (path : String) (value : Json) (ss : List Segment) : Prop :=
  (∀ s ∈ ss, s.Proper) ∧ path = Path.text ss ∧ Json.first? ss root = some value

theorem Along.member {root : Json} {path key : String} {ms : Members} {value : Json}
    {ss : List Segment} (h : Along root path (.obj ms) ss) (hkey : Path.PlainKey key)
    (hvalue : Members.get? ms key = some value) :
    Along root (below path key) value (ss ++ [⟨key, .plain⟩]) := by
  obtain ⟨hss, rfl, hfirst⟩ := h
  have hproper : Segment.Proper ⟨key, .plain⟩ := ⟨hkey.2, trivial, fun e => absurd e hkey.1⟩
  refine ⟨List.forall_mem_append.mpr ⟨hss, List.forall_mem_singleton.mpr hproper⟩, ?_, ?_⟩
  · rw [Path.text_concat hss]
    exact congrArg (Path.below _) String.append_empty.symm
  · rw [Json.first?_concat, hfirst, Option.bind_some, Segment.first?, Json.child?_obj hkey.1,
      hvalue]
    rfl

theorem Along.element {root : Json} {path : String} {xs : List Json} {s : Suffix} {value : Json}
    {ss : List Segment} (h : Along root path (.arr xs) ss) (hs : s.Proper) (hfits : Fits path s)
    (hvalue : xs[s.position]? = some value) :
    ∃ ts, Along root (element path s) value ts := by
  obtain ⟨hss, rfl, hfirst⟩ := h
  rcases List.eq_nil_or_concat ss with rfl | ⟨ss, t, rfl⟩
  · -- the document itself is an array: the first segment has no key
    obtain ⟨u, hu, htext, hnext⟩ := exists_segment_concat (t := ⟨"", .plain⟩)
      (fun c hc => absurd hc List.not_mem_nil) trivial hs fun x hx => absurd hx List.not_mem_nil
    refine ⟨[u], List.forall_mem_singleton.mpr hu, ?_, ?_⟩
    · change Survey.element "" s = String.intercalate "." [u.text]
      rw [String.intercalate_singleton, htext]
      rfl
    · cases Option.some.inj hfirst
      rw [Json.first?, hnext]
      exact (Option.bind_fun_some _).trans hvalue
  · rw [List.concat_eq_append] at hss hfits hfirst ⊢
    obtain ⟨hss, ht⟩ := List.forall_mem_append.mp hss
    have ht := List.forall_mem_singleton.mp ht
    obtain ⟨u, hu, htext, hnext⟩ := exists_segment_concat ht.key ht.access hs (hfits.kinds hss)
    refine ⟨ss ++ [u], List.forall_mem_append.mpr ⟨hss, List.forall_mem_singleton.mpr hu⟩, ?_, ?_⟩
    · rw [Path.text_concat hss, Path.text_concat hss, htext, below_element]
    · rw [Json.first?_concat] at hfirst ⊢
      obtain ⟨node, hnode, hfirst⟩ := Option.bind_eq_some_iff.mp hfirst
      rw [hnode, Option.bind_some, hnext, hfirst]
      exact hvalue

/-- **Where a walk comes to, segments lead to** that can be read back from the path. -/
theorem Reached.segments {root value : Json} {path : String} (h : Reached root path value) :
    ∃ ss, Along root path value ss := by
  induction h with
  | root => exact ⟨[], fun s hs => absurd hs List.not_mem_nil, rfl, rfl⟩
  | member _ hkey hvalue ih =>
    obtain ⟨ss, hss⟩ := ih
    exact ⟨_, hss.member hkey hvalue⟩
  | element _ hs hfits hvalue ih =>
    obtain ⟨ss, hss⟩ := ih
    exact hss.element hs hfits hvalue

/-! ## Paths below a path -/

/-- **A path goes on from another**: with a dot or a bracket, or not at all. -/
def Extends (path other : String) : Prop :=
  ∃ rest, other.toList = path.toList ++ rest ∧ rest.takeWhile (fun c => c ≠ '.' ∧ c ≠ '[') = []

theorem Extends.refl (path : String) : Extends path path :=
  ⟨[], (List.append_nil _).symm, rfl⟩

theorem Extends.trans {p q r : String} (h : Extends p q) (h' : Extends q r) : Extends p r := by
  obtain ⟨x, hq, hx⟩ := h
  obtain ⟨y, hr, hy⟩ := h'
  refine ⟨x ++ y, by rw [hr, hq, List.append_assoc], ?_⟩
  cases x with
  | nil => exact hy
  | cons c cs =>
    rw [List.takeWhile_cons] at hx
    rw [List.cons_append, List.takeWhile_cons]
    split at hx
    case isTrue => cases hx
    case isFalse hc => exact if_neg hc

theorem extends_element (path : String) (s : Suffix) : Extends path (element path s) :=
  ⟨s.text, by rw [element, String.toList_append, String.toList_ofList], rfl⟩

theorem extends_below {path : String} (h : path ≠ "") (key : String) :
    Extends path (below path key) := by
  refine ⟨'.' :: key.toList, ?_, rfl⟩
  rw [below, if_neg h, String.append_assoc, String.toList_append, String.toList_append]
  rfl

theorem element_ne_empty (path : String) (s : Suffix) : element path s ≠ "" := by
  intro h
  have htext := congrArg String.toList h
  rw [element, String.toList_append, String.toList_ofList, Suffix.text] at htext
  exact absurd htext (by simp)

theorem below_ne_empty {path key : String} (h : key ≠ "") : below path key ≠ "" := by
  intro he
  obtain ⟨pre, hpre⟩ := suffix_below path key
  rw [he] at hpre
  exact h (String.toList_eq_nil_iff.mp (List.append_eq_nil_iff.mp hpre).2)

/-- **A path goes on from one member only.** -/
theorem eq_of_extends_below {path key key' other : String} (hkey : Path.PlainKey key)
    (hkey' : Path.PlainKey key') (h : Extends (below path key) other)
    (h' : Extends (below path key') other) : key = key' := by
  obtain ⟨x, hother, hx⟩ := h
  obtain ⟨y, hother', hy⟩ := h'
  have hall : ∀ {k : String}, Path.PlainKey k → ∀ c ∈ k.toList, decide (c ≠ '.' ∧ c ≠ '[') = true :=
    fun hk c hc => decide_eq_true ⟨(hk.2 c hc).1, (hk.2 c hc).2.1⟩
  have hsame : key.toList ++ x = key'.toList ++ y := by
    rw [hother] at hother'
    simp only [below] at hother'
    split at hother'
    case isTrue => exact hother'
    case isFalse =>
      simp only [String.toList_append, List.append_assoc] at hother'
      exact List.append_cancel_left (List.append_cancel_left hother')
  -- a key ends where a dot or a bracket follows, so the same text begins with one key only
  have htake := congrArg (List.takeWhile fun c => c ≠ '.' ∧ c ≠ '[') hsame
  rw [List.takeWhile_append_of_pos (hall hkey), List.takeWhile_append_of_pos (hall hkey'), hx, hy,
    List.append_nil, List.append_nil] at htake
  exact String.toList_injective htake

/-- **A path goes on from one element only.** -/
theorem eq_of_extends_element {path other : String} {s t : Suffix} (hs : s.Proper) (ht : t.Proper)
    (h : Extends (element path s) other) (h' : Extends (element path t) other) : s = t := by
  obtain ⟨x, hother, -⟩ := h
  obtain ⟨y, hother', -⟩ := h'
  have hall : ∀ {u : Suffix}, ∀ c ∈ u.inner, decide (c ≠ ']') = true := by
    intro u c hc
    exact decide_eq_true fun e => u.not_mem_inner (by decide) (by decide) (e ▸ hc)
  have hsame : s.inner ++ ']' :: x = t.inner ++ ']' :: y := by
    rw [hother] at hother'
    simpa [element, Suffix.text] using hother'
  -- the first closing bracket ends the suffix in both
  have htake := congrArg (List.takeWhile fun c => c ≠ ']') hsame
  rw [List.takeWhile_append_of_pos hall, List.takeWhile_append_of_pos hall,
    List.takeWhile_cons_of_neg (by decide), List.takeWhile_cons_of_neg (by decide),
    List.append_nil, List.append_nil] at htake
  have hread := Suffix.ofInner_inner hs
  rw [htake, Suffix.ofInner_inner ht] at hread
  exact (Except.ok.inj hread).symm

/-- The fields at and below a value have paths that go on from its path. -/
theorem extends_of_mem_walk {o : Options} {value : Json} (hplain : value.Plain) {path : String}
    (hpath : path ≠ "") {depth : Nat} {f : Field} (hf : f ∈ walk o path depth value) :
    Extends path f.path := by
  induction hplain generalizing path depth with
  | scalar h =>
    rw [walk_scalar o path depth h, List.mem_singleton] at hf
    exact hf ▸ Extends.refl path
  | @arr xs _ ih =>
    rcases walk_arr o path depth xs with hw | hw
    · rw [hw, List.mem_singleton] at hf
      exact hf ▸ Extends.refl path
    · rw [hw] at hf
      obtain ⟨e, he, hf⟩ := List.mem_flatMap.mp hf
      exact (extends_element path e.1).trans
        (ih e.2 (mem_of_mem_entries he) (element_ne_empty path e.1) hf)
  | @obj ms _ hkeys _ ih =>
    rcases walk_obj o path depth ms with ⟨hw, -⟩ | ⟨hw, -⟩ | hw
    · rw [hw] at hf
      exact absurd hf List.not_mem_nil
    · rw [hw, List.mem_singleton] at hf
      exact hf ▸ Extends.refl path
    · rw [hw] at hf
      obtain ⟨m, hm, hf⟩ := List.mem_flatMap.mp hf
      exact (extends_below hpath m.1).trans (ih m hm (below_ne_empty (hkeys m hm).1) hf)

/-- Paths that go on from children apart from each other are distinct. -/
theorem nodup_flatMap {α : Type} {xs : List α} (child : α → String) {sub : α → List Field}
    (hsub : ∀ x ∈ xs, ((sub x).map Field.path).Nodup)
    (hextends : ∀ x ∈ xs, ∀ f ∈ sub x, Extends (child x) f.path)
    (hapart : xs.Pairwise fun x y => ∀ other, Extends (child x) other → ¬ Extends (child y) other) :
    ((xs.flatMap sub).map Field.path).Nodup := by
  rw [List.map_flatMap, List.nodup_flatMap]
  refine ⟨hsub, hapart.imp_of_mem fun hx hy hxy => ?_⟩
  intro other hother hother'
  obtain ⟨f, hf, rfl⟩ := List.mem_map.mp hother
  obtain ⟨g, hg, hfg⟩ := List.mem_map.mp hother'
  exact hxy f.path (hextends _ hx f hf) (hfg ▸ hextends _ hy g hg)

/-- **No path is listed twice.** -/
theorem nodup_walk {o : Options} (ho : o.maxArrayIndices ≤ Decimal.maxUnsigned) {value : Json}
    (hplain : value.Plain) (path : String) (depth : Nat) :
    ((walk o path depth value).map Field.path).Nodup := by
  induction hplain generalizing path depth with
  | scalar h =>
    rw [walk_scalar o path depth h]
    exact List.nodup_singleton _
  | @arr xs hitems ih =>
    rcases walk_arr o path depth xs with hw | hw
    · rw [hw]
      exact List.nodup_singleton _
    · rw [hw]
      have hmem : ∀ e ∈ entries o path xs, e.2 ∈ xs := fun e he => mem_of_mem_entries he
      have hsuffixes := List.pairwise_map.mp (nodup_entries o path xs)
      apply nodup_flatMap fun e => element path e.1
      · exact fun e he => ih e.2 (hmem e he) (element path e.1) (depth - 1)
      · intro e he f hf
        exact extends_of_mem_walk (hitems e.2 (hmem e he)) (element_ne_empty path e.1) hf
      · refine hsuffixes.imp_of_mem fun he he' hne other h h' => hne ?_
        exact eq_of_extends_element (of_mem_entries ho he).1 (of_mem_entries ho he').1 h h'
  | @obj ms hdistinct hkeys hvalues ih =>
    rcases walk_obj o path depth ms with ⟨hw, -⟩ | ⟨hw, -⟩ | hw
    · rw [hw]
      exact List.nodup_nil
    · rw [hw]
      exact List.nodup_singleton _
    · rw [hw]
      apply nodup_flatMap fun m => below path m.1
      · exact fun m hm => ih m hm (below path m.1) (depth - 1)
      · intro m hm f hf
        exact extends_of_mem_walk (hvalues m hm) (below_ne_empty (hkeys m hm).1) hf
      · refine (List.pairwise_map.mp hdistinct).imp_of_mem fun hm hm' hne other h h' => hne ?_
        exact eq_of_extends_below (hkeys _ hm) (hkeys _ hm') h h'

/-! ## The fields of a document -/

/-- **A field resolves in a document.** Its path can be read. Without wildcards the document has a
value there, and with wildcards it has values, of which the first one counts: that value has the
type of the field, and is its sample if the survey was to list samples. -/
def Field.Resolves (o : Options) (document : Json) (f : Field) : Prop :=
  ∃ (segments : List Segment) (w : Json),
    Path.parse f.path = .ok segments ∧
    (Path.hasWildcard f.path = false → document.get? f.path = some w) ∧
    (Path.hasWildcard f.path = true → (document.getAll f.path).head? = some w) ∧
    w.kind = f.kind ∧ f.value = if o.includeValues then some w else none

/-- **Every field of a plain document resolves**, and no path is listed twice. How many single
elements are listed is a number of 64 bits, as in all options that were read. -/
theorem fields_resolve {o : Options} (ho : o.maxArrayIndices ≤ Decimal.maxUnsigned)
    {document : Json} (hplain : document.Plain) :
    (∀ f ∈ fields o "" document, f.Resolves o document) ∧
      ((fields o "" document).map Field.path).Nodup := by
  refine ⟨fun f hf => ?_, nodup_walk ho hplain "" o.maxDepth⟩
  obtain ⟨w, hreached, hfield⟩ := reached_of_mem_walk ho hplain .root hf
  obtain ⟨ss, hss, hpath, hfirst⟩ := hreached.segments
  have hkind : w.kind = f.kind := by rw [hfield]; rfl
  have hvalue : f.value = if o.includeValues then some w else none := by rw [hfield]; rfl
  refine ⟨ss, w, ?_, fun hnone => ?_, fun _ => ?_, hkind, hvalue⟩
  · rw [hpath]
    exact Path.parse_text hss
  · rw [hpath] at hnone ⊢
    refine Json.get?_text hss (fun s hs count haccess => ?_) hplain hfirst
    have hcount : count ≠ 0 := by
      have hproper := (hss s hs).access
      rw [haccess] at hproper
      exact hproper
    exact Bool.false_ne_true (hnone.symm.trans (Path.hasWildcard_text hs haccess hcount))
  · rw [hpath]
    exact Json.head?_getAll_text hss hfirst

/-- A survey that lists the first two elements of an array one by one, too. -/
def pairwiseSurvey : Options where
  includeFixedIndices := true
  maxArrayIndices := 2
  includeValues := true

/-- A customer and the lines of an order, grouped in two parcels. -/
def orderDocument : Json :=
  .obj [("user", .obj [("name", .str "Ada")]),
    ("parcels", .arr
      [.arr [.obj [("id", .str "a")], .obj [("id", .str "b")]], .arr [.obj [("id", .str "c")]]])]

theorem plain_orderDocument : orderDocument.Plain := by
  decide

theorem fields_resolve_orderDocument :
    (fields pairwiseSurvey "" orderDocument).map Field.path =
        ["user.name", "parcels[*][*].id", "parcels[0][0].id", "parcels[0][1].id",
          "parcels[1][0].id"] ∧
      (∀ f ∈ fields pairwiseSurvey "" orderDocument, f.Resolves pairwiseSurvey orderDocument) ∧
      ((fields pairwiseSurvey "" orderDocument).map Field.path).Nodup :=
  ⟨by decide, fields_resolve (by decide) plain_orderDocument⟩

end Reshape.Survey
