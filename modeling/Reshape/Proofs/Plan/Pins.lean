/-
# Reshape.Proofs.Plan.Pins -- pins agree with the path they stand for

Pins hold the same facts several times over: which fields there are, where each of them is pinned,
the template, and whether all of them are pinned. `ofSegments` is what all this is for given
segments, and taking a path apart gives it (`ofPath_eq_ok_some_iff`). The argument is then about
segments alone:

* a change of the pins of segments gives the pins of changed segments (`apply_ofSegments`), so a run
  of changes gives the pins of the segments as they are in the end (`run_ofSegments`);
* the pins of segments resolve to the text of the segments (`resolve_ofSegments`), and that text is
  taken apart into the same pins again.

`agrees_run` puts this together for a path.
-/

import Reshape.Proofs.Except
import Reshape.Proofs.Json.Members
import Reshape.Proofs.Path.Spelling
import Reshape.Proofs.Plan.Indices

namespace Reshape.Plan.Pins

open Reshape.Path

/-! ## Changes of pins -/

/-- **A change of pins.** -/
inductive Change where
  | pin (field : String) (index : Nat)
  | release (field : String)
  deriving DecidableEq, Repr

namespace Change

/-- The pins after a change. -/
def apply : Change → Pins → Except Refusal Pins
  | .pin field index, p => p.pin field index
  | .release field, p => .ok (p.release field)

/-- A change of one of these fields, or a release; a position fits into 64 bits. -/
def Fits (fields : List String) : Change → Prop
  | .pin field index => field ∈ fields ∧ index ≤ Decimal.maxUnsigned
  | .release _ => True

instance (fields : List String) (c : Change) : Decidable (c.Fits fields) :=
  match c with
  | .pin field index =>
    inferInstanceAs (Decidable (field ∈ fields ∧ index ≤ Decimal.maxUnsigned))
  | .release _ => inferInstanceAs (Decidable True)

/-- The field that is changed. -/
def field : Change → String
  | .pin field _ => field
  | .release field => field

/-- The position that the field is given. -/
def position : Change → Option Nat
  | .pin _ index => some index
  | .release _ => none

end Change

/-- The pins after changes, one after another. -/
def run (changes : List Change) (p : Pins) : Except Refusal Pins :=
  changes.foldlM (fun q c => c.apply q) p

/-- **The position of an array field in the end**: what the last change of it says, and without one
the position that it had. -/
def lastPosition (field : String) (first : Option Nat) (changes : List Change) : Option Nat :=
  changes.foldl (fun position c => if c.field = field then c.position else position) first

/-! ## Array fields of segments -/

/-- The access for a position; without one it is every element. -/
def accessAt : Option Nat → Access
  | none => .wildcard 1
  | some n => .indices [n]

/-- The position of a segment that has a single one. -/
def positionOf (s : Segment) : Option Nat :=
  match s.access with
  | .indices [n] => some n
  | _ => none

/-- The array fields of segments, each with its position. -/
def arrays (ss : List Segment) : List (String × Option Nat) :=
  (ss.filter Segment.isArray).map fun s => (s.key, positionOf s)

/-- The segment has no more than one suffix. -/
def Single (s : Segment) : Prop :=
  s.isArray = true → s.access = accessAt (positionOf s)

/-- **Segments that pins can stand for**: a single suffix each, and a key of its own for each array
field. -/
structure Separate (ss : List Segment) : Prop where
  proper : ∀ s ∈ ss, s.Proper
  single : ∀ s ∈ ss, Single s
  distinct : ((arrays ss).map Prod.fst).Nodup

/-- The positions of array fields, put in the order of the fields. -/
def gather (found : List (String × Option Nat)) (is : Indices) : Indices :=
  found.foldl (fun is e => match e.2 with
    | some n => is.insert e.1 n
    | none => is) is

/-- **The pins of segments.** -/
def ofSegments (ss : List Segment) : Pins where
  fields := (arrays ss).map Prod.fst
  indices := gather (arrays ss) []
  templatePath := Path.text (ss.map released)
  mode := if (arrays ss).all fun e => e.2.isSome then .index else .array

/-- The segment after changes: an array field is at the position that it has in the end. -/
def settled (changes : List Change) (s : Segment) : Segment :=
  if s.isArray then ⟨s.key, accessAt (lastPosition s.key (positionOf s) changes)⟩ else s

variable {s : Segment} {ss : List Segment} {field f : String} {position : Option Nat} {n : Nat}

@[simp] theorem isArray_accessAt (key : String) (position : Option Nat) :
    Segment.isArray ⟨key, accessAt position⟩ = true := by
  cases position <;> rfl

@[simp] theorem positionOf_accessAt (key : String) (position : Option Nat) :
    positionOf ⟨key, accessAt position⟩ = position := by
  cases position <;> rfl

theorem arrays_cons (s : Segment) (ss : List Segment) :
    arrays (s :: ss) = if s.isArray then (s.key, positionOf s) :: arrays ss else arrays ss := by
  unfold arrays
  rw [List.filter_cons]
  split <;> rfl

theorem mem_arrays {e : String × Option Nat} :
    e ∈ arrays ss ↔ ∃ s ∈ ss, s.isArray = true ∧ (s.key, positionOf s) = e := by
  simp [arrays, and_assoc]

/-! ## Taking a path apart -/

theorem fieldOf_eq_ok_iff {path : String} {r : Option (String × Option Nat)} :
    fieldOf path s = .ok r ↔
      Single s ∧ r = if s.isArray then some (s.key, positionOf s) else none := by
  obtain ⟨key, access⟩ := s
  unfold fieldOf Single
  cases access with
  | plain => simp [Segment.isArray, eq_comm (b := r)]
  | wildcard count =>
    by_cases hcount : count = 1
    · subst hcount
      simp [Segment.isArray, accessAt, positionOf, eq_comm (b := r)]
    · simp [Segment.isArray, accessAt, positionOf, hcount]
  | indices ns =>
    match ns with
    | [] => simp [Segment.isArray, accessAt, positionOf]
    | [n] => simp [Segment.isArray, accessAt, positionOf, eq_comm (b := r)]
    | _ :: _ :: _ => simp [Segment.isArray, accessAt, positionOf]

/-- What is found in segments is their array fields; no field was found before. -/
theorem of_fieldsOf_eq_ok {path : String} {seen : List String}
    {found : List (String × Option Nat)} (h : fieldsOf path seen ss = .ok found) :
    found = arrays ss ∧ (∀ s ∈ ss, Single s) ∧ ((arrays ss).map Prod.fst).Nodup ∧
      ∀ k ∈ (arrays ss).map Prod.fst, k ∉ seen := by
  induction ss generalizing seen found with
  | nil =>
    cases h
    exact ⟨rfl, by simp, List.nodup_nil, by simp [arrays]⟩
  | cons s ss ih =>
    rw [fieldsOf] at h
    obtain ⟨r, hfield, h⟩ := bind_eq_ok.mp h
    obtain ⟨hs, hr⟩ := fieldOf_eq_ok_iff.mp hfield
    rw [arrays_cons]
    by_cases harray : s.isArray = true
    · rw [if_pos harray] at hr ⊢
      subst hr
      dsimp only at h
      split at h
      case isTrue => cases h
      case isFalse hnew =>
        obtain ⟨rest, hrest, h⟩ := bind_eq_ok.mp h
        cases h
        obtain ⟨rfl, hsingle, hnodup, hseen⟩ := ih hrest
        -- the key joins those seen before, so no array field behind it has the same
        have hkey : s.key ∉ (arrays ss).map Prod.fst := by
          intro hmem
          exact hseen s.key hmem (List.mem_append_right seen (List.mem_singleton_self _))
        refine ⟨rfl, List.forall_mem_cons.mpr ⟨hs, hsingle⟩, ?_, ?_⟩
        · exact List.nodup_cons.mpr ⟨hkey, hnodup⟩
        · refine List.forall_mem_cons.mpr ⟨by simpa using hnew, fun k hk hmem => ?_⟩
          exact hseen k hk (List.mem_append_left [s.key] hmem)
    · rw [if_neg harray] at hr ⊢
      subst hr
      obtain ⟨hfound, hsingle, hrest⟩ := ih h
      exact ⟨hfound, List.forall_mem_cons.mpr ⟨hs, hsingle⟩, hrest⟩

theorem fieldsOf_eq_ok {path : String} {seen : List String} (hsingle : ∀ s ∈ ss, Single s)
    (hnodup : ((arrays ss).map Prod.fst).Nodup)
    (hseen : ∀ k ∈ (arrays ss).map Prod.fst, k ∉ seen) :
    fieldsOf path seen ss = .ok (arrays ss) := by
  induction ss generalizing seen with
  | nil => rfl
  | cons s ss ih =>
    obtain ⟨hs, hss⟩ := List.forall_mem_cons.mp hsingle
    have hfield : fieldOf path s = .ok _ := fieldOf_eq_ok_iff.mpr ⟨hs, rfl⟩
    rw [arrays_cons] at hnodup hseen ⊢
    rw [fieldsOf, hfield]
    by_cases harray : s.isArray = true
    · rw [if_pos harray] at hnodup hseen ⊢
      rw [if_pos harray]
      obtain ⟨hkey, hnodup⟩ := List.nodup_cons.mp hnodup
      obtain ⟨hnew, hseen⟩ := List.forall_mem_cons.mp hseen
      have hrest : fieldsOf path (seen ++ [s.key]) ss = .ok (arrays ss) := by
        refine ih hss hnodup fun k hk hmem => ?_
        rcases List.mem_append.mp hmem with hmem | hmem
        · exact hseen k hk hmem
        · exact hkey (List.mem_singleton.mp hmem ▸ hk)
      show (if seen.contains s.key then _ else _) = _
      rw [if_neg (by simpa using hnew), hrest]
      rfl
    · rw [if_neg harray] at hnodup hseen ⊢
      rw [if_neg harray]
      exact ih hss hnodup hseen

/-- **Taking a path apart gives the pins of its segments**, when these are separate and there is an
array among them; otherwise it gives no pins. -/
theorem ofPath_eq_ok_some_iff {path : String} {p : Pins} :
    ofPath path = .ok (some p) ↔
      ∃ ss, parse path = .ok ss ∧ Separate ss ∧ arrays ss ≠ [] ∧ p = ofSegments ss := by
  constructor
  · intro h
    obtain ⟨ss, hparse, h⟩ := bind_eq_ok.mp h
    obtain ⟨found, hfound, h⟩ := bind_eq_ok.mp h
    obtain ⟨rfl, hsingle, hnodup, -⟩ := of_fieldsOf_eq_ok hfound
    split at h
    case isTrue => cases h
    case isFalse hne =>
      cases h
      exact ⟨ss, hparse, ⟨proper_of_parse hparse, hsingle, hnodup⟩, by simpa using hne, rfl⟩
  · rintro ⟨ss, hparse, hss, hne, rfl⟩
    have hfound : fieldsOf path [] ss = .ok (arrays ss) :=
      fieldsOf_eq_ok hss.single hss.distinct fun k _ => List.not_mem_nil
    refine bind_eq_ok.mpr ⟨ss, hparse, bind_eq_ok.mpr ⟨arrays ss, hfound, ?_⟩⟩
    rw [if_neg (by simpa using hne)]
    rfl

/-! ## What the pins of segments say -/

/-- A field has the position that it was found with. -/
theorem get?_gather {found : List (String × Option Nat)} (h : (found.map Prod.fst).Nodup)
    (is : Indices) (f : String) :
    (gather found is).get? f = ((found.lookup f).join).or (is.get? f) := by
  unfold gather
  induction found generalizing is with
  | nil => rfl
  | cons e found ih =>
    obtain ⟨field, position⟩ := e
    obtain ⟨hfield, hfound⟩ := List.nodup_cons.mp h
    rw [List.foldl_cons, ih hfound, List.lookup_cons]
    by_cases hf : f = field
    · subst hf
      rw [lookup_eq_none hfield, BEq.rfl]
      cases position with
      | none => rfl
      | some n =>
        show Option.or none ((is.insert f n).get? f) = some n
        rw [Indices.get?_insert, if_pos rfl]
        rfl
    · rw [beq_eq_false_iff_ne.mpr hf]
      cases position with
      | none => rfl
      | some n =>
        show Option.or _ ((is.insert field n).get? f) = _
        rw [Indices.get?_insert, if_neg hf]

theorem sorted_gather (found : List (String × Option Nat)) {is : Indices} (h : is.Sorted) :
    (gather found is).Sorted := by
  unfold gather
  induction found generalizing is with
  | nil => exact h
  | cons e found ih =>
    obtain ⟨field, position⟩ := e
    rw [List.foldl_cons]
    cases position with
    | none => exact ih h
    | some n => exact ih (h.insert field n)

theorem sorted_indices (ss : List Segment) : (ofSegments ss).indices.Sorted :=
  sorted_gather _ Indices.sorted_nil

theorem get?_indices (hss : Separate ss) (f : String) :
    (ofSegments ss).indices.get? f = ((arrays ss).lookup f).join := by
  show (gather (arrays ss) []).get? f = _
  rw [get?_gather hss.distinct, Indices.get?, List.lookup_nil, Option.or_none]

/-- A pinned field is one of the fields. -/
theorem mem_fields_of_get?_indices (hss : Separate ss)
    (h : (ofSegments ss).indices.get? f = some n) : f ∈ (ofSegments ss).fields := by
  by_cases hf : f ∈ (arrays ss).map Prod.fst
  · exact hf
  · rw [get?_indices hss, lookup_eq_none hf] at h
    cases h

/-- Whether all fields are pinned can be seen from the positions. -/
theorem all_isSome_get? (hss : Separate ss) :
    ((ofSegments ss).fields.all fun f => ((ofSegments ss).indices.get? f).isSome) =
      (arrays ss).all fun e => e.2.isSome := by
  show ((arrays ss).map Prod.fst).all _ = _
  rw [List.all_map, Bool.eq_iff_iff, List.all_eq_true, List.all_eq_true]
  refine forall₂_congr fun e he => ?_
  rw [Function.comp_apply, get?_indices hss, lookup_of_mem hss.distinct he]
  rfl

theorem mode_eq_index_iff : (ofSegments ss).mode = .index ↔ ∀ e ∈ arrays ss, e.2.isSome = true := by
  show (if (arrays ss).all _ then PinMode.index else .array) = .index ↔ _
  rw [← List.all_eq_true]
  split <;> simp [*]

/-! ## Changes -/

/-- The segment with a position for an array field. -/
def place (field : String) (position : Option Nat) (s : Segment) : Segment :=
  if s.isArray && s.key == field then ⟨s.key, accessAt position⟩ else s

@[simp] theorem key_place (field : String) (position : Option Nat) (s : Segment) :
    (place field position s).key = s.key := by
  unfold place
  split <;> rfl

@[simp] theorem isArray_place (field : String) (position : Option Nat) (s : Segment) :
    (place field position s).isArray = s.isArray := by
  unfold place
  split
  case isTrue h =>
    rw [isArray_accessAt]
    exact (Bool.and_eq_true_iff.mp h).1.symm
  case isFalse => rfl

theorem positionOf_place (h : s.isArray = true) (field : String) (position : Option Nat) :
    positionOf (place field position s) = if s.key = field then position else positionOf s := by
  unfold place
  by_cases hkey : s.key = field
  · rw [if_pos hkey, if_pos (by simp [h, hkey]), positionOf_accessAt]
  · rw [if_neg hkey, if_neg (by simp [hkey])]

/-- The template does not show positions. -/
@[simp] theorem released_place (field : String) (position : Option Nat) (s : Segment) :
    released (place field position s) = released s := by
  unfold released
  rw [isArray_place]
  split
  case isTrue => rw [Segment.mk.injEq]; exact ⟨key_place field position s, rfl⟩
  case isFalse harray =>
    unfold place
    rw [if_neg (by simp [harray])]

theorem Single.place (h : Single s) (field : String) (position : Option Nat) :
    Single (place field position s) := by
  unfold Pins.place
  split
  case isTrue =>
    intro _
    rw [positionOf_accessAt]
  case isFalse => exact h

theorem proper_accessAt (h : ∀ n ∈ position, n ≤ Decimal.maxUnsigned) :
    (accessAt position).Proper := by
  cases position with
  | none => exact Nat.one_ne_zero
  | some n => exact ⟨List.cons_ne_nil n [], List.forall_mem_singleton.mpr (h n rfl)⟩

theorem proper_place (h : s.Proper) (hposition : ∀ n ∈ position, n ≤ Decimal.maxUnsigned)
    (field : String) : (place field position s).Proper := by
  unfold place
  split
  case isTrue =>
    refine ⟨h.key, proper_accessAt hposition, fun _ => ?_⟩
    cases position <;> exact Access.noConfusion
  case isFalse => exact h

theorem arrays_map_place (field : String) (position : Option Nat) (ss : List Segment) :
    arrays (ss.map (place field position)) =
      (arrays ss).map fun e => if e.1 = field then (e.1, position) else e := by
  induction ss with
  | nil => rfl
  | cons s ss ih =>
    rw [List.map_cons, arrays_cons, arrays_cons, isArray_place, ih]
    by_cases harray : s.isArray = true
    · rw [if_pos harray, if_pos harray, key_place, positionOf_place harray, List.map_cons]
      split <;> rfl
    · rw [if_neg harray, if_neg harray]

theorem keys_map_place (field : String) (position : Option Nat) (ss : List Segment) :
    (arrays (ss.map (place field position))).map Prod.fst = (arrays ss).map Prod.fst := by
  rw [arrays_map_place, List.map_map]
  refine List.map_congr_left fun e _ => ?_
  show (if e.1 = field then (e.1, position) else e).1 = e.1
  split <;> rfl

theorem Separate.place (hss : Separate ss) (hposition : ∀ n ∈ position, n ≤ Decimal.maxUnsigned)
    (field : String) : Separate (ss.map (place field position)) where
  proper := List.forall_mem_map.mpr fun s hs => proper_place (hss.proper s hs) hposition field
  single := List.forall_mem_map.mpr fun s hs => (hss.single s hs).place field position
  distinct := by
    rw [keys_map_place]
    exact hss.distinct

theorem lookup_map_place (field f : String) (position : Option Nat) (ss : List Segment) :
    (arrays (ss.map (Pins.place field position))).lookup f =
      if f = field then ((arrays ss).lookup f).map fun _ => position
      else (arrays ss).lookup f := by
  rw [arrays_map_place]
  induction arrays ss with
  | nil => simp
  | cons e found ih =>
    rw [List.map_cons, List.lookup_cons, List.lookup_cons, ih]
    by_cases he : e.1 = field
    · rw [if_pos he]
      by_cases hf : f = field
      · rw [beq_iff_eq.mpr (hf.trans he.symm)]
        simp [hf]
      · have hne : f ≠ e.1 := fun heq => hf (heq.trans he)
        rw [beq_eq_false_iff_ne.mpr hne]
    · rw [if_neg he]
      by_cases hf : f = e.1
      · have hne : f ≠ field := fun heq => he (hf.symm.trans heq)
        rw [beq_iff_eq.mpr hf]
        exact (if_neg hne).symm
      · rw [beq_eq_false_iff_ne.mpr hf]

theorem templatePath_map_place (field : String) (position : Option Nat) (ss : List Segment) :
    (ofSegments (ss.map (Pins.place field position))).templatePath =
      (ofSegments ss).templatePath := by
  show Path.text ((ss.map _).map released) = Path.text (ss.map released)
  rw [List.map_map]
  congr 1
  exact List.map_congr_left fun s _ => released_place field position s

/-- Pinning an array field puts a position into its segment. -/
theorem pin_ofSegments (hss : Separate ss) (hfield : field ∈ (ofSegments ss).fields)
    (hn : n ≤ Decimal.maxUnsigned) :
    (ofSegments ss).pin field n = .ok (ofSegments (ss.map (place field (some n)))) := by
  have hplaced : Separate (ss.map (place field (some n))) :=
    hss.place (by rintro _ ⟨⟩; exact hn) field
  obtain ⟨position, hposition⟩ : ∃ position, (arrays ss).lookup field = some position := by
    obtain ⟨e, he, rfl⟩ := List.mem_map.mp hfield
    exact ⟨e.2, lookup_of_mem hss.distinct he⟩
  have hindices : (ofSegments ss).indices.insert field n =
      (ofSegments (ss.map (place field (some n)))).indices := by
    refine ((sorted_indices ss).insert field n).ext (sorted_indices _) fun f => ?_
    rw [Indices.get?_insert, get?_indices hss, get?_indices hplaced, lookup_map_place]
    by_cases hf : f = field
    · subst hf
      simp [hposition]
    · rw [if_neg hf, if_neg hf]
  have hfields : (ofSegments ss).fields = (ofSegments (ss.map (place field (some n)))).fields :=
    (keys_map_place field (some n) ss).symm
  unfold pin
  rw [if_neg (by simpa using hfield)]
  -- with fields and positions in place, the mode is what is left to compare
  dsimp only
  rw [hindices, hfields, all_isSome_get? hplaced]
  congr 1
  rw [Pins.mk.injEq]
  refine ⟨rfl, rfl, (templatePath_map_place field (some n) ss).symm, ?_⟩
  show _ = if (arrays (ss.map (place field (some n)))).all _ then PinMode.index else .array
  split
  case isTrue => rfl
  case isFalse hall =>
    -- pinning one more field does not leave fewer pinned, so not all were pinned before
    show (if (arrays ss).all _ then PinMode.index else .array) = .array
    rw [if_neg]
    intro hbefore
    refine hall (List.all_eq_true.mpr ?_)
    rw [arrays_map_place, List.forall_mem_map]
    intro e he
    split
    · rfl
    · exact List.all_eq_true.mp hbefore e he

/-- A field that is not pinned has no segment with a position. -/
theorem map_place_none_of_get?_indices (hss : Separate ss)
    (h : (ofSegments ss).indices.get? field = none) : ss.map (place field none) = ss := by
  refine (List.map_congr_left fun s hs => ?_).trans (List.map_id ss)
  unfold place
  split
  case isTrue hcond =>
    obtain ⟨harray, hkey⟩ := Bool.and_eq_true_iff.mp hcond
    rw [beq_iff_eq] at hkey
    have hmem : (s.key, positionOf s) ∈ arrays ss := mem_arrays.mpr ⟨s, hs, harray, rfl⟩
    rw [get?_indices hss, ← hkey, lookup_of_mem hss.distinct hmem] at h
    have hposition : positionOf s = none := h
    have haccess := hss.single s hs harray
    rw [hposition] at haccess
    rw [← haccess]
    rfl
  case isFalse => rfl

/-- Releasing a field takes the position out of its segment. -/
theorem release_ofSegments (hss : Separate ss) (field : String) :
    (ofSegments ss).release field = ofSegments (ss.map (place field none)) := by
  have hplaced : Separate (ss.map (place field none)) := hss.place (by rintro _ ⟨⟩) field
  unfold release
  cases hpinned : (ofSegments ss).indices.get? field with
  | none =>
    rw [if_neg (by simp), map_place_none_of_get?_indices hss hpinned]
  | some n =>
    have hindices : (ofSegments ss).indices.erase field =
        (ofSegments (ss.map (place field none))).indices := by
      refine ((sorted_indices ss).erase field).ext (sorted_indices _) fun f => ?_
      rw [Indices.get?_erase, get?_indices hss, get?_indices hplaced, lookup_map_place]
      by_cases hf : f = field
      · subst hf
        cases (arrays ss).lookup f <;> simp
      · rw [if_neg hf, if_neg hf]
    rw [if_pos (by rfl), hindices, Pins.mk.injEq]
    refine ⟨(keys_map_place field none ss).symm, rfl,
      (templatePath_map_place field none ss).symm, ?_⟩
    show PinMode.array = if (arrays (ss.map (place field none))).all _ then .index else .array
    rw [if_neg]
    -- the field that was released is not pinned now
    intro hall
    obtain ⟨e, he, hkey⟩ := List.mem_map.mp (mem_fields_of_get?_indices hss hpinned)
    have hmem : (field, none) ∈ arrays (ss.map (place field none)) := by
      rw [arrays_map_place]
      refine List.mem_map.mpr ⟨e, he, ?_⟩
      rw [if_pos hkey, hkey]
    cases List.all_eq_true.mp hall _ hmem

/-- **A change of the pins of segments gives the pins of changed segments.** -/
theorem apply_ofSegments (hss : Separate ss) {c : Change} (hc : c.Fits (ofSegments ss).fields) :
    c.apply (ofSegments ss) = .ok (ofSegments (ss.map (place c.field c.position))) := by
  cases c with
  | pin field n => exact pin_ofSegments hss hc.1 hc.2
  | release field => exact congrArg Except.ok (release_ofSegments hss field)

theorem settled_nil (hs : Single s) : settled [] s = s := by
  unfold settled
  split
  case isTrue harray =>
    have haccess := hs harray
    show Segment.mk s.key (accessAt (positionOf s)) = s
    rw [← haccess]
  case isFalse => rfl

theorem settled_cons (c : Change) (changes : List Change) (s : Segment) :
    settled (c :: changes) s = settled changes (place c.field c.position s) := by
  unfold settled
  rw [isArray_place, key_place]
  split
  case isTrue harray =>
    rw [positionOf_place harray]
    unfold lastPosition
    rw [List.foldl_cons]
    simp only [eq_comm]
  case isFalse harray =>
    unfold place
    rw [if_neg (by simp [harray])]

/-- **A run of changes gives the pins of the segments as they are in the end.** The fields and the
template stay. -/
theorem run_ofSegments {changes : List Change} (hss : Separate ss)
    (hchanges : ∀ c ∈ changes, c.Fits (ofSegments ss).fields) :
    Separate (ss.map (settled changes)) ∧
      run changes (ofSegments ss) = .ok (ofSegments (ss.map (settled changes))) ∧
        (ofSegments (ss.map (settled changes))).fields = (ofSegments ss).fields ∧
          (ofSegments (ss.map (settled changes))).templatePath = (ofSegments ss).templatePath := by
  induction changes generalizing ss with
  | nil =>
    have hsettled : ss.map (settled []) = ss :=
      (List.map_congr_left fun s hs => settled_nil (hss.single s hs)).trans (List.map_id ss)
    rw [hsettled]
    exact ⟨hss, rfl, rfl, rfl⟩
  | cons c changes ih =>
    obtain ⟨hc, hchanges⟩ := List.forall_mem_cons.mp hchanges
    have hplaced : Separate (ss.map (place c.field c.position)) := by
      refine hss.place ?_ c.field
      cases c with
      | pin field n => rintro _ ⟨⟩; exact hc.2
      | release field => rintro _ ⟨⟩
    have hfields : (ofSegments (ss.map (place c.field c.position))).fields =
        (ofSegments ss).fields := keys_map_place c.field c.position ss
    have hsettled : ss.map (settled (c :: changes)) =
        (ss.map (place c.field c.position)).map (settled changes) := by
      rw [List.map_map]
      exact List.map_congr_left fun s _ => settled_cons c changes s
    rw [← hfields] at hchanges
    obtain ⟨hseparate, hrun, hkeys, htemplate⟩ := ih hplaced hchanges
    rw [hsettled]
    refine ⟨hseparate, ?_, hkeys.trans hfields, htemplate.trans (templatePath_map_place _ _ _)⟩
    unfold run
    rw [List.foldlM_cons, apply_ofSegments hss hc]
    exact hrun

/-! ## The path that pins stand for -/

theorem proper_released (hs : s.Proper) : (released s).Proper := by
  unfold released
  split
  case isTrue => exact ⟨hs.key, Nat.one_ne_zero, fun _ => Access.noConfusion⟩
  case isFalse => exact hs

/-- Pinning a released segment to its own position gives the segment again. -/
theorem pinned_released (hss : Separate ss) (hs : s ∈ ss) :
    pinned (ofSegments ss).indices (released s) = s := by
  unfold released
  by_cases harray : s.isArray = true
  · have hmem : (s.key, positionOf s) ∈ arrays ss := mem_arrays.mpr ⟨s, hs, harray, rfl⟩
    have haccess := hss.single s hs harray
    rw [if_pos harray]
    show (match (ofSegments ss).indices.get? s.key with
      | some n => (⟨s.key, .indices [n]⟩ : Segment)
      | none => ⟨s.key, .wildcard 1⟩) = s
    rw [get?_indices hss, lookup_of_mem hss.distinct hmem]
    cases hposition : positionOf s with
    | none =>
      rw [hposition] at haccess
      exact congrArg (Segment.mk s.key) haccess.symm
    | some n =>
      rw [hposition] at haccess
      exact congrArg (Segment.mk s.key) haccess.symm
  · have hplain : s.access = .plain := by simpa [Segment.isArray] using harray
    rw [if_neg harray, pinned, hplain]

/-- **The pins of segments resolve to the text of the segments.** -/
theorem resolve_ofSegments (hss : Separate ss) :
    (ofSegments ss).resolve = .ok (Path.text ss) := by
  have hparse : parse (ofSegments ss).templatePath = .ok (ss.map released) :=
    parse_text (List.forall_mem_map.mpr fun s hs => proper_released (hss.proper s hs))
  have hsegments : (ss.map released).map (pinned (ofSegments ss).indices) = ss := by
    rw [List.map_map]
    exact (List.map_congr_left fun s hs => pinned_released hss hs).trans (List.map_id ss)
  unfold resolve
  rw [hparse]
  show Except.ok (Path.text ((ss.map released).map _)) = _
  rw [hsegments]

/-- All fields are pinned when the text of the segments has no wildcard. -/
theorem mode_eq_index_iff_hasWildcard (hss : Separate ss) :
    (ofSegments ss).mode = .index ↔ hasWildcard (Path.text ss) = false := by
  rw [mode_eq_index_iff, hasWildcard_text_eq_false_iff hss.proper]
  constructor
  · intro h s hs count haccess
    have harray : s.isArray = true := by simp [Segment.isArray, haccess]
    have hsome := h _ (mem_arrays.mpr ⟨s, hs, harray, rfl⟩)
    simp [positionOf, haccess] at hsome
  · intro h e he
    obtain ⟨s, hs, harray, rfl⟩ := mem_arrays.mp he
    have haccess := hss.single s hs harray
    cases hposition : positionOf s with
    | some n => rfl
    | none =>
      rw [hposition] at haccess
      exact absurd haccess (h s hs 1)

/-- **Pins agree with the path that they stand for.** They were made from `segments`, whose array
fields may have moved since to where `settle` has them. -/
structure Agrees (p : Pins) (settle : Segment → Segment) (segments : List Segment)
    (resolved : String) : Prop where
  pinned : ∀ e ∈ p.indices, e.1 ∈ p.fields
  index_iff_pinned : p.mode = .index ↔ ∀ f ∈ p.fields, (p.indices.get? f).isSome = true
  index_iff_no_wildcard : p.mode = .index ↔ hasWildcard resolved = false
  resolve : p.resolve = .ok resolved
  text : resolved = Path.text (segments.map settle)
  parse : Path.parse resolved = .ok (segments.map settle)
  ofPath : Pins.ofPath resolved = .ok (some p)

theorem agrees_ofSegments {settle : Segment → Segment} (hss : Separate (ss.map settle))
    (hne : arrays (ss.map settle) ≠ []) :
    Agrees (ofSegments (ss.map settle)) settle ss (Path.text (ss.map settle)) where
  pinned e he := by
    cases hget : (ofSegments (ss.map settle)).indices.get? e.1 with
    | some n => exact mem_fields_of_get?_indices hss hget
    | none =>
      have hall := List.lookup_eq_none_iff.mp hget
      exact absurd rfl (bne_iff_ne.mp (hall e he))
  index_iff_pinned := by
    rw [mode_eq_index_iff, ← List.all_eq_true, ← all_isSome_get? hss, List.all_eq_true]
  index_iff_no_wildcard := mode_eq_index_iff_hasWildcard hss
  resolve := resolve_ofSegments hss
  text := rfl
  parse := parse_text hss.proper
  ofPath := ofPath_eq_ok_some_iff.mpr ⟨_, parse_text hss.proper, hss, hne, rfl⟩

/-- **Pins stay in step with the path**, whatever is pinned and released. The fields and the template
are those of the path that was taken apart; the mode says whether every field is pinned, which is
whether the path that the pins stand for has no wildcard; that path has the segments of the first one
with every array field where the last change of it put it; and taking it apart gives the same pins
again. -/
theorem agrees_run {path : String} {p : Pins} {changes : List Change}
    (hp : ofPath path = .ok (some p)) (hchanges : ∀ c ∈ changes, c.Fits p.fields) :
    ∃ segments q resolved, parse path = .ok segments ∧ run changes p = .ok q ∧
      q.fields = p.fields ∧ q.templatePath = p.templatePath ∧
        Agrees q (settled changes) segments resolved := by
  obtain ⟨ss, hparse, hss, hne, rfl⟩ := ofPath_eq_ok_some_iff.mp hp
  obtain ⟨hsettled, hrun, hfields, htemplate⟩ := run_ofSegments hss hchanges
  refine ⟨ss, _, _, hparse, hrun, hfields, htemplate, agrees_ofSegments hsettled ?_⟩
  have hkeys : (arrays (ss.map (settled changes))).map Prod.fst = (arrays ss).map Prod.fst :=
    hfields
  intro hnil
  rw [hnil] at hkeys
  exact hne (List.map_eq_nil_iff.mp hkeys.symm)

/-- A path with an array at the root, and a key that belongs to an array field and to a plain
segment. -/
def pricePath : String := "[*].orders[*].lines.lines[3].price"

/-- The pins of the path of prices. -/
def pricePins : Pins where
  fields := ["", "orders", "lines"]
  indices := [("lines", 3)]
  templatePath := "[*].orders[*].lines.lines[*].price"
  mode := .array

/-- One order is moved to after another one was released. -/
def priceChanges : List Change :=
  [.pin "orders" 1, .release "lines", .pin "" 0, .release "orders", .pin "lines" 4,
    .pin "orders" 2]

/-- The pins of the path of prices agree with the path after these changes. -/
theorem agrees_run_pricePath :
    ofPath pricePath = .ok (some pricePins) ∧ (∀ c ∈ priceChanges, c.Fits pricePins.fields) ∧
      ∃ segments q resolved, parse pricePath = .ok segments ∧ run priceChanges pricePins = .ok q ∧
        q.fields = pricePins.fields ∧ q.templatePath = pricePins.templatePath ∧
          Agrees q (settled priceChanges) segments resolved := by
  have hpath : ofPath pricePath = .ok (some pricePins) := rfl
  have hchanges : ∀ c ∈ priceChanges, c.Fits pricePins.fields := by decide
  exact ⟨hpath, hchanges, agrees_run hpath hchanges⟩

end Reshape.Plan.Pins
