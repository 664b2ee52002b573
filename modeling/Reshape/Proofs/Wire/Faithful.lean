/-
# Reshape.Proofs.Wire.Faithful -- what was read is read back from what is written

A codec is faithful when every value that it reads from JSON is read again from the JSON that it is
written as (`Codec.Faithful`). It need not be the same JSON: a number may come in as an integer and
go out as a float. `Codec.Recovers` is the property of the single value, and what is known of a whole
is said of its parts: a list can be read back when its items can.

JSON is well-formed here when a document can hold it (`Json.WellFormed`). Such a value is read as
itself (`toJson_ofJson`).
-/

import Reshape.Proofs.Decimal.Finite
import Reshape.Proofs.Except
import Reshape.Proofs.Json.Members
import Reshape.Wire.Record

namespace Reshape

/-! ## Well-formed values -/

/-- **A value that a document can hold**: integers fit into 64 bits, with or without a sign, floats
are finite, and the keys of an object are distinct. -/
inductive Json.WellFormed : Json → Prop
  | null : WellFormed .null
  | bool (b : Bool) : WellFormed (.bool b)
  | int {n : Int} (hlow : -Decimal.twoTo 63 ≤ n) (hhigh : n < Decimal.twoTo 64) :
      WellFormed (.num (.int n))
  | float {x : Float} (hfinite : x.isFinite = true) : WellFormed (.num (.float x))
  | str (s : String) : WellFormed (.str s)
  | arr {xs : List Json} (hitems : ∀ x ∈ xs, WellFormed x) : WellFormed (.arr xs)
  | obj {ms : Members} (hdistinct : ms.keys.Nodup) (hvalues : ∀ m ∈ ms, WellFormed m.2) :
      WellFormed (.obj ms)

namespace Json.WellFormed

theorem items {xs : List Json} (h : WellFormed (.arr xs)) : ∀ x ∈ xs, WellFormed x := by
  cases h with
  | arr hitems => exact hitems

theorem values {ms : Members} (h : WellFormed (.obj ms)) : ∀ m ∈ ms, WellFormed m.2 := by
  cases h with
  | obj _ hvalues => exact hvalues

theorem distinct {ms : Members} (h : WellFormed (.obj ms)) : ms.keys.Nodup := by
  cases h with
  | obj hdistinct _ => exact hdistinct

@[simp] theorem null_iff : WellFormed .null ↔ True :=
  ⟨fun _ => trivial, fun _ => .null⟩

@[simp] theorem bool_iff (b : Bool) : WellFormed (.bool b) ↔ True :=
  ⟨fun _ => trivial, fun _ => .bool b⟩

@[simp] theorem str_iff (s : String) : WellFormed (.str s) ↔ True :=
  ⟨fun _ => trivial, fun _ => .str s⟩

@[simp] theorem int_iff (n : Int) :
    WellFormed (.num (.int n)) ↔ -Decimal.twoTo 63 ≤ n ∧ n < Decimal.twoTo 64 := by
  constructor
  · rintro ⟨⟩
    exact ⟨‹_›, ‹_›⟩
  · exact fun h => .int h.1 h.2

@[simp] theorem arr_iff (xs : List Json) : WellFormed (.arr xs) ↔ ∀ x ∈ xs, WellFormed x :=
  ⟨items, .arr⟩

@[simp] theorem obj_iff (ms : Members) :
    WellFormed (.obj ms) ↔ ms.keys.Nodup ∧ ∀ m ∈ ms, WellFormed m.2 :=
  ⟨fun h => ⟨h.distinct, h.values⟩, fun h => .obj h.1 h.2⟩

theorem finite {n : Number} (h : WellFormed (.num n)) : n.toFloat.isFinite = true := by
  cases h with
  | float hfinite => exact hfinite
  | int hlow hhigh =>
    refine Decimal.isFinite_ofInt ?_
    have h63 : Decimal.twoTo 63 = 2 ^ 63 := rfl
    have h64 : Decimal.twoTo 64 = 2 ^ 64 := rfl
    omega

theorem empty : WellFormed (.obj []) :=
  .obj List.nodup_nil fun _ hm => absurd hm List.not_mem_nil

end Json.WellFormed

namespace Wire

/-! ## Drafts of values -/

theorem Draft.toItems_ofItems {xs : List Json}
    (h : ∀ x ∈ xs, Draft.toJson .value (.ofJson x) = .ok x) :
    Draft.toItems .value (Draft.ofItems xs) = .ok xs := by
  induction xs with
  | nil => rfl
  | cons x xs ih =>
    obtain ⟨hx, hxs⟩ := List.forall_mem_cons.mp h
    unfold Draft.ofItems Draft.toItems
    rw [hx, ih hxs]
    rfl

theorem Draft.toMembers_ofMembers {ms acc : Members}
    (h : ∀ m ∈ ms, Draft.toJson .value (.ofJson m.2) = .ok m.2)
    (hdistinct : (Members.keys (acc ++ ms)).Nodup) :
    Draft.toMembers .value (Draft.ofMembers ms) acc = .ok (acc ++ ms) := by
  induction ms generalizing acc with
  | nil => rw [List.append_nil]; rfl
  | cons m ms ih =>
    obtain ⟨hm, hms⟩ := List.forall_mem_cons.mp h
    have hkey : m.1 ∉ acc.keys := by
      rw [Members.keys, List.map_append, List.nodup_append] at hdistinct
      intro hmem
      exact hdistinct.2.2 _ hmem m.1 (List.mem_map_of_mem List.mem_cons_self) rfl
    unfold Draft.ofMembers Draft.toMembers
    rw [hm]
    show Draft.toMembers .value (Draft.ofMembers ms) (acc.insert m.1 m.2) = _
    rw [Members.insert_of_not_mem hkey, ih hms, List.append_assoc]
    · rfl
    · rwa [List.append_assoc]

/-- **A well-formed value is read as itself.** -/
theorem toJson_ofJson {v : Json} (h : v.WellFormed) : Draft.toJson .value (.ofJson v) = .ok v := by
  induction h with
  | null => rfl
  | bool => rfl
  | int => rfl
  | float => rfl
  | str => rfl
  | @arr xs _ ih =>
    unfold Draft.ofJson Draft.toJson
    show (do let xs ← Draft.toItems .value (Draft.ofItems xs); _) = _
    rw [Draft.toItems_ofItems ih]
    rfl
  | @obj ms hdistinct _ ih =>
    unfold Draft.ofJson Draft.toJson
    show (do let ms ← Draft.toMembers .value (Draft.ofMembers ms) []; _) = _
    rw [@Draft.toMembers_ofMembers ms [] ih hdistinct]
    rfl

/-! ## Codecs -/

namespace Codec

variable {α : Type}

/-- **The value can be read back**: it is written as a well-formed value, and read from it. -/
structure Recovers (c : Codec α) (a : α) : Prop where
  read : c.read .value (.ofJson (c.write a)) = .ok a
  wellFormed : (c.write a).WellFormed

/-- **What the codec reads can be read back.** -/
def Faithful (c : Codec α) : Prop :=
  ∀ (v : Json) (a : α), v.WellFormed → c.read .value (.ofJson v) = .ok a → c.Recovers a

/-- **Every value can be read back.** -/
def Total (c : Codec α) : Prop :=
  ∀ a, c.Recovers a

variable {c : Codec α}

theorem Total.faithful (h : c.Total) : c.Faithful :=
  fun _ a _ _ => h a

/-- When a value is written as what it was read from, nothing is left to show. -/
theorem Recovers.of_write_eq {v : Json} {a : α} (hv : v.WellFormed)
    (h : c.read .value (.ofJson v) = .ok a) (hwrite : c.write a = v) : c.Recovers a :=
  ⟨by rw [hwrite, h], by rw [hwrite]; exact hv⟩

theorem total_string : string.Total :=
  fun s => ⟨rfl, .str s⟩

theorem total_bool : bool.Total :=
  fun b => ⟨rfl, .bool b⟩

theorem recovers_json {v : Json} (h : v.WellFormed) : json.Recovers v :=
  ⟨toJson_ofJson h, h⟩

theorem faithful_json : json.Faithful := by
  intro v a hv h
  cases (toJson_ofJson hv).symm.trans h
  exact recovers_json hv

theorem faithful_intIn (low high : Int) (wanted : String) : (intIn low high wanted).Faithful := by
  intro v a hv h
  refine .of_write_eq hv h ?_
  cases v with
  | num n =>
    cases n with
    | float x => cases h
    | int n =>
      change (if low ≤ n ∧ n ≤ high then Except.ok n else _) = _ at h
      split at h
      · cases h
        rfl
      · cases h
  | _ => cases h

theorem faithful_natUpTo (high : Nat) (wanted : String) : (natUpTo high wanted).Faithful := by
  intro v a hv h
  refine .of_write_eq hv h ?_
  obtain ⟨n, hn, rfl⟩ := map_eq_ok.mp h
  cases v with
  | num m =>
    cases m with
    | float x => cases hn
    | int m =>
      change (if 0 ≤ m ∧ m ≤ (high : Int) then Except.ok m else _) = _ at hn
      split at hn
      case isTrue hm =>
        cases hn
        show Json.num (.int n.toNat) = _
        rw [Int.toNat_of_nonneg hm.1]
      case isFalse => cases hn
  | _ => cases hn

/-- A float is written as a float, even when it was read from an integer. -/
theorem faithful_float : float.Faithful := by
  intro v x hv h
  cases v with
  | num n =>
    cases h
    have hfinite := hv.finite
    have hwrite : float.write n.toFloat = .num (.float n.toFloat) := if_pos hfinite
    refine ⟨?_, ?_⟩
    · rw [hwrite]
      rfl
    · rw [hwrite]
      exact .float hfinite
  | _ => cases h

theorem readItems_map_write {xs : List α} (h : ∀ x ∈ xs, c.Recovers x) :
    Draft.readItems c.read .value (Draft.ofItems (xs.map c.write)) = .ok xs := by
  induction xs with
  | nil => rfl
  | cons x xs ih =>
    obtain ⟨hx, hxs⟩ := List.forall_mem_cons.mp h
    rw [List.map_cons]
    unfold Draft.ofItems Draft.readItems
    rw [hx.read, ih hxs]
    rfl

theorem recovers_list {xs : List α} (h : ∀ x ∈ xs, c.Recovers x) : (list c).Recovers xs where
  read := by
    show (do let xs ← Draft.readItems c.read .value (Draft.ofItems (xs.map c.write)); _) = _
    rw [readItems_map_write h]
    rfl
  wellFormed := .arr (List.forall_mem_map.mpr fun x hx => (h x hx).wellFormed)

/-- Items are read one by one. -/
theorem readItems_eq_ok_iff {vs : List Json} {xs : List α} :
    Draft.readItems c.read .value (Draft.ofItems vs) = .ok xs ↔
      List.Forall₂ (fun v x => c.read .value (.ofJson v) = .ok x) vs xs := by
  induction vs generalizing xs with
  | nil =>
    rw [List.forall₂_nil_left_iff]
    show Except.ok [] = Except.ok xs ↔ _
    rw [Except.ok.injEq, eq_comm]
  | cons v vs ih =>
    unfold Draft.ofItems Draft.readItems
    rw [bind_eq_ok, List.forall₂_cons_left_iff]
    constructor
    · rintro ⟨x, hx, hread⟩
      obtain ⟨rest, hrest, heq⟩ := bind_eq_ok.mp hread
      cases heq
      exact ⟨x, rest, hx, ih.mp hrest, rfl⟩
    · rintro ⟨x, rest, hx, hrest, rfl⟩
      exact ⟨x, hx, bind_eq_ok.mpr ⟨rest, ih.mpr hrest, rfl⟩⟩

/-- **A list is read from an array**, item by item. -/
theorem read_list_eq_ok_iff {v : Json} {xs : List α} :
    (list c).read .value (.ofJson v) = .ok xs ↔
      ∃ vs, v = .arr vs ∧ List.Forall₂ (fun v x => c.read .value (.ofJson v) = .ok x) vs xs := by
  constructor
  · intro h
    cases v with
    | arr vs =>
      obtain ⟨inner, hinner, h⟩ := bind_eq_ok.mp h
      cases hinner
      obtain ⟨ys, hys, h⟩ := bind_eq_ok.mp h
      cases h
      exact ⟨vs, rfl, readItems_eq_ok_iff.mp hys⟩
    | num n => cases n <;> cases h
    | _ => cases h
  · rintro ⟨vs, rfl, h⟩
    exact bind_eq_ok.mpr ⟨.value, rfl, bind_eq_ok.mpr ⟨xs, readItems_eq_ok_iff.mpr h, rfl⟩⟩

theorem recovers_of_readItems (hc : c.Faithful) {vs : List Json} {xs : List α}
    (hvs : ∀ v ∈ vs, v.WellFormed)
    (h : Draft.readItems c.read .value (Draft.ofItems vs) = .ok xs) : ∀ x ∈ xs, c.Recovers x := by
  induction vs generalizing xs with
  | nil =>
    cases h
    exact fun x hx => absurd hx List.not_mem_nil
  | cons v vs ih =>
    obtain ⟨hv, hvs⟩ := List.forall_mem_cons.mp hvs
    unfold Draft.ofItems Draft.readItems at h
    obtain ⟨x, hx, h⟩ := bind_eq_ok.mp h
    obtain ⟨rest, hrest, h⟩ := bind_eq_ok.mp h
    cases h
    exact List.forall_mem_cons.mpr ⟨hc v x hv hx, ih hvs hrest⟩

theorem faithful_list (hc : c.Faithful) : (list c).Faithful := by
  intro v xs hv h
  cases v with
  | arr vs =>
    obtain ⟨inner, hinner, h⟩ := bind_eq_ok.mp h
    cases hinner
    obtain ⟨ys, hys, h⟩ := bind_eq_ok.mp h
    cases h
    exact recovers_list (recovers_of_readItems hc hv.items hys)
  | num n => cases n <;> cases h
  | _ => cases h

theorem recovers_members {ms : Members} (h : (Json.obj ms).WellFormed) : members.Recovers ms where
  read := by
    have hvalues : ∀ m ∈ ms, Draft.toJson .value (.ofJson m.2) = .ok m.2 :=
      fun m hm => toJson_ofJson (h.values m hm)
    show (do let ms ← Draft.toMembers .value (Draft.ofMembers ms) []; _) = _
    rw [@Draft.toMembers_ofMembers ms [] hvalues h.distinct]
    rfl
  wellFormed := h

theorem faithful_members : members.Faithful := by
  intro v ms hv h
  cases v with
  | obj ns =>
    have hns := (recovers_members hv).read
    cases hns.symm.trans h
    exact recovers_members hv
  | num n => cases n <;> cases h
  | _ => cases h

/-- The name of a variant is read as the variant. -/
theorem total_oneOf {known : List (String × α)} {name : α → String}
    (h : ∀ a, known.lookup (name a) = some a) : (oneOf known name).Total := by
  intro a
  refine ⟨?_, .str (name a)⟩
  show variant known (name a) = .ok a
  unfold variant
  rw [h]

theorem Total.list (h : c.Total) : (Codec.list c).Total :=
  fun _ => recovers_list fun x _ => h x

end Codec

end Wire

end Reshape
