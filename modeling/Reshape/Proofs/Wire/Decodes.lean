/-
# Reshape.Proofs.Wire.Decodes -- what decoding a record comes to

A record is read from an object or from an array, but in either case this comes to the same: the
value has parts for some of the fields, each field at most once and the required ones at least once,
and these parts are read one after the other (`Shape.Decodes`, `Shape.ofJson_eq_ok_iff`). Keys that
no field knows are passed over, whatever is there, as a value has no faults.
-/

import Reshape.Proofs.Wire.Record

namespace Reshape.Wire

variable {ρ α : Type}

/-! ## Drafts of values are sound -/

mutual

theorem Draft.isSound_ofJson : ∀ v : Json, (Draft.ofJson v).isSound = true
  | .null => rfl
  | .bool _ => rfl
  | .num _ => rfl
  | .str _ => rfl
  | .arr vs => by
    unfold Draft.ofJson Draft.isSound
    rw [Draft.soundItems_ofItems vs]
    rfl
  | .obj ms => by
    unfold Draft.ofJson Draft.isSound
    rw [Draft.soundMembers_ofMembers ms]
    rfl

theorem Draft.soundItems_ofItems : ∀ vs : List Json, Draft.soundItems (Draft.ofItems vs) = true
  | [] => rfl
  | v :: vs => by
    unfold Draft.ofItems Draft.soundItems
    rw [Draft.isSound_ofJson v, Draft.soundItems_ofItems vs]
    rfl

theorem Draft.soundMembers_ofMembers :
    ∀ ms : List (String × Json), Draft.soundMembers (Draft.ofMembers ms) = true
  | [] => rfl
  | (_, v) :: ms => by
    unfold Draft.ofMembers Draft.soundMembers
    rw [Draft.isSound_ofJson v, Draft.soundMembers_ofMembers ms]
    rfl

end

theorem Draft.skip_ofJson (v : Json) : (Draft.ofJson v).skip = .ok () := by
  unfold Draft.skip
  rw [if_pos (Draft.isSound_ofJson v)]

/-! ## Reading part by part -/

/-- **Reading parts for fields**, one after the other, takes one record to another. -/
inductive Builds : List (Field ρ × Json) → ρ → ρ → Prop
  | nil (r : ρ) : Builds [] r r
  | cons {f : Field ρ} {v : Json} {parts : List (Field ρ × Json)} {update : ρ → ρ} {r t : ρ}
      (hread : f.read .value (.ofJson v) = .ok update) (rest : Builds parts (update r) t) :
      Builds ((f, v) :: parts) r t

/-- The keys of the fields for which there are parts. -/
def keysOf (parts : List (Field ρ × Json)) : List String :=
  parts.map fun part => part.1.key

namespace Builds

variable {f : Field ρ} {v : Json} {parts others : List (Field ρ × Json)} {r t u : ρ}

theorem nil_iff : Builds [] r t ↔ t = r := by
  constructor
  · rintro ⟨⟩
    rfl
  · rintro rfl
    exact .nil t

theorem cons_iff : Builds ((f, v) :: parts) r t ↔
    ∃ update, f.read .value (.ofJson v) = .ok update ∧ Builds parts (update r) t := by
  constructor
  · rintro ⟨⟩
    exact ⟨_, ‹_›, ‹_›⟩
  · rintro ⟨update, hread, hrest⟩
    exact .cons hread hrest

theorem append_iff : Builds (parts ++ others) r t ↔ ∃ u, Builds parts r u ∧ Builds others u t := by
  induction parts generalizing r with
  | nil => simp [nil_iff]
  | cons part parts ih =>
    obtain ⟨f, v⟩ := part
    simp only [List.cons_append, cons_iff, ih]
    constructor
    · rintro ⟨update, hread, u, hu, ht⟩
      exact ⟨u, ⟨update, hread, hu⟩, ht⟩
    · rintro ⟨u, ⟨update, hread, hu⟩, ht⟩
      exact ⟨update, hread, u, hu, ht⟩

/-- Reading the same parts gives the same record. -/
theorem unique (h : Builds parts r t) (h' : Builds parts r u) : t = u := by
  induction h with
  | nil => exact (nil_iff.mp h').symm
  | cons hread _ ih =>
    obtain ⟨update, hread', hrest⟩ := cons_iff.mp h'
    cases hread.symm.trans hread'
    exact ih hrest

end Builds

namespace Shape

variable {s : Shape ρ} {P : ρ → Prop} {v : Json} {r t : ρ}

/-- The parts that the members of an object are, for the fields that know them. -/
def memberParts (s : Shape ρ) (ms : Members) : List (Field ρ × Json) :=
  ms.filterMap fun m => (s.fields.find? (·.answersTo m.1)).map fun f => (f, m.2)

/-- **The parts of a value** for the fields of a record, in the order in which they are read. -/
def parts (s : Shape ρ) : Json → List (Field ρ × Json)
  | .obj ms => s.memberParts ms
  | .arr vs => s.fields.zip vs
  | _ => []

/-- A value has the form of a record: it is an object, or an array that is not too long. -/
def Fits (s : Shape ρ) : Json → Prop
  | .obj _ => True
  | .arr vs => vs.length ≤ s.fields.length
  | _ => False

/-- **What decoding a record comes to.** -/
structure Decodes (s : Shape ρ) (v : Json) (r : ρ) : Prop where
  fits : s.Fits v
  builds : Builds (s.parts v) s.blank r
  distinct : (keysOf (s.parts v)).Nodup
  complete : ∀ f ∈ s.fields, f.required = true → f.key ∈ keysOf (s.parts v)

theorem memberParts_cons_of_none {m : String × Json}
    (h : s.fields.find? (·.answersTo m.1) = none) (ms : Members) :
    s.memberParts (m :: ms) = s.memberParts ms := by
  unfold memberParts
  rw [List.filterMap_cons, h]
  rfl

theorem memberParts_cons_of_some {m : String × Json} {f : Field ρ}
    (h : s.fields.find? (·.answersTo m.1) = some f) (ms : Members) :
    s.memberParts (m :: ms) = (f, m.2) :: s.memberParts ms := by
  unfold memberParts
  rw [List.filterMap_cons, h]
  rfl

/-- **Reading members** takes in the parts, none of them for a field that came already. -/
theorem readMembers_eq_ok_iff {ms : Members} {seen seen' : List String} (hseen : seen.Nodup) :
    s.readMembers .value (Draft.ofMembers ms) r seen = .ok (t, seen') ↔
      Builds (s.memberParts ms) r t ∧ (keysOf (s.memberParts ms)).reverse ++ seen = seen' ∧
        seen'.Nodup := by
  induction ms generalizing r seen with
  | nil =>
    show Except.ok (r, seen) = Except.ok (t, seen') ↔ Builds [] r t ∧ seen = seen' ∧ _
    rw [Except.ok.injEq, Prod.mk.injEq, Builds.nil_iff, eq_comm]
    constructor
    · rintro ⟨rfl, rfl⟩
      exact ⟨rfl, rfl, hseen⟩
    · rintro ⟨rfl, rfl, -⟩
      exact ⟨rfl, rfl⟩
  | cons m ms ih =>
    obtain ⟨key, v⟩ := m
    unfold Draft.ofMembers Shape.readMembers
    cases hfind : s.fields.find? (·.answersTo key) with
    | none =>
      dsimp only
      rw [Draft.skip_ofJson, memberParts_cons_of_none hfind]
      exact ih hseen
    | some f =>
      dsimp only
      rw [memberParts_cons_of_some hfind, Builds.cons_iff]
      have hkeys : (keysOf ((f, v) :: s.memberParts ms)).reverse ++ seen =
          (keysOf (s.memberParts ms)).reverse ++ f.key :: seen := by
        simp [keysOf]
      rw [hkeys]
      -- a field that came already is refused, and its key would stand in `seen'` twice
      by_cases hmem : f.key ∈ seen
      · rw [if_pos (List.contains_iff_mem.mpr hmem)]
        refine iff_of_false (fun h => by cases h) ?_
        rintro ⟨-, rfl, hnodup⟩
        exact (List.nodup_cons.mp (List.nodup_append.mp hnodup).2.1).1 hmem
      · rw [if_neg (mt List.contains_iff_mem.mp hmem), bind_eq_ok]
        have hrest (update : ρ → ρ) :=
          ih (r := update r) (List.nodup_cons.mpr ⟨hmem, hseen⟩)
        simp only [hrest]
        tauto

/-- **Reading items** takes in the parts for the first fields, and no required field is left. -/
theorem readItems_eq_ok_iff {fs : List (Field ρ)} {vs : List Json} {index : Nat}
    {spare : List Draft} :
    s.readItems .value true index fs (Draft.ofItems vs) r = .ok (t, spare) ↔
      Builds (fs.zip vs) r t ∧ Draft.ofItems (vs.drop fs.length) = spare ∧
        ∀ f ∈ fs.drop vs.length, f.required = false := by
  induction fs generalizing vs index r with
  | nil =>
    show Except.ok (r, Draft.ofItems vs) = Except.ok (t, spare) ↔ Builds [] r t ∧ _
    rw [Except.ok.injEq, Prod.mk.injEq, Builds.nil_iff, @eq_comm ρ r t]
    simp
  | cons f fs ih =>
    cases vs with
    | nil =>
      -- no items are left: a required field is refused, another one is passed over
      have hrest := @ih r [] (index + 1)
      unfold Draft.ofItems Shape.readItems
      rw [if_neg (by decide)]
      cases hrequired : f.required with
      | true => simp [hrequired]
      | false =>
        rw [if_neg (by decide)]
        refine hrest.trans ?_
        simp [hrequired, Draft.ofItems]
    | cons v vs =>
      rw [Draft.ofItems, Shape.readItems, bind_eq_ok, List.zip_cons_cons, Builds.cons_iff]
      simp only [ih, List.length_cons, List.drop_succ_cons]
      constructor
      · rintro ⟨update, hread, hbuilds, hspare, hleft⟩
        exact ⟨⟨update, hread, hbuilds⟩, hspare, hleft⟩
      · rintro ⟨⟨update, hread, hbuilds⟩, hspare, hleft⟩
        exact ⟨update, hread, hbuilds, hspare, hleft⟩

/-- The keys of the first fields, as many as there are items. -/
theorem keysOf_zip (fs : List (Field ρ)) (vs : List Json) :
    keysOf (fs.zip vs) = (fs.take vs.length).map Field.key := by
  induction fs generalizing vs with
  | nil => simp [keysOf]
  | cons f fs ih =>
    cases vs with
    | nil => rfl
    | cons v vs =>
      show f.key :: keysOf (fs.zip vs) = _
      rw [ih]
      rfl

/-- No required field is left behind the first few exactly when all of them are among these. -/
theorem forall_drop_iff {fs : List (Field ρ)} (hkeys : (fs.map Field.key).Nodup) (n : Nat) :
    (∀ f ∈ fs.drop n, f.required = false) ↔
      ∀ f ∈ fs, f.required = true → f.key ∈ (fs.take n).map Field.key := by
  rw [← List.take_append_drop n fs, List.map_append] at hkeys
  constructor
  · intro h f hf hrequired
    rw [← List.take_append_drop n fs] at hf
    rcases List.mem_append.mp hf with hf | hf
    · exact List.mem_map_of_mem hf
    · rw [h f hf] at hrequired
      cases hrequired
  · intro h f hf
    by_contra hrequired
    have hmem := h f (List.mem_of_mem_drop hf) (by simpa using hrequired)
    exact (List.nodup_append.mp hkeys).2.2 _ hmem _ (List.mem_map_of_mem hf) rfl

/-- A required field is missing, or all of them came. -/
theorem firstMissing_eq_none_iff {seen : List String} :
    s.firstMissing seen = none ↔ ∀ f ∈ s.fields, f.required = true → f.key ∈ seen := by
  simp [firstMissing, List.find?_eq_none]

theorem ofJson_obj_eq_ok_iff {ms : Members} :
    s.ofJson (.obj ms) = .ok r ↔ s.Decodes (.obj ms) r := by
  constructor
  · intro hread
    obtain ⟨inner, hinner, hread⟩ := bind_eq_ok.mp hread
    cases hinner
    obtain ⟨⟨t, seen⟩, hms, hread⟩ := bind_eq_ok.mp hread
    obtain ⟨_, -, hread⟩ := bind_eq_ok.mp hread
    split at hread
    case h_1 => cases hread
    case h_2 hmissing =>
      cases hread
      obtain ⟨hbuilds, hkeys, hnodup⟩ := (readMembers_eq_ok_iff List.nodup_nil).mp hms
      rw [List.append_nil] at hkeys
      subst hkeys
      have hcomplete := firstMissing_eq_none_iff.mp hmissing
      simp only [List.mem_reverse] at hcomplete
      exact ⟨trivial, hbuilds, List.nodup_reverse.mp hnodup, hcomplete⟩
  · rintro ⟨-, hbuilds, hdistinct, hcomplete⟩
    have hms : s.readMembers .value (Draft.ofMembers ms) s.blank [] =
        .ok (r, (keysOf (s.memberParts ms)).reverse) :=
      (readMembers_eq_ok_iff List.nodup_nil).mpr
        ⟨hbuilds, List.append_nil _, List.nodup_reverse.mpr hdistinct⟩
    have hmissing : s.firstMissing (keysOf (s.memberParts ms)).reverse = none := by
      rw [firstMissing_eq_none_iff]
      simp only [List.mem_reverse]
      exact hcomplete
    refine bind_eq_ok.mpr ⟨.value, rfl, bind_eq_ok.mpr ⟨_, hms, bind_eq_ok.mpr ⟨(), rfl, ?_⟩⟩⟩
    rw [hmissing]

theorem ofJson_arr_eq_ok_iff (hkeys : (s.fields.map Field.key).Nodup) {vs : List Json} :
    s.ofJson (.arr vs) = .ok r ↔ s.Decodes (.arr vs) r := by
  have hspare : (Draft.ofItems (vs.drop s.fields.length)).isEmpty = true ↔
      vs.length ≤ s.fields.length := by
    rw [← List.drop_eq_nil_iff]
    cases vs.drop s.fields.length with
    | nil => exact iff_of_true rfl rfl
    | cons v vs => exact iff_of_false Bool.false_ne_true (List.cons_ne_nil v vs)
  constructor
  · intro hread
    obtain ⟨inner, hinner, hread⟩ := bind_eq_ok.mp hread
    cases hinner
    obtain ⟨⟨t, spare⟩, hvs, hread⟩ := bind_eq_ok.mp hread
    obtain ⟨hbuilds, rfl, hleft⟩ := readItems_eq_ok_iff.mp hvs
    dsimp only at hread
    split at hread
    case isFalse => cases hread
    case isTrue hempty =>
      cases hread
      have hdistinct : (keysOf (s.fields.zip vs)).Nodup := by
        rw [keysOf_zip]
        exact hkeys.sublist ((List.take_sublist _ _).map Field.key)
      refine ⟨hspare.mp hempty, hbuilds, hdistinct, ?_⟩
      show ∀ f ∈ s.fields, f.required = true → f.key ∈ keysOf (s.fields.zip vs)
      rw [keysOf_zip]
      exact (forall_drop_iff hkeys vs.length).mp hleft
  · rintro ⟨hfits, hbuilds, -, hcomplete⟩
    have hleft : ∀ f ∈ s.fields.drop vs.length, f.required = false := by
      apply (forall_drop_iff hkeys vs.length).mpr
      rw [← keysOf_zip]
      exact hcomplete
    refine bind_eq_ok.mpr ⟨.value, rfl, bind_eq_ok.mpr
      ⟨(r, _), readItems_eq_ok_iff.mpr ⟨hbuilds, rfl, hleft⟩, ?_⟩⟩
    dsimp only
    rw [if_pos (hspare.mpr hfits)]
    rfl

/-- **A record is decoded** from a value exactly when the parts of the value build it up. -/
theorem ofJson_eq_ok_iff (hkeys : (s.fields.map Field.key).Nodup) :
    s.ofJson v = .ok r ↔ s.Decodes v r := by
  cases v with
  | obj ms => exact ofJson_obj_eq_ok_iff
  | arr vs => exact ofJson_arr_eq_ok_iff hkeys
  | num n => cases n <;> exact iff_of_false (fun h => by cases h) fun h => h.fits
  | _ => exact iff_of_false (fun h => by cases h) fun h => h.fits

end Shape

end Reshape.Wire
