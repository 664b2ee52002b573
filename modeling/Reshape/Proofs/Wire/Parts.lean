/-
# Reshape.Proofs.Wire.Parts -- one part of a record, read and replaced

A field with a codec of its own holds a part of a record that the other fields leave alone (`Part`).
What was read for it is that part (`Part.read_value?`). When another value is put in its place,
which also works where nothing was, the record that is read differs in that part only
(`Part.ofJson_replace`).

An object holds the part under the key of the field, an array at its position. From here on this
makes no difference: where something is held, it is one of the parts of the value, with the same
parts before and after it whatever it is (`Part.exists_split`).
-/

import Reshape.Proofs.Wire.Decodes

namespace Reshape.Wire

variable {ρ α : Type}

/-! ## One part -/

/-- **A field spares a part of the record**: it does not matter whether the part is set before or
after the field is read. -/
def Field.Spares (f : Field ρ) (set : α → ρ → ρ) : Prop :=
  ∀ v update, f.read .value (.ofJson v) = .ok update → ∀ a r, update (set a r) = set a (update r)

namespace Field

variable {β : Type} {key : String} {c : Codec β} {set : α → ρ → ρ}

theorem spares_of_codec {f : Field ρ} {put : β → ρ → ρ}
    (hread : ∀ v, f.read .value (.ofJson v) = (c.read .value (.ofJson v)).map put)
    (hput : ∀ b a r, put b (set a r) = set a (put b r)) : f.Spares set := by
  intro v update h
  rw [hread] at h
  obtain ⟨b, -, rfl⟩ := map_eq_ok.mp h
  exact hput b

theorem spares_needed {get : ρ → β} {put : β → ρ → ρ}
    (hput : ∀ b a r, put b (set a r) = set a (put b r)) : (needed key c get put).Spares set :=
  spares_of_codec (fun _ => rfl) hput

theorem spares_defaulted {get : ρ → β} {put : β → ρ → ρ}
    (hput : ∀ b a r, put b (set a r) = set a (put b r)) : (defaulted key c get put).Spares set :=
  spares_of_codec (fun _ => rfl) hput

theorem spares_maybe {get : ρ → Option β} {put : Option β → ρ → ρ}
    (hput : ∀ b a r, put b (set a r) = set a (put b r)) : (maybe key c get put).Spares set := by
  intro v update h
  cases v with
  | null =>
    cases h
    exact hput none
  | _ =>
    obtain ⟨b, -, rfl⟩ := map_eq_ok.mp h
    exact hput (some b)

end Field

/-- **A part of a record**: a field that goes by one key, at a position, with a codec for the part.
No other field touches it. -/
structure Part (s : Shape ρ) (α : Type) where
  field : Field ρ
  position : Nat
  codec : Codec α
  get : ρ → α
  set : α → ρ → ρ
  fields_position : s.fields[position]? = some field
  other_eq : field.other = none
  read_eq : ∀ v, field.read .value (.ofJson v) = (codec.read .value (.ofJson v)).map set
  get_set : ∀ a r, get (set a r) = a
  set_get : ∀ r, set (get r) r = r
  set_set : ∀ a b r, set a (set b r) = set a r
  spares : ∀ f ∈ s.fields, f.key ≠ field.key → f.Spares set

namespace Part

variable {s : Shape ρ} {P : ρ → Prop} (part : Part s α) {v new : Json} {r t : ρ} {a : α}

/-- What a value holds for the part: the member with its key, or the item at its position. -/
def value? : Json → Option Json
  | .obj ms => Members.get? ms part.field.key
  | .arr vs => vs[part.position]?
  | _ => none

/-- Put another value in its place, or in the next free one. -/
def replace (new : Json) : Json → Json
  | .obj ms => .obj (Members.insert part.field.key new ms)
  | .arr vs => .arr (vs.take part.position ++ new :: vs.drop (part.position + 1))
  | v => v

/-- There is room for the part in a value: an array has items for all fields before. -/
def HasRoom : Json → Prop
  | .arr vs => part.position ≤ vs.length
  | _ => True

theorem position_lt : part.position < s.fields.length :=
  (List.getElem?_eq_some_iff.mp part.fields_position).1

/-- The fields around that of the part. -/
theorem fields_eq : s.fields = s.fields.take part.position ++
    part.field :: s.fields.drop (part.position + 1) := by
  obtain ⟨hlt, heq⟩ := List.getElem?_eq_some_iff.mp part.fields_position
  rw [← heq, List.cons_getElem_drop_succ, List.take_append_drop]

variable {part}

/-- Parts for other fields leave this one alone. -/
theorem builds_set {parts : List (Field ρ × Json)} (h : Builds parts r t)
    (hfields : ∀ p ∈ parts, p.1 ∈ s.fields) (hkey : part.field.key ∉ keysOf parts) (a : α) :
    Builds parts (part.set a r) (part.set a t) := by
  induction h with
  | nil r => exact .nil _
  | @cons f v parts update r t hread _ ih =>
    obtain ⟨hf, hfields⟩ := List.forall_mem_cons.mp hfields
    rw [keysOf, List.map_cons, List.mem_cons, not_or] at hkey
    obtain ⟨hne, hkey⟩ := hkey
    refine .cons hread ?_
    rw [part.spares f hf (Ne.symm hne) v update hread]
    exact ih hfields hkey

theorem get_of_builds {parts : List (Field ρ × Json)} (h : Builds parts r t)
    (hfields : ∀ p ∈ parts, p.1 ∈ s.fields) (hkey : part.field.key ∉ keysOf parts) :
    part.get t = part.get r := by
  have hsame := builds_set h hfields hkey (part.get r)
  rw [part.set_get] at hsame
  rw [h.unique hsame, part.get_set]

theorem mem_fields_of_mem_parts {p : Field ρ × Json} (h : p ∈ s.parts v) : p.1 ∈ s.fields := by
  cases v with
  | obj ms =>
    obtain ⟨m, -, hm⟩ := List.mem_filterMap.mp h
    obtain ⟨f, hf, rfl⟩ := Option.map_eq_some_iff.mp hm
    exact List.mem_of_find?_eq_some hf
  | arr vs => exact (List.of_mem_zip h).1
  | _ => exact absurd h List.not_mem_nil

/-- Only its key leads to the field of the part. -/
theorem eq_key_of_find? {key : String} (h : s.fields.find? (·.answersTo key) = some part.field) :
    key = part.field.key := by
  have hanswers : part.field.answersTo key = true :=
    List.find?_some (p := fun f : Field ρ => f.answersTo key) h
  have hkey : part.field.key = key := by simpa [Field.answersTo, part.other_eq] using hanswers
  exact hkey.symm

/-- **Where the value holds something for the part**, this is one of its parts, and putting another
value in its place changes nothing else. -/
theorem parts_of_value?_eq_some (h : s.Lawful P) {x : Json} (hx : part.value? v = some x) :
    ∃ before after, s.parts v = before ++ (part.field, x) :: after ∧
      ∀ new, s.parts (part.replace new v) = before ++ (part.field, new) :: after := by
  cases v with
  | obj ms =>
    obtain ⟨before, after, rfl, hkey⟩ := Members.exists_split_of_get?_eq_some hx
    have hfind : s.fields.find? (·.answersTo part.field.key) = some part.field :=
      h.find?_answersTo part.fields_eq
    have hparts : ∀ y, s.memberParts (before ++ (part.field.key, y) :: after) =
        s.memberParts before ++ (part.field, y) :: s.memberParts after := by
      intro y
      rw [← Shape.memberParts_cons_of_some (m := (part.field.key, y)) hfind]
      exact List.filterMap_append
    refine ⟨_, _, hparts x, fun new => ?_⟩
    show s.memberParts (Members.insert part.field.key new _) = _
    rw [Members.insert_split hkey]
    exact hparts new
  | arr vs =>
    obtain ⟨hlt, heq⟩ := List.getElem?_eq_some_iff.mp (show vs[part.position]? = some x from hx)
    have hlength : (s.fields.take part.position).length = (vs.take part.position).length := by
      have hposition := part.position_lt
      simp only [List.length_take]
      omega
    -- fields and items are split at the same position, so each field keeps its item
    have hparts : ∀ y, s.fields.zip (vs.take part.position ++ y :: vs.drop (part.position + 1)) =
        (s.fields.take part.position).zip (vs.take part.position) ++
          (part.field, y) :: (s.fields.drop (part.position + 1)).zip
            (vs.drop (part.position + 1)) := by
      intro y
      conv_lhs => rw [part.fields_eq]
      rw [List.zip_append hlength, List.zip_cons_cons]
    refine ⟨_, _, ?_, hparts⟩
    have hvs := hparts x
    rw [← heq, List.cons_getElem_drop_succ, List.take_append_drop, heq] at hvs
    exact hvs
  | _ => cases hx

/-- **Where the value holds nothing for the part**, it has no part for its field. -/
theorem key_not_mem_of_value?_eq_none (h : s.Lawful P) (hnone : part.value? v = none) :
    part.field.key ∉ keysOf (s.parts v) := by
  cases v with
  | obj ms =>
    intro hmem
    obtain ⟨p, hp, heq⟩ := List.mem_map.mp hmem
    obtain ⟨m, hm, hfound⟩ := List.mem_filterMap.mp hp
    obtain ⟨f, hf, rfl⟩ := Option.map_eq_some_iff.mp hfound
    obtain rfl : f = part.field :=
      List.inj_on_of_nodup_map h.nodup_keys (List.mem_of_find?_eq_some hf)
        (List.mem_of_getElem? part.fields_position) heq
    -- the member has the key of the part, under which nothing is held
    apply Members.not_mem_of_get?_eq_none hnone
    exact eq_key_of_find? hf ▸ List.mem_map_of_mem hm
  | arr vs =>
    have hlength : vs.length ≤ part.position := List.getElem?_eq_none_iff.mp hnone
    have hlate : part.field ∈ s.fields.drop vs.length := by
      apply List.mem_of_getElem? (i := part.position - vs.length)
      rw [List.getElem?_drop, Nat.add_sub_cancel' hlength]
      exact part.fields_position
    have hkeys := h.nodup_keys
    rw [← List.take_append_drop vs.length s.fields, List.map_append, List.nodup_append] at hkeys
    show part.field.key ∉ keysOf (s.fields.zip vs)
    rw [Shape.keysOf_zip]
    intro hmem
    exact hkeys.2.2 _ hmem _ (List.mem_map_of_mem hlate) rfl
  | _ => exact List.not_mem_nil

/-- What is put where nothing was comes last. -/
theorem parts_replace_of_value?_eq_none (h : s.Lawful P) (hfits : s.Fits v)
    (hnone : part.value? v = none) (hroom : part.HasRoom v) (new : Json) :
    s.parts (part.replace new v) = s.parts v ++ [(part.field, new)] := by
  cases v with
  | obj ms =>
    have hkey : part.field.key ∉ Members.keys ms := Members.not_mem_of_get?_eq_none hnone
    have hfind : s.fields.find? (·.answersTo part.field.key) = some part.field :=
      h.find?_answersTo part.fields_eq
    show s.memberParts (Members.insert part.field.key new ms) = _
    rw [Members.insert_of_not_mem hkey, Shape.memberParts, List.filterMap_append]
    congr 1
    exact Shape.memberParts_cons_of_some (m := (part.field.key, new)) hfind []
  | arr vs =>
    have hlength : vs.length = part.position :=
      Nat.le_antisymm (List.getElem?_eq_none_iff.mp hnone) hroom
    have hposition := part.position_lt
    have htake : (s.fields.take part.position).length = vs.length := by
      rw [List.length_take]
      omega
    have hzip : ∀ ys, s.fields.zip (vs ++ ys) = (s.fields.take part.position).zip vs ++
        (part.field :: s.fields.drop (part.position + 1)).zip ys := by
      intro ys
      conv_lhs => rw [part.fields_eq]
      exact List.zip_append htake
    have hnew : part.replace new (.arr vs) = .arr (vs ++ [new]) := by
      show Json.arr (vs.take part.position ++ new :: vs.drop (part.position + 1)) = _
      rw [List.take_of_length_le (by omega), List.drop_of_length_le (by omega)]
    have hold := hzip []
    rw [List.append_nil, List.zip_nil_right, List.append_nil] at hold
    rw [hnew]
    show s.fields.zip (vs ++ [new]) = s.fields.zip vs ++ _
    rw [hzip, hold, List.zip_cons_cons, List.zip_nil_right]
  | _ => exact hfits.elim

theorem fits_replace (hfits : s.Fits v) (new : Json) : s.Fits (part.replace new v) := by
  cases v with
  | obj ms => exact trivial
  | arr vs =>
    have hlength : vs.length ≤ s.fields.length := hfits
    have hposition := part.position_lt
    show (vs.take part.position ++ new :: vs.drop (part.position + 1)).length ≤ s.fields.length
    rw [List.length_append, List.length_take, List.length_cons, List.length_drop]
    omega
  | _ => exact hfits

/-! ## The part in the record -/

/-- **Reading a value that holds something for the part**: the parts before it, this one, which is
that of the record, and the parts after it, which would do the same with any other. -/
theorem exists_split (h : s.Lawful P) (hdecodes : s.Decodes v r) {x : Json}
    (hx : part.value? v = some x) :
    ∃ before after u, s.parts v = before ++ (part.field, x) :: after ∧
      (∀ new, s.parts (part.replace new v) = before ++ (part.field, new) :: after) ∧
      Builds before s.blank u ∧ part.codec.read .value (.ofJson x) = .ok (part.get r) ∧
      ∀ a, Builds after (part.set a u) (part.set a r) := by
  obtain ⟨before, after, hparts, hreplace⟩ := parts_of_value?_eq_some h hx
  have hfields : ∀ p ∈ s.parts v, p.1 ∈ s.fields := fun p hp => mem_fields_of_mem_parts hp
  have hbuilds := hdecodes.builds
  have hdistinct := hdecodes.distinct
  rw [hparts] at hbuilds hdistinct hfields
  obtain ⟨u, hbefore, hrest⟩ := Builds.append_iff.mp hbuilds
  obtain ⟨update, hupdate, hafter⟩ := Builds.cons_iff.mp hrest
  rw [part.read_eq] at hupdate
  obtain ⟨a, ha, rfl⟩ := map_eq_ok.mp hupdate
  -- as each field comes once, what comes after the part is for other fields
  have hkey : part.field.key ∉ keysOf after := by
    rw [keysOf, List.map_append, List.map_cons] at hdistinct
    exact (List.nodup_cons.mp (List.nodup_append.mp hdistinct).2.1).1
  have hfields : ∀ p ∈ after, p.1 ∈ s.fields := by
    intro p hp
    exact hfields p (List.mem_append_right before (List.mem_cons_of_mem _ hp))
  have hget : part.get r = a := by
    rw [get_of_builds hafter hfields hkey, part.get_set]
  refine ⟨before, after, u, hparts, hreplace, hbefore, hget ▸ ha, ?_⟩
  intro b
  have hset := builds_set hafter hfields hkey b
  rw [part.set_set] at hset
  exact hset

/-- **What a value holds for the part is read as the part of the record.** A value that holds
nothing for it leaves the part as it is in the blank record. -/
theorem read_value? (part : Part s α) (h : s.Lawful P) (hread : s.ofJson v = .ok r) :
    (∃ x, part.value? v = some x ∧ part.codec.read .value (.ofJson x) = .ok (part.get r)) ∨
      part.value? v = none ∧ part.get r = part.get s.blank := by
  have hdecodes := (Shape.ofJson_eq_ok_iff h.nodup_keys).mp hread
  cases hx : part.value? v with
  | none =>
    refine .inr ⟨rfl, get_of_builds hdecodes.builds ?_ (key_not_mem_of_value?_eq_none h hx)⟩
    intro p hp
    exact mem_fields_of_mem_parts hp
  | some x =>
    obtain ⟨_, _, _, -, -, -, hvalue, -⟩ := exists_split h hdecodes hx
    exact .inl ⟨x, rfl, hvalue⟩

/-- A value from which a record is read holds something for a part that is required. -/
theorem exists_value?_of_required (part : Part s α) (h : s.Lawful P)
    (hread : s.ofJson v = .ok r) (hrequired : part.field.required = true) :
    ∃ x, part.value? v = some x := by
  rw [← Option.isSome_iff_exists, Option.isSome_iff_ne_none]
  intro hnone
  have hdecodes := (Shape.ofJson_eq_ok_iff h.nodup_keys).mp hread
  apply key_not_mem_of_value?_eq_none h hnone
  exact hdecodes.complete _ (List.mem_of_getElem? part.fields_position) hrequired

/-- There is room for a part where one is. -/
theorem hasRoom_of_value?_eq_some {x : Json} (hx : part.value? v = some x) : part.HasRoom v := by
  cases v with
  | arr vs => exact Nat.le_of_lt (List.getElem?_eq_some_iff.mp hx).1
  | _ => exact trivial

/-- **Another value in the place of the part** changes the part of the record, and nothing else. -/
theorem ofJson_replace (part : Part s α) (h : s.Lawful P) (hread : s.ofJson v = .ok r)
    (hroom : part.HasRoom v) (hnew : part.codec.read .value (.ofJson new) = .ok a) :
    s.ofJson (part.replace new v) = .ok (part.set a r) := by
  have hdecodes := (Shape.ofJson_eq_ok_iff h.nodup_keys).mp hread
  have hupdate : part.field.read .value (.ofJson new) = .ok (part.set a) := by
    rw [part.read_eq, hnew]
    rfl
  rw [Shape.ofJson_eq_ok_iff h.nodup_keys]
  cases hx : part.value? v with
  | some x =>
    obtain ⟨before, after, u, hparts, hreplace, hbefore, -, hafter⟩ := exists_split h hdecodes hx
    have hkeys : keysOf (s.parts (part.replace new v)) = keysOf (s.parts v) := by
      rw [hreplace, hparts]
      simp [keysOf]
    refine ⟨fits_replace hdecodes.fits new, ?_, ?_, ?_⟩
    · rw [hreplace]
      exact Builds.append_iff.mpr ⟨u, hbefore, .cons hupdate (hafter a)⟩
    · rw [hkeys]
      exact hdecodes.distinct
    · rw [hkeys]
      exact hdecodes.complete
  | none =>
    -- the new part is read last, on top of the record that was there
    have hparts := parts_replace_of_value?_eq_none h hdecodes.fits hx hroom new
    have hkeys : keysOf (s.parts (part.replace new v)) =
        keysOf (s.parts v) ++ [part.field.key] := by
      rw [hparts]
      simp [keysOf]
    refine ⟨fits_replace hdecodes.fits new, ?_, ?_, ?_⟩
    · rw [hparts]
      exact Builds.append_iff.mpr ⟨r, hdecodes.builds, .cons hupdate (.nil _)⟩
    · rw [hkeys, List.nodup_append]
      refine ⟨hdecodes.distinct, List.nodup_singleton _, ?_⟩
      intro key hkey other hother heq
      rw [List.mem_singleton.mp hother] at heq
      exact key_not_mem_of_value?_eq_none h hx (heq ▸ hkey)
    · rw [hkeys]
      intro f hf hrequired
      exact List.mem_append_left _ (hdecodes.complete f hf hrequired)

end Part

end Reshape.Wire
