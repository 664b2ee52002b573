/-
# Reshape.Proofs.Wire.Record -- records are read back

A record can be read back when its fields can. `Field.Lawful` says what this takes of a field. One
half is about reading: whatever is read for the field, a property of the record is kept, and the
property says of each part that it can be read back. The other half is about writing: for a record
with this property, reading what is written of the part puts it into a record that lacks it.

Fields in line build up the record from the blank one, part by part (`LawfulFields`). So a shape of
such fields is faithful (`Shape.Lawful.faithful`), provided that no field answers to the key of a
later one. A field that may be missing needs its blank to be what is missing; a field that is left
out must not be required.
-/

import Reshape.Proofs.Wire.Faithful

namespace Reshape

namespace Wire

/-! ## Fields -/

variable {ρ : Type}

/-- **Reading what is written of a field of `r`** takes a record to another one. A field that is left
out, which no required field is, leaves the record as it is. -/
inductive Field.Restores (f : Field ρ) (r before : ρ) : (after : ρ) → Prop
  | written {v : Json} {update : ρ → ρ} (hwrite : f.write r = some v) (hv : v.WellFormed)
      (hread : f.read .value (.ofJson v) = .ok update) : Restores f r before (update before)
  | left (hwrite : f.write r = none) (hrequired : f.required = false) : Restores f r before before

/-- **A field that can be read back.** Reading it from whatever value keeps a property of the record;
and in a record with this property it is put back, so that the part `before` of the record grows to
the part `after`. -/
structure Field.Lawful (f : Field ρ) (P : ρ → Prop) (before after : ρ → ρ) : Prop where
  keeps : ∀ (v : Json) (update : ρ → ρ) (r : ρ), v.WellFormed →
    f.read .value (.ofJson v) = .ok update → P r → P (update r)
  restores : ∀ r, P r → f.Restores r (before r) (after r)

/-- Fields that complete a part of a record to the whole record, one after another. -/
inductive LawfulFields (P : ρ → Prop) : List (Field ρ) → (before : ρ → ρ) → Prop
  | nil {before : ρ → ρ} (h : ∀ r, before r = r) : LawfulFields P [] before
  | cons {f : Field ρ} {fs : List (Field ρ)} {before after : ρ → ρ} (hf : f.Lawful P before after)
      (rest : LawfulFields P fs after) : LawfulFields P (f :: fs) before

/-- **A shape that can be read back**: its fields complete the blank record, and none of them answers
to the key of a later one. -/
structure Shape.Lawful (s : Shape ρ) (P : ρ → Prop) : Prop where
  blank : P s.blank
  keys : s.fields.Pairwise fun f g => f.answersTo g.key = false
  fields : LawfulFields P s.fields fun _ => s.blank

namespace Field

section Kinds

variable {α : Type} {key : String} {c : Codec α} {P : ρ → Prop} {before : ρ → ρ}

/-- What a field with a codec of its own is read as and written as. -/
theorem lawful_of_codec {f : Field ρ} {get : ρ → α} {set : α → ρ → ρ}
    (hread : ∀ o d, f.read o d = (c.read o d).map set)
    (hwrite : ∀ r, f.write r = some (c.write (get r))) (hc : c.Faithful)
    (hset : ∀ a r, c.Recovers a → P r → P (set a r)) (hget : ∀ r, P r → c.Recovers (get r)) :
    f.Lawful P before fun r => set (get r) (before r) where
  keeps v update r hv h hr := by
    rw [hread] at h
    obtain ⟨a, ha, rfl⟩ := map_eq_ok.mp h
    exact hset a r (hc v a hv ha) hr
  restores r hr := by
    obtain ⟨hback, hv⟩ := hget r hr
    refine .written (hwrite r) hv ?_
    rw [hread, hback]
    rfl

theorem lawful_needed {get : ρ → α} {set : α → ρ → ρ} (hc : c.Faithful)
    (hset : ∀ a r, c.Recovers a → P r → P (set a r)) (hget : ∀ r, P r → c.Recovers (get r)) :
    (needed key c get set).Lawful P before fun r => set (get r) (before r) :=
  lawful_of_codec (fun _ _ => rfl) (fun _ => rfl) hc hset hget

theorem lawful_defaulted {get : ρ → α} {set : α → ρ → ρ} (hc : c.Faithful)
    (hset : ∀ a r, c.Recovers a → P r → P (set a r)) (hget : ∀ r, P r → c.Recovers (get r)) :
    (defaulted key c get set).Lawful P before fun r => set (get r) (before r) :=
  lawful_of_codec (fun _ _ => rfl) (fun _ => rfl) hc hset hget

/-- A part that may be missing is put back when it is there. The record has it missing before, and
nothing that is there is written as null. -/
theorem lawful_maybe {get : ρ → Option α} {set : Option α → ρ → ρ} (hc : c.Faithful)
    (hnull : ∀ a, c.write a ≠ .null)
    (hset : ∀ a? r, (∀ a ∈ a?, c.Recovers a) → P r → P (set a? r))
    (hget : ∀ r, P r → ∀ a ∈ get r, c.Recovers a) (hbefore : ∀ r, set none (before r) = before r) :
    (maybe key c get set).Lawful P before fun r => set (get r) (before r) where
  keeps v update r hv h hr := by
    have hnone : ∀ a ∈ (none : Option α), c.Recovers a := by
      intro a ha
      cases ha
    have hsome : ∀ u, (c.read .value (.ofJson v)).map (fun a => set (some a)) = .ok u →
        P (u r) := by
      intro u hu
      obtain ⟨a, ha, rfl⟩ := map_eq_ok.mp hu
      refine hset (some a) r ?_ hr
      rintro _ ⟨⟩
      exact hc v a hv ha
    cases v with
    | null =>
      cases h
      exact hset none r hnone hr
    | _ => exact hsome update h
  restores r hr := by
    cases ha : get r with
    | none =>
      rw [hbefore]
      refine .left ?_ rfl
      show (get r).map c.write = none
      rw [ha]
      rfl
    | some a =>
      obtain ⟨hback, hv⟩ := hget r hr a ha
      have hwrite : (maybe key c get set).write r = some (c.write a) := by
        show (get r).map c.write = _
        rw [ha]
        rfl
      -- it is not written as null, so it is not taken for missing
      have hread : (maybe key c get set).read .value (.ofJson (c.write a)) =
          (c.read .value (.ofJson (c.write a))).map fun a => set (some a) := by
        cases hw : c.write a with
        | null => exact absurd hw (hnull a)
        | _ => rfl
      rw [hback] at hread
      exact .written hwrite hv hread

/-! Where every value of the codec can be read back, the record need not know about the part. -/

theorem lawful_needed_of_total {get : ρ → α} {set : α → ρ → ρ} (hc : c.Total)
    (hset : ∀ a r, P r → P (set a r)) :
    (needed key c get set).Lawful P before fun r => set (get r) (before r) :=
  lawful_needed hc.faithful (fun a r _ => hset a r) fun r _ => hc (get r)

theorem lawful_defaulted_of_total {get : ρ → α} {set : α → ρ → ρ} (hc : c.Total)
    (hset : ∀ a r, P r → P (set a r)) :
    (defaulted key c get set).Lawful P before fun r => set (get r) (before r) :=
  lawful_defaulted hc.faithful (fun a r _ => hset a r) fun r _ => hc (get r)

theorem lawful_maybe_of_total {get : ρ → Option α} {set : Option α → ρ → ρ} (hc : c.Total)
    (hnull : ∀ a, c.write a ≠ .null) (hset : ∀ a? r, P r → P (set a? r))
    (hbefore : ∀ r, set none (before r) = before r) :
    (maybe key c get set).Lawful P before fun r => set (get r) (before r) :=
  lawful_maybe hc.faithful hnull (fun a? r _ => hset a? r) (fun _ _ a _ => hc a) hbefore

theorem lawful_present {get : ρ → Option Json} {set : Option Json → ρ → ρ}
    (hset : ∀ v? r, (∀ v ∈ v?, v.WellFormed) → P r → P (set v? r))
    (hget : ∀ r, P r → ∀ v ∈ get r, v.WellFormed) (hbefore : ∀ r, set none (before r) = before r) :
    (present key get set).Lawful P before fun r => set (get r) (before r) where
  keeps v update r hv h hr := by
    change (Draft.toJson .value (.ofJson v)).map (fun v => set (some v)) = _ at h
    rw [toJson_ofJson hv] at h
    cases h
    refine hset (some v) r ?_ hr
    rintro _ ⟨⟩
    exact hv
  restores r hr := by
    cases hv : get r with
    | none =>
      rw [hbefore]
      exact .left hv rfl
    | some v =>
      refine .written hv (hget r hr v hv) ?_
      show (Draft.toJson .value (.ofJson v)).map (fun v => set (some v)) = _
      rw [toJson_ofJson (hget r hr v hv)]
      rfl

theorem lawful_flag {get : ρ → Bool} {set : Bool → ρ → ρ} (hset : ∀ b r, P r → P (set b r))
    (hbefore : ∀ r, set false (before r) = before r) :
    (flag key get set).Lawful P before fun r => set (get r) (before r) where
  keeps v update r _ h hr := by
    cases v with
    | bool b =>
      cases h
      exact hset b r hr
    | num n => cases n <;> cases h
    | _ => cases h
  restores r _ := by
    cases hb : get r with
    | false =>
      rw [hbefore]
      refine .left ?_ rfl
      show (if get r then _ else _) = none
      rw [hb]
      rfl
    | true =>
      have hwrite : (flag key get set).write r = some (.bool true) := by
        show (if get r then _ else _) = _
        rw [hb]
        rfl
      exact .written hwrite (.bool true) rfl

/-- A second key is for reading only. -/
theorem Lawful.orKey {f : Field ρ} {after : ρ → ρ} (h : f.Lawful P before after) :
    (f.orKey key).Lawful P before after where
  keeps := h.keeps
  restores r hr := by
    generalize ha : after r = next
    have hf := h.restores r hr
    rw [ha] at hf
    cases hf with
    | written hwrite hv hread => exact .written hwrite hv hread
    | left hwrite hrequired => exact .left hwrite hrequired

end Kinds

/-- A field answers to its own key. -/
theorem answersTo_key (f : Field ρ) : f.answersTo f.key = true := by
  unfold answersTo
  rw [BEq.rfl, Bool.true_or]

end Field

theorem LawfulFields.keeps {P : ρ → Prop} {fs : List (Field ρ)} {before : ρ → ρ}
    (h : LawfulFields P fs before) {f : Field ρ} (hf : f ∈ fs) {v : Json} {update : ρ → ρ} {r : ρ}
    (hv : v.WellFormed) (hread : f.read .value (.ofJson v) = .ok update) (hr : P r) :
    P (update r) := by
  induction h with
  | nil => exact absurd hf List.not_mem_nil
  | cons hlawful _ ih =>
    rcases List.mem_cons.mp hf with rfl | hf
    · exact hlawful.keeps v update r hv hread hr
    · exact ih hf

/-! ## Records -/

namespace Shape

variable {s : Shape ρ} {P : ρ → Prop}

/-- **Reading members keeps the property.** -/
theorem Lawful.readMembers (h : s.Lawful P) {ms : Members} (hms : ∀ m ∈ ms, m.2.WellFormed)
    {r r' : ρ} {seen seen' : List String}
    (hread : s.readMembers .value (Draft.ofMembers ms) r seen = .ok (r', seen')) (hr : P r) :
    P r' := by
  induction ms generalizing r seen with
  | nil =>
    cases hread
    exact hr
  | cons m ms ih =>
    obtain ⟨hm, hms⟩ := List.forall_mem_cons.mp hms
    unfold Draft.ofMembers Shape.readMembers at hread
    cases hfind : s.fields.find? (·.answersTo m.1) with
    | none =>
      rw [hfind] at hread
      obtain ⟨_, -, hread⟩ := bind_eq_ok.mp hread
      exact ih hms hread hr
    | some f =>
      rw [hfind] at hread
      dsimp only at hread
      split at hread
      case isTrue => cases hread
      case isFalse =>
        obtain ⟨update, hupdate, hread⟩ := bind_eq_ok.mp hread
        exact ih hms hread (h.fields.keeps (List.mem_of_find?_eq_some hfind) hm hupdate hr)

/-- **Reading items keeps the property.** -/
theorem Lawful.readItems (h : s.Lawful P) {fs : List (Field ρ)} (hfs : ∀ f ∈ fs, f ∈ s.fields)
    {vs : List Json} (hvs : ∀ v ∈ vs, v.WellFormed) {index : Nat} {r r' : ρ} {spare : List Draft}
    (hread : s.readItems .value true index fs (Draft.ofItems vs) r = .ok (r', spare)) (hr : P r) :
    P r' := by
  induction fs generalizing index vs r with
  | nil =>
    cases hread
    exact hr
  | cons f fs ih =>
    obtain ⟨hf, hfs⟩ := List.forall_mem_cons.mp hfs
    cases vs with
    | nil =>
      unfold Draft.ofItems Shape.readItems at hread
      -- nothing is left to read, and the fields that are missing stay as they are
      rw [if_neg (by decide)] at hread
      split at hread
      case isTrue => cases hread
      case isFalse => exact ih hfs hvs hread hr
    | cons v vs =>
      obtain ⟨hv, hvs⟩ := List.forall_mem_cons.mp hvs
      unfold Draft.ofItems Shape.readItems at hread
      obtain ⟨update, hupdate, hread⟩ := bind_eq_ok.mp hread
      exact ih hfs hvs hread (h.fields.keeps hf hv hupdate hr)

/-- **A record that was read has the property.** -/
theorem Lawful.decode (h : s.Lawful P) {v : Json} (hv : v.WellFormed) {r : ρ}
    (hread : s.decode .value (.ofJson v) = .ok r) : P r := by
  cases v with
  | obj ms =>
    obtain ⟨inner, hinner, hread⟩ := bind_eq_ok.mp hread
    cases hinner
    obtain ⟨⟨r', seen⟩, hms, hread⟩ := bind_eq_ok.mp hread
    obtain ⟨_, -, hread⟩ := bind_eq_ok.mp hread
    split at hread
    case h_1 => cases hread
    case h_2 =>
      cases hread
      exact h.readMembers hv.values hms h.blank
  | arr vs =>
    obtain ⟨inner, hinner, hread⟩ := bind_eq_ok.mp hread
    cases hinner
    obtain ⟨⟨r', spare⟩, hvs, hread⟩ := bind_eq_ok.mp hread
    dsimp only at hread
    split at hread
    case isTrue =>
      cases hread
      exact h.readItems (fun _ hf => hf) hv.items hvs h.blank
    case isFalse => cases hread
  | num n => cases n <;> cases hread
  | _ => cases hread

/-- The members that a record is written as, as far as these fields go. -/
def members (fs : List (Field ρ)) (r : ρ) : Members :=
  fs.filterMap fun f => (f.write r).map fun v => (f.key, v)

theorem members_cons_of_some {f : Field ρ} {r : ρ} {v : Json} (h : f.write r = some v)
    (fs : List (Field ρ)) : members (f :: fs) r = (f.key, v) :: members fs r := by
  unfold members
  rw [List.filterMap_cons, h]
  rfl

theorem members_cons_of_none {f : Field ρ} {r : ρ} (h : f.write r = none) (fs : List (Field ρ)) :
    members (f :: fs) r = members fs r := by
  unfold members
  rw [List.filterMap_cons, h]
  rfl

/-- Members are written in the order of the fields. -/
theorem keys_members_sublist (fs : List (Field ρ)) (r : ρ) :
    ((members fs r).map Prod.fst).Sublist (fs.map Field.key) := by
  induction fs with
  | nil => exact List.Sublist.slnil
  | cons f fs ih =>
    cases hwrite : f.write r with
    | none =>
      rw [members_cons_of_none hwrite]
      exact ih.cons f.key
    | some v =>
      rw [members_cons_of_some hwrite]
      exact ih.cons_cons f.key

/-- Fields before this one have other keys. -/
theorem Lawful.not_answersTo (h : s.Lawful P) {done fs : List (Field ρ)} {f : Field ρ}
    (hsplit : s.fields = done ++ f :: fs) : ∀ g ∈ done, g.answersTo f.key = false := by
  have hkeys := h.keys
  rw [hsplit, List.pairwise_append] at hkeys
  exact fun g hg => hkeys.2.2 g hg f List.mem_cons_self

/-- A field is found by its key. -/
theorem Lawful.find?_answersTo (h : s.Lawful P) {done fs : List (Field ρ)} {f : Field ρ}
    (hsplit : s.fields = done ++ f :: fs) :
    s.fields.find? (·.answersTo f.key) = some f := by
  have hdone : done.find? (·.answersTo f.key) = none := by
    rw [List.find?_eq_none]
    intro g hg
    rw [h.not_answersTo hsplit g hg]
    exact Bool.false_ne_true
  rw [hsplit, List.find?_append, hdone, Option.none_or, List.find?_cons, f.answersTo_key]

/-- **The written members are read back**, field by field. The invariant: the part of the record
before these fields is there, and the keys that came are those of fields before them, with all the
required ones among them. -/
theorem Lawful.readMembers_members (h : s.Lawful P) {r : ρ} (hr : P r) {fs : List (Field ρ)}
    {before : ρ → ρ} (hfields : LawfulFields P fs before) {done : List (Field ρ)}
    (hsplit : s.fields = done ++ fs) {seen : List String}
    (hseen : ∀ k ∈ seen, ∃ f ∈ done, f.key = k)
    (hdone : ∀ f ∈ done, f.required = true → f.key ∈ seen) :
    ∃ all, s.readMembers .value (Draft.ofMembers (members fs r)) (before r) seen = .ok (r, all) ∧
      ∀ f ∈ s.fields, f.required = true → f.key ∈ all := by
  induction hfields generalizing done seen with
  | nil hbefore =>
    rw [List.append_nil] at hsplit
    refine ⟨seen, ?_, hsplit ▸ hdone⟩
    rw [hbefore]
    rfl
  | @cons f fs before after hf _ ih =>
    have hsplit' : s.fields = (done ++ [f]) ++ fs := by
      rw [hsplit, List.append_assoc]
      rfl
    have hrestores := hf.restores r hr
    generalize hafter : after r = next at hrestores
    cases hrestores with
    | left hwrite hrequired =>
      rw [members_cons_of_none hwrite, ← hafter]
      refine ih hsplit' (fun k hk => ?_) fun g hg hgr => ?_
      · obtain ⟨g, hg, hkey⟩ := hseen k hk
        exact ⟨g, List.mem_append_left [f] hg, hkey⟩
      · rcases List.mem_append.mp hg with hg | hg
        · exact hdone g hg hgr
        · rw [List.mem_singleton.mp hg, hrequired] at hgr
          cases hgr
    | @written v update hwrite hv hread =>
      -- a key that came is the key of an earlier field, which does not answer to this one
      have hnew : ¬ seen.contains f.key = true := by
        rw [List.contains_iff_mem]
        intro hmem
        obtain ⟨g, hg, hkey⟩ := hseen f.key hmem
        have hother := h.not_answersTo hsplit g hg
        rw [← hkey, g.answersTo_key] at hother
        cases hother
      have hrest := @ih (done ++ [f]) hsplit' (f.key :: seen)
        (List.forall_mem_cons.mpr ⟨⟨f, by simp, rfl⟩, fun k hk => by
          obtain ⟨g, hg, hkey⟩ := hseen k hk
          exact ⟨g, List.mem_append_left [f] hg, hkey⟩⟩)
        (fun g hg hgr => by
          rcases List.mem_append.mp hg with hg | hg
          · exact List.mem_cons_of_mem f.key (hdone g hg hgr)
          · rw [List.mem_singleton.mp hg]
            exact List.mem_cons_self)
      rw [hafter] at hrest
      obtain ⟨all, hall, hrequired⟩ := hrest
      refine ⟨all, ?_, hrequired⟩
      rw [members_cons_of_some hwrite]
      unfold Draft.ofMembers Shape.readMembers
      rw [h.find?_answersTo hsplit]
      dsimp only
      rw [if_neg hnew, hread]
      exact hall

/-- What is written of a field of a record is well-formed. -/
theorem wellFormed_of_write {fs : List (Field ρ)} {before : ρ → ρ} (h : LawfulFields P fs before)
    {r : ρ} (hr : P r) {f : Field ρ} (hf : f ∈ fs) {v : Json} (hwrite : f.write r = some v) :
    v.WellFormed := by
  induction h with
  | nil => exact absurd hf List.not_mem_nil
  | @cons g fs before after hlawful _ ih =>
    rcases List.mem_cons.mp hf with rfl | hf
    · have hrestores := hlawful.restores r hr
      generalize after r = next at hrestores
      cases hrestores with
      | written hw hv _ =>
        cases hw.symm.trans hwrite
        exact hv
      | left hw _ => cases hw.symm.trans hwrite
    · exact ih hf

/-- The keys of the fields are distinct. -/
theorem Lawful.nodup_keys (h : s.Lawful P) : (s.fields.map Field.key).Nodup := by
  rw [List.nodup_iff_pairwise_ne, List.pairwise_map]
  refine h.keys.imp fun {f g} hfg heq => ?_
  rw [← heq, f.answersTo_key] at hfg
  cases hfg

theorem Lawful.wellFormed (h : s.Lawful P) {r : ρ} (hr : P r) : (s.encode r).WellFormed := by
  refine .obj ?_ fun m hm => ?_
  · exact h.nodup_keys.sublist (keys_members_sublist s.fields r)
  · obtain ⟨f, hf, hm⟩ := List.mem_filterMap.mp hm
    obtain ⟨v, hwrite, rfl⟩ := Option.map_eq_some_iff.mp hm
    exact wellFormed_of_write h.fields hr hf hwrite

/-- **A record with the property is read back** from what it is written as. -/
theorem Lawful.recovers (h : s.Lawful P) {r : ρ} (hr : P r) : s.codec.Recovers r where
  read := by
    obtain ⟨all, hall, hrequired⟩ := h.readMembers_members hr h.fields
      (List.nil_append _).symm (fun k hk => absurd hk List.not_mem_nil)
      fun f hf => absurd hf List.not_mem_nil
    have hmissing : s.firstMissing all = none := by
      unfold firstMissing
      rw [Option.map_eq_none_iff, List.find?_eq_none]
      intro f hf
      cases hfr : f.required with
      | false => simp
      | true => simp [hrequired f hf hfr]
    refine bind_eq_ok.mpr ⟨.value, rfl, bind_eq_ok.mpr ⟨(r, all), hall, ?_⟩⟩
    refine bind_eq_ok.mpr ⟨(), rfl, ?_⟩
    rw [hmissing]
  wellFormed := h.wellFormed hr

/-- A shape that needs to know nothing about its records can be read back at any record. -/
theorem Lawful.total (h : s.Lawful fun _ => True) : s.codec.Total :=
  fun _ => h.recovers trivial

/-- **A shape that can be read back is faithful.** -/
theorem Lawful.faithful (h : s.Lawful P) : s.codec.Faithful :=
  fun _ _ hv hread => h.recovers (h.decode hv hread)

end Shape

end Wire

end Reshape
