/-
# Reshape.Proofs.Plan.ReadBack -- plans are read back

A plan that was read from a value is read again from the value that it is written as, and it is the
same plan (`ofJson_encode_of_ofJson`). The value may be another one: members that no field knows are
gone, defaults are written out, a list of members that came as an array goes out as an object. But
nothing is lost of the plan. What is missing stays missing and a null stays a null wherever the two
differ, and a transformation that could not be read stays as it was, with its fault.

The argument follows the shapes. What is not free to take any value says so in the property of its
record: values from the document are well-formed, and positions are in the order of their fields.
-/

import Reshape.Plan.Basic
import Reshape.Proofs.Plan.Indices
import Reshape.Proofs.Transform.ReadBack

namespace Reshape.Plan

open Wire Transform

/-! ## Sources and templates -/

theorem total_rootKind : RootKind.codec.Total :=
  Codec.total_oneOf fun kind => by cases kind <;> rfl

theorem total_mergeMode : MergeMode.codec.Total :=
  Codec.total_oneOf fun mode => by cases mode <;> rfl

theorem total_fieldType : FieldType.codec.Total :=
  Codec.total_oneOf fun type => by cases type <;> rfl

theorem Source.lawful : Source.shape.Lawful fun _ => True where
  blank := trivial
  keys := by decide
  fields := by
    refine .cons (Field.lawful_needed_of_total Codec.total_string fun _ _ h => h) ?_
    refine .cons (Field.lawful_needed_of_total Codec.total_string fun _ _ h => h) ?_
    refine .cons (Field.lawful_defaulted_of_total total_rootKind fun _ _ h => h) ?_
    refine .cons (Field.lawful_maybe_of_total Codec.total_string string_ne_null (fun _ _ h => h)
      fun _ => rfl) ?_
    refine .cons (Field.lawful_defaulted_of_total Codec.total_string fun _ _ h => h) ?_
    exact .nil fun _ => rfl

theorem Selection.lawful : Selection.shape.Lawful fun _ => True where
  blank := trivial
  keys := by decide
  fields := by
    refine .cons (Field.lawful_defaulted_of_total total_rootKind fun _ _ h => h) ?_
    refine .cons (Field.lawful_defaulted_of_total Source.lawful.total.list fun _ _ h => h) ?_
    refine .cons (Field.lawful_maybe_of_total Codec.total_string string_ne_null (fun _ _ h => h)
      fun _ => rfl) ?_
    refine .cons (Field.lawful_defaulted_of_total total_mergeMode fun _ _ h => h) ?_
    refine .cons (Field.lawful_defaulted_of_total Codec.total_bool fun _ _ h => h) ?_
    exact .nil fun _ => rfl

/-- The default is a value of a document. A default of null is not a missing one. -/
theorem OutputField.lawful :
    OutputField.shape.Lawful fun f => ∀ v ∈ f.defaultValue, v.WellFormed where
  blank := by rintro _ ⟨⟩
  keys := by decide
  fields := by
    refine .cons (Field.lawful_needed_of_total Codec.total_string fun _ _ h => h) ?_
    refine .cons (Field.lawful_defaulted_of_total total_fieldType fun _ _ h => h) ?_
    refine .cons (Field.lawful_flag (fun _ _ h => h) fun _ => rfl) ?_
    refine .cons (Field.lawful_present (fun _ _ hv _ => hv) (fun _ h => h) fun _ => rfl) ?_
    refine .cons (Field.lawful_maybe_of_total Codec.total_string string_ne_null (fun _ _ h => h)
      fun _ => rfl) ?_
    exact .nil fun _ => rfl

theorem Template.lawful :
    Template.shape.Lawful fun t => (Codec.list OutputField.shape.codec).Recovers t.fields where
  blank := Codec.recovers_list fun f hf => absurd hf List.not_mem_nil
  keys := by decide
  fields := by
    refine .cons (Field.lawful_defaulted (Codec.faithful_list OutputField.lawful.faithful)
      (fun _ _ hfields _ => hfields) fun _ h => h) ?_
    exact .nil fun _ => rfl

/-! ## Positions -/

namespace Indices

theorem sorted_of_readMembers {ms : Members} (hms : ∀ m ∈ ms, m.2.WellFormed) {is js : Indices}
    (h : readMembers .value (Draft.ofMembers ms) is = .ok js) (his : is.Sorted)
    (hsizes : ∀ e ∈ is, Codec.size.Recovers e.2) :
    js.Sorted ∧ ∀ e ∈ js, Codec.size.Recovers e.2 := by
  induction ms generalizing is with
  | nil =>
    cases h
    exact ⟨his, hsizes⟩
  | cons m ms ih =>
    obtain ⟨hm, hms⟩ := List.forall_mem_cons.mp hms
    unfold Draft.ofMembers readMembers at h
    obtain ⟨n, hn, h⟩ := bind_eq_ok.mp h
    refine ih hms h (his.insert m.1 n) fun e he => ?_
    rcases mem_insert he with rfl | he
    · exact Codec.faithful_natUpTo _ _ m.2 n hm hn
    · exact hsizes e he

/-- Positions in order are read back one behind the other. -/
theorem readMembers_write {is before : Indices} (h : Sorted (before ++ is))
    (hsizes : ∀ e ∈ is, Codec.size.Recovers e.2) :
    readMembers .value (Draft.ofMembers (is.map fun e => (e.1, Json.nat e.2))) before =
      .ok (before ++ is) := by
  induction is generalizing before with
  | nil =>
    rw [List.append_nil]
    rfl
  | cons e is ih =>
    obtain ⟨he, his⟩ := List.forall_mem_cons.mp hsizes
    have hlast : ∀ d ∈ before, d.1 < e.1 :=
      fun d hd => (List.pairwise_append.mp h).2.2 d hd e List.mem_cons_self
    have hread : Codec.size.read .value (.ofJson (Json.nat e.2)) = .ok e.2 := he.read
    rw [List.map_cons]
    unfold Draft.ofMembers readMembers
    rw [hread]
    -- every field before this one is smaller, so its position is put at the end
    show readMembers .value (Draft.ofMembers _) (before.insert e.1 e.2) = _
    have hassoc : before ++ e :: is = (before ++ [e]) ++ is := by simp
    rw [insert_concat hlast, hassoc]
    exact ih (hassoc ▸ h) his

theorem recovers {is : Indices} (h : is.Sorted) (hsizes : ∀ e ∈ is, Codec.size.Recovers e.2) :
    codec.Recovers is where
  read := by
    show (do
      let is ← readMembers .value
        (Draft.ofMembers (is.map fun e : String × Nat => (e.1, Json.nat e.2))) []
      _) = _
    rw [@readMembers_write is [] h hsizes]
    rfl
  wellFormed := by
    refine .obj ?_ (List.forall_mem_map.mpr fun e he => (hsizes e he).wellFormed)
    rw [Members.keys, List.map_map, List.nodup_iff_pairwise_ne, List.pairwise_map]
    refine List.Pairwise.imp (fun {a b} hab heq => ?_) h
    have hfields : a.1 = b.1 := heq
    exact String.lt_irrefl b.1 (hfields ▸ hab)

theorem faithful : codec.Faithful := by
  intro v is hv h
  cases v with
  | obj ms =>
    obtain ⟨inner, hinner, h⟩ := bind_eq_ok.mp h
    cases hinner
    obtain ⟨js, hjs, h⟩ := bind_eq_ok.mp h
    cases h
    obtain ⟨hsorted, hsizes⟩ := sorted_of_readMembers hv.values hjs sorted_nil
      fun e he => absurd he List.not_mem_nil
    exact recovers hsorted hsizes
  | num n => cases n <;> cases h
  | _ => cases h

end Indices

/-! ## Rules -/

theorem total_comparison : Comparison.codec.Total :=
  Codec.total_oneOf fun comparison => by cases comparison <;> rfl

theorem total_pinMode : PinMode.codec.Total :=
  Codec.total_oneOf fun mode => by cases mode <;> rfl

/-- The values of the condition are values of a document. -/
theorem Condition.lawful : Condition.shape.Lawful fun c =>
    (∀ v ∈ c.value, v.WellFormed) ∧ Codec.json.Recovers c.positive ∧
      ∀ v ∈ c.negative, v.WellFormed where
  blank := ⟨by rintro _ ⟨⟩, Codec.recovers_json .null, by rintro _ ⟨⟩⟩
  keys := by decide
  fields := by
    refine .cons (Field.lawful_needed_of_total Codec.total_string fun _ _ h => h) ?_
    refine .cons (Field.lawful_needed_of_total total_comparison fun _ _ h => h) ?_
    refine .cons (Field.lawful_present (fun _ _ hv h => ⟨hv, h.2⟩) (fun _ h => h.1)
      fun _ => rfl) ?_
    refine .cons (Field.lawful_defaulted Codec.faithful_json (fun _ _ hv h => ⟨h.1, hv, h.2.2⟩)
      fun _ h => h.2.1) ?_
    refine .cons (Field.lawful_present (fun _ _ hv h => ⟨h.1, h.2.1, hv⟩) (fun _ h => h.2.2)
      fun _ => rfl) ?_
    exact .nil fun _ => rfl

theorem Pins.lawful : Pins.shape.Lawful fun p => Indices.codec.Recovers p.indices where
  blank := Indices.recovers Indices.sorted_nil fun e he => absurd he List.not_mem_nil
  keys := by decide
  fields := by
    refine .cons (Field.lawful_needed_of_total Codec.total_string.list fun _ _ h => h) ?_
    refine .cons (Field.lawful_defaulted Indices.faithful (fun _ _ his _ => his) fun _ h => h) ?_
    refine .cons (Field.lawful_needed_of_total Codec.total_string fun _ _ h => h) ?_
    refine .cons (Field.lawful_needed_of_total total_pinMode fun _ _ h => h) ?_
    exact .nil fun _ => rfl

theorem Rule.lawful : Rule.shape.Lawful fun r =>
    (∀ v ∈ r.fallback, v.WellFormed) ∧ (∀ c ∈ r.condition, Condition.shape.codec.Recovers c) ∧
      ∀ p ∈ r.pins, Pins.shape.codec.Recovers p where
  blank := ⟨by rintro _ ⟨⟩, by rintro _ ⟨⟩, by rintro _ ⟨⟩⟩
  keys := by decide
  fields := by
    refine .cons (Field.lawful_needed_of_total Codec.total_string fun _ _ h => h) ?_
    refine .cons (Field.lawful_needed_of_total Codec.total_string fun _ _ h => h) ?_
    refine .cons (Field.lawful_needed_of_total Codec.total_string fun _ _ h => h) ?_
    refine .cons (Field.lawful_maybe_of_total Codec.total_string string_ne_null (fun _ _ h => h)
      fun _ => rfl) ?_
    refine .cons (Field.lawful_maybe_of_total Codec.total_string string_ne_null (fun _ _ h => h)
      fun _ => rfl) ?_
    refine .cons (Field.lawful_present (fun _ _ hv h => ⟨hv, h.2⟩) (fun _ h => h.1)
      fun _ => rfl) ?_
    refine .cons (Field.lawful_maybe Condition.lawful.faithful (fun _ => Json.noConfusion)
      (fun _ _ hc h => ⟨h.1, hc, h.2.2⟩) (fun _ h => h.2.1) fun _ => rfl) ?_
    refine .cons (Field.lawful_maybe Pins.lawful.faithful (fun _ => Json.noConfusion)
      (fun _ _ hp h => ⟨h.1, h.2.1, hp⟩) (fun _ h => h.2.2) fun _ => rfl) ?_
    exact .nil fun _ => rfl

/-! ## Transformations and envelopes -/

theorem WrittenTransform.lawful :
    WrittenTransform.shape.Lawful fun w => Codec.json.Recovers w.config where
  blank := Codec.recovers_json .null
  keys := by decide
  fields := by
    refine .cons (Field.lawful_needed_of_total Codec.total_string fun _ _ h => h) ?_
    refine .cons (Field.lawful_defaulted_of_total Codec.total_string fun _ _ h => h) ?_
    refine .cons (Field.lawful_needed_of_total Codec.total_string fun _ _ h => h) ?_
    refine .cons (Field.lawful_defaulted Codec.faithful_json (fun _ _ hv _ => hv) fun _ h => h) ?_
    exact .nil fun _ => rfl

/-- **A named transformation comes back as it is**, whether it could be read or not. -/
theorem NamedTransform.faithful : NamedTransform.codec.Faithful := by
  intro v t hv h
  obtain ⟨w, hw, rfl⟩ := map_eq_ok.mp h
  have hconfig : w.config.WellFormed := (WrittenTransform.lawful.decode hv hw).wellFormed
  obtain ⟨hwell, hkeep⟩ := @keep_of_keep w.kind _ hconfig
  obtain ⟨hback, hwritten⟩ := WrittenTransform.lawful.recovers
    (r := (ofWritten w).toWritten) (Codec.recovers_json hwell)
  refine ⟨map_eq_ok.mpr ⟨_, hback, ?_⟩, hwritten⟩
  exact congrArg (NamedTransform.mk w.id w.name) hkeep

theorem MetadataFields.lawful : MetadataFields.shape.Lawful fun _ => True where
  blank := trivial
  keys := by decide
  fields := by
    refine .cons (Field.lawful_defaulted_of_total Codec.total_bool fun _ _ h => h) ?_
    refine .cons (Field.lawful_defaulted_of_total Codec.total_bool fun _ _ h => h) ?_
    refine .cons (Field.lawful_defaulted_of_total Codec.total_bool fun _ _ h => h) ?_
    refine .cons (Field.lawful_defaulted_of_total Codec.total_bool fun _ _ h => h) ?_
    exact .nil fun _ => rfl

theorem Envelope.lawful : Envelope.shape.Lawful fun e => Codec.members.Recovers e.custom where
  blank := Codec.recovers_members .empty
  keys := by decide
  fields := by
    refine .cons (Field.lawful_defaulted_of_total Codec.total_bool fun _ _ h => h) ?_
    refine .cons (Field.lawful_defaulted_of_total Codec.total_string fun _ _ h => h) ?_
    refine .cons (Field.lawful_defaulted_of_total Codec.total_bool fun _ _ h => h) ?_
    refine .cons (Field.lawful_defaulted_of_total MetadataFields.lawful.total fun _ _ h => h) ?_
    refine .cons (Field.lawful_defaulted Codec.faithful_members (fun _ _ hms _ => hms)
      fun _ h => h) ?_
    exact .nil fun _ => rfl

/-! ## Plans -/

/-- The parts of a plan can be read back. -/
structure Recoverable (p : Plan) : Prop where
  template : Template.shape.codec.Recovers p.template
  rules : (Codec.list Rule.shape.codec).Recovers p.rules
  transforms : (Codec.list NamedTransform.codec).Recovers p.transforms
  envelope : ∀ e ∈ p.envelope, Envelope.shape.codec.Recovers e

theorem lawful : shape.Lawful Recoverable where
  blank :=
    { template := Template.lawful.recovers Template.lawful.blank
      rules := Codec.recovers_list fun r hr => absurd hr List.not_mem_nil
      transforms := Codec.recovers_list fun t ht => absurd ht List.not_mem_nil
      envelope := by rintro _ ⟨⟩ }
  keys := by decide
  fields := by
    refine .cons (Field.lawful_defaulted_of_total Selection.lawful.total fun _ _ h => ?_) ?_
    · exact { h with }
    refine .cons (Field.lawful_defaulted Template.lawful.faithful
      (fun _ _ ht h => { h with template := ht }) fun _ h => h.template) ?_
    refine .cons (Field.lawful_defaulted (Codec.faithful_list Rule.lawful.faithful)
      (fun _ _ hrs h => { h with rules := hrs }) fun _ h => h.rules) ?_
    refine .cons (Field.lawful_defaulted (Codec.faithful_list NamedTransform.faithful)
      (fun _ _ hts h => { h with transforms := hts }) fun _ h => h.transforms) ?_
    refine .cons (Field.lawful_maybe Envelope.lawful.faithful (fun _ => Json.noConfusion)
      (fun _ _ he h => { h with envelope := he }) (fun _ h => h.envelope) fun _ => rfl) ?_
    exact .nil fun _ => rfl

/-- **A plan that was read from a value is read again from the value that it is written as**, and
that value is one that a document can hold. -/
theorem ofJson_encode_of_ofJson {v : Json} {p : Plan} (hv : v.WellFormed)
    (h : shape.ofJson v = .ok p) :
    shape.ofJson (shape.encode p) = .ok p ∧ (shape.encode p).WellFormed := by
  obtain ⟨hread, hwritten⟩ := lawful.faithful v p hv h
  exact ⟨hread, hwritten⟩

/-- A plan with a null for a fallback, nothing to compare with, settings under an old key, and two
transformations that cannot be read. -/
def stockDocument : Json :=
  .obj
    [("fieldMappings", .arr
        [.obj
          [("id", .str "stock"), ("sourcePath", .str "stock[*]"), ("targetPath", .str "left"),
            ("transformId", .str "dash"), ("fallbackValue", .null),
            ("conditional", .obj
              [("when", .str "stock"), ("operator", .str "exists"), ("then", Json.nat 1),
                ("else", .null)]),
            ("arrayIndexConfig", .obj
              [("fields", .strings ["stock"]), ("templatePath", .str "stock[*]"),
                ("indices", .obj [("stock", Json.nat 2), ("aisle", Json.nat 0)]),
                ("mappingMode", .str "index")])]]),
      ("transformations", .arr
        [.obj
          [("id", .str "dash"), ("type", .str "replace"),
            ("config", .obj [("find", .str "/"), ("replace", .str "-")])],
          .obj
            [("id", .str "price"), ("type", .str "lookup"),
              ("config", .obj [("lookupTable", .obj [("a", Json.nat 5)]), ("defaultValue", .null)])],
          .obj [("id", .str "vat"), ("type", .str "tax"), ("config", .null)],
          .obj
            [("id", .str "part"), ("type", .str "substring"),
              ("config", .obj [("start", .str "one")])]]),
      ("author", .str "nobody")]

/-- The plan for the stock is read again from what it is written as. -/
theorem ofJson_encode_of_ofJson_stockDocument :
    stockDocument.WellFormed ∧ ∃ p, shape.ofJson stockDocument = .ok p ∧
      p.transforms.map (·.transform.isUndecoded) = [false, false, true, true] ∧
        shape.ofJson (shape.encode p) = .ok p ∧ (shape.encode p).WellFormed := by
  have hwell : stockDocument.WellFormed := by
    simp [stockDocument, Members.keys, Json.strings, Json.nat, Decimal.twoTo]
  exact ⟨hwell, _, rfl, rfl, ofJson_encode_of_ofJson hwell rfl⟩

end Reshape.Plan
