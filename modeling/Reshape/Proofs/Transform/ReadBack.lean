/-
# Reshape.Proofs.Transform.ReadBack -- transformations are read back

Each kind of settings can be read back. So a transformation that was read is read again, from its
kind and from the settings that it writes, and they need not be those it was read from: what was
missing is written with its default. A transformation that could not be read is kept as it came, and
then it fails once more for the same reason (`keep_of_keep`).
-/

import Reshape.Proofs.Wire.Record
import Reshape.Transform.Basic

namespace Reshape.Transform

open Wire

/-! ## Settings -/

theorem lookup_operation (o : Operation) : Operation.table.lookup o.name = some o := by
  cases o <;> rfl

theorem lookup_dateUnit (u : DateUnit) : DateUnit.table.lookup u.name = some u := by
  cases u <;> rfl

theorem string_ne_null (s : String) : Codec.string.write s ≠ .null :=
  Json.noConfusion

theorem int64_ne_null (n : Int) : Codec.int64.write n ≠ .null :=
  Json.noConfusion

/-- The start and the length fit into 64 bits. -/
theorem Substring.lawful : Substring.shape.Lawful fun s =>
    Codec.int64.Recovers s.start ∧ ∀ n ∈ s.length, Codec.int64.Recovers n where
  blank := ⟨⟨rfl, .int (by decide) (by decide)⟩, by rintro _ ⟨⟩⟩
  keys := by decide
  fields := by
    refine .cons (Field.lawful_defaulted (Codec.faithful_intIn _ _ _) (fun _ _ ha h => ⟨ha, h.2⟩)
      fun _ h => h.1) ?_
    refine .cons (Field.lawful_maybe (Codec.faithful_intIn _ _ _) int64_ne_null
      (fun _ _ ha h => ⟨h.1, ha⟩) (fun _ h => h.2) fun _ => rfl) ?_
    exact .nil fun _ => rfl

theorem Replace.lawful : Replace.shape.Lawful fun _ => True where
  blank := trivial
  keys := by decide
  fields := by
    refine .cons (Field.lawful_defaulted_of_total Codec.total_string fun _ _ h => h) ?_
    refine .cons (Field.Lawful.orKey
      (Field.lawful_defaulted_of_total Codec.total_string fun _ _ h => h)) ?_
    refine .cons (Field.lawful_defaulted_of_total Codec.total_bool fun _ _ h => h) ?_
    refine .cons (Field.lawful_maybe_of_total Codec.total_string string_ne_null (fun _ _ h => h)
      fun _ => rfl) ?_
    exact .nil fun _ => rfl

theorem Concatenate.lawful : Concatenate.shape.Lawful fun _ => True where
  blank := trivial
  keys := by decide
  fields := by
    refine .cons (Field.lawful_defaulted_of_total Codec.total_string fun _ _ h => h) ?_
    refine .cons (Field.lawful_maybe_of_total Codec.total_string string_ne_null (fun _ _ h => h)
      fun _ => rfl) ?_
    refine .cons (Field.lawful_maybe_of_total Codec.total_string string_ne_null (fun _ _ h => h)
      fun _ => rfl) ?_
    exact .nil fun _ => rfl

theorem Split.lawful : Split.shape.Lawful fun s => Codec.int64.Recovers s.index where
  blank := ⟨rfl, .int (by decide) (by decide)⟩
  keys := by decide
  fields := by
    refine .cons (Field.lawful_defaulted_of_total Codec.total_string fun _ _ h => h) ?_
    refine .cons (Field.lawful_defaulted (Codec.faithful_intIn _ _ _) (fun _ _ ha _ => ha) fun _ h => h) ?_
    exact .nil fun _ => rfl

theorem NumberFormat.lawful : NumberFormat.shape.Lawful fun s => Codec.nat32.Recovers s.decimals where
  blank := ⟨rfl, .int (by decide) (by decide)⟩
  keys := by decide
  fields := by
    refine .cons (Field.lawful_defaulted (Codec.faithful_natUpTo _ _) (fun _ _ ha _ => ha) fun _ h => h) ?_
    refine .cons (Field.lawful_maybe_of_total Codec.total_string string_ne_null (fun _ _ h => h)
      fun _ => rfl) ?_
    refine .cons (Field.lawful_maybe_of_total Codec.total_string string_ne_null (fun _ _ h => h)
      fun _ => rfl) ?_
    refine .cons (Field.lawful_maybe_of_total Codec.total_string string_ne_null (fun _ _ h => h)
      fun _ => rfl) ?_
    exact .nil fun _ => rfl

/-- The right side is finite. -/
theorem Calculate.lawful : Calculate.shape.Lawful fun s => Codec.float.Recovers s.value where
  blank := ⟨rfl, .float rfl⟩
  keys := by decide
  fields := by
    refine .cons (Field.lawful_defaulted_of_total (Codec.total_oneOf lookup_operation)
      fun _ _ h => h) ?_
    refine .cons (Field.lawful_defaulted Codec.faithful_float (fun _ _ ha _ => ha) fun _ h => h) ?_
    exact .nil fun _ => rfl

theorem Round.lawful : Round.shape.Lawful Codec.nat32.Recovers where
  blank := ⟨rfl, .int (by decide) (by decide)⟩
  keys := by decide
  fields := by
    refine .cons (Field.lawful_defaulted (Codec.faithful_natUpTo _ _) (fun _ _ ha _ => ha) fun _ h => h) ?_
    exact .nil fun _ => rfl

theorem DateFormat.lawful : DateFormat.shape.Lawful fun _ => True where
  blank := trivial
  keys := by decide
  fields := by
    refine .cons (Field.lawful_maybe_of_total Codec.total_string string_ne_null (fun _ _ h => h)
      fun _ => rfl) ?_
    refine .cons (Field.lawful_defaulted_of_total Codec.total_string fun _ _ h => h) ?_
    exact .nil fun _ => rfl

theorem DateAdd.lawful : DateAdd.shape.Lawful fun s => Codec.int64.Recovers s.amount where
  blank := ⟨rfl, .int (by decide) (by decide)⟩
  keys := by decide
  fields := by
    refine .cons (Field.lawful_defaulted (Codec.faithful_intIn _ _ _) (fun _ _ ha _ => ha) fun _ h => h) ?_
    refine .cons (Field.lawful_defaulted_of_total (Codec.total_oneOf lookup_dateUnit)
      fun _ _ h => h) ?_
    exact .nil fun _ => rfl

theorem Stringify.lawful : Stringify.shape.Lawful Codec.size.Recovers where
  blank := ⟨rfl, .int (by decide) (by decide)⟩
  keys := by decide
  fields := by
    refine .cons (Field.lawful_defaulted (Codec.faithful_natUpTo _ _) (fun _ _ ha _ => ha) fun _ h => h) ?_
    exact .nil fun _ => rfl

/-- The table and the default are values of documents. A default of null is not a missing one. -/
theorem Lookup.lawful : Lookup.shape.Lawful fun s =>
    Codec.json.Recovers s.table ∧ ∀ v ∈ s.defaultValue, v.WellFormed where
  blank := ⟨Codec.recovers_json .null, by rintro _ ⟨⟩⟩
  keys := by decide
  fields := by
    refine .cons (Field.lawful_defaulted Codec.faithful_json (fun _ _ ha h => ⟨ha, h.2⟩)
      fun _ h => h.1) ?_
    refine .cons (Field.lawful_present (fun _ _ ha h => ⟨h.1, ha⟩) (fun _ h => h.2)
      fun _ => rfl) ?_
    exact .nil fun _ => rfl

theorem Custom.lawful : Custom.shape.Lawful fun _ => True where
  blank := trivial
  keys := by decide
  fields := by
    refine .cons (Field.lawful_defaulted_of_total Codec.total_string fun _ _ h => h) ?_
    exact .nil fun _ => rfl

/-! ## Kinds -/

/-- **A reader of settings that is faithful**: the transformation is of the reader's kind, and what
it writes as its settings, an object, is read as the transformation. -/
def FaithfulReader (kind : String) (read : Json → Except Fault Transform) : Prop :=
  ∀ (config : Json) (t : Transform), config.WellFormed → read config = .ok t →
    t.kind = kind ∧ t.config.WellFormed ∧ t.config.isNull = false ∧ read t.config = .ok t

/-- A kind without settings. -/
theorem faithfulReader_plain {t : Transform} (hconfig : t.config = .obj []) :
    FaithfulReader t.kind fun _ => .ok t := by
  rintro config _ - ⟨⟩
  rw [hconfig]
  exact ⟨rfl, .empty, rfl, rfl⟩

/-- A kind with settings that can be read back. -/
theorem faithfulReader_readSettings {α : Type} {shape : Shape α} {P : α → Prop}
    (h : shape.Lawful P) {kind : String} {make : α → Transform}
    (hkind : ∀ s, (make s).kind = kind) (hconfig : ∀ s, (make s).config = shape.encode s) :
    FaithfulReader kind (readSettings kind shape make) := by
  intro config t hv hread
  unfold readSettings at hread
  split at hread
  case h_2 => cases hread
  case h_1 s hs =>
    cases hread
    obtain ⟨hback, hwell⟩ := h.faithful config s hv hs
    rw [hconfig]
    refine ⟨hkind s, hwell, rfl, ?_⟩
    unfold readSettings
    have hback : shape.ofJson (shape.encode s) = .ok s := hback
    rw [hback]

/-- **Every kind is faithful.** -/
theorem faithfulReader_of_mem :
    ∀ e ∈ readers, FaithfulReader e.1 e.2 := by
  simp only [readers, List.forall_mem_cons]
  refine ⟨?_, ?_, ?_, ?_, ?_, ?_, ?_, ?_, ?_, ?_, ?_, ?_, ?_, ?_, ?_, ?_, ?_, ?_, ?_, ?_⟩
  · exact faithfulReader_plain (t := .uppercase) rfl
  · exact faithfulReader_plain (t := .lowercase) rfl
  · exact faithfulReader_plain (t := .capitalize) rfl
  · exact faithfulReader_plain (t := .trim) rfl
  · exact faithfulReader_readSettings Substring.lawful (fun _ => rfl) fun _ => rfl
  · exact faithfulReader_readSettings Replace.lawful (fun _ => rfl) fun _ => rfl
  · exact faithfulReader_readSettings Concatenate.lawful (fun _ => rfl) fun _ => rfl
  · exact faithfulReader_readSettings Split.lawful (fun _ => rfl) fun _ => rfl
  · exact faithfulReader_readSettings NumberFormat.lawful (fun _ => rfl) fun _ => rfl
  · exact faithfulReader_readSettings Calculate.lawful (fun _ => rfl) fun _ => rfl
  · exact faithfulReader_readSettings Round.lawful (fun _ => rfl) fun _ => rfl
  · exact faithfulReader_plain (t := .ceil) rfl
  · exact faithfulReader_plain (t := .floor) rfl
  · exact faithfulReader_readSettings DateFormat.lawful (fun _ => rfl) fun _ => rfl
  · exact faithfulReader_readSettings DateAdd.lawful (fun _ => rfl) fun _ => rfl
  · exact faithfulReader_plain (t := .parseJson) rfl
  · exact faithfulReader_readSettings Stringify.lawful (fun _ => rfl) fun _ => rfl
  · exact faithfulReader_readSettings Lookup.lawful (fun _ => rfl) fun _ => rfl
  · exact faithfulReader_readSettings Custom.lawful (fun _ => rfl) fun _ => rfl
  · exact fun e he => absurd he List.not_mem_nil

/-- **A transformation that was read is read again** from its kind and its settings. -/
theorem ofParts_of_ofParts {kind : String} {config : Json} {t : Transform}
    (hconfig : config.WellFormed) (h : ofParts kind config = .ok t) :
    t.config.WellFormed ∧ ofParts t.kind t.config = .ok t := by
  unfold ofParts at h
  split at h
  case h_2 => cases h
  case h_1 read hread =>
    -- null stands for no settings, which are well-formed as well
    have hgiven : (if config.isNull then Json.obj [] else config).WellFormed := by
      split
      · exact .empty
      · exact hconfig
    obtain ⟨hkind, hwell, hnull, hback⟩ :=
      faithfulReader_of_mem _ (mem_of_lookup hread) _ t hgiven h
    refine ⟨hwell, ?_⟩
    -- the settings that are written are an object, so nothing stands for them this time
    unfold ofParts
    rw [hkind, hread, hnull]
    exact hback

/-- **A transformation comes back as it is**, whether it could be read or not. One that could not be
read has its kind and its settings as they came, so the same fault is found again. -/
theorem keep_of_keep {kind : String} {config : Json} (hconfig : config.WellFormed) :
    (keep kind config).config.WellFormed ∧
      keep (keep kind config).kind (keep kind config).config = keep kind config := by
  cases h : ofParts kind config with
  | error cause =>
    have hkeep : keep kind config = .undecoded kind config cause := by
      unfold keep
      rw [h]
    rw [hkeep]
    exact ⟨hconfig, hkeep⟩
  | ok t =>
    have hkeep : keep kind config = t := by
      unfold keep
      rw [h]
    obtain ⟨hwell, hback⟩ := ofParts_of_ofParts hconfig h
    rw [hkeep]
    refine ⟨hwell, ?_⟩
    unfold keep
    rw [hback]

end Reshape.Transform
