/-
# Reshape.Proofs.Run.Undecoded -- a transformation that cannot be read disables only itself

Whatever stands in a document for the kind and the settings of a transformation, the plan is read,
and all else in it is read as before (`Plan.ofJson_retypeAt`). When kind and settings cannot be read
the transformation changes nothing. So the plan does what it would do if no rule referred to it
(`Run.run_retypeAt_eq`): neither single values nor the values of an array, conditions and fallbacks
see any difference. The ids of transformations have to be distinct for this, as a rule takes the
last transformation with an id.
-/

import Reshape.Proofs.Plan.Integrity
import Reshape.Proofs.Plan.ReadBack
import Reshape.Proofs.Run.Agreement
import Reshape.Proofs.Run.TransformId
import Reshape.Proofs.Wire.Parts

namespace Reshape

open Wire

/-! ## Another kind for a transformation -/

namespace Plan

/-- The transformations of a plan. -/
def transformsPart : Part shape (List NamedTransform) where
  field := .defaulted "transformations" (.list NamedTransform.codec) (·.transforms)
    (fun v r => { r with transforms := v })
  position := 3
  codec := .list NamedTransform.codec
  get := (·.transforms)
  set := fun v r => { r with transforms := v }
  fields_position := rfl
  other_eq := rfl
  read_eq := fun _ => rfl
  get_set := fun _ _ => rfl
  set_get := fun _ => rfl
  set_set := fun _ _ _ => rfl
  spares := by
    simp only [shape, List.forall_mem_cons]
    exact ⟨fun _ => Field.spares_defaulted fun _ _ _ => rfl,
      fun _ => Field.spares_defaulted fun _ _ _ => rfl,
      fun _ => Field.spares_defaulted fun _ _ _ => rfl,
      fun hkey => absurd rfl hkey,
      fun _ => Field.spares_maybe fun _ _ _ => rfl,
      fun _ hf => absurd hf List.not_mem_nil⟩

/-- The kind of a transformation as it is written. -/
def kindPart : Part WrittenTransform.shape String where
  field := .needed "type" .string (·.kind) (fun v r => { r with kind := v })
  position := 2
  codec := .string
  get := (·.kind)
  set := fun v r => { r with kind := v }
  fields_position := rfl
  other_eq := rfl
  read_eq := fun _ => rfl
  get_set := fun _ _ => rfl
  set_get := fun _ => rfl
  set_set := fun _ _ _ => rfl
  spares := by
    simp only [WrittenTransform.shape, List.forall_mem_cons]
    exact ⟨fun _ => Field.spares_needed fun _ _ _ => rfl,
      fun _ => Field.spares_defaulted fun _ _ _ => rfl,
      fun hkey => absurd rfl hkey,
      fun _ => Field.spares_defaulted fun _ _ _ => rfl,
      fun _ hf => absurd hf List.not_mem_nil⟩

/-- The settings of a transformation as it is written. -/
def configPart : Part WrittenTransform.shape Json where
  field := .defaulted "config" .json (·.config) (fun v r => { r with config := v })
  position := 3
  codec := .json
  get := (·.config)
  set := fun v r => { r with config := v }
  fields_position := rfl
  other_eq := rfl
  read_eq := fun _ => rfl
  get_set := fun _ _ => rfl
  set_get := fun _ => rfl
  set_set := fun _ _ _ => rfl
  spares := by
    simp only [WrittenTransform.shape, List.forall_mem_cons]
    exact ⟨fun _ => Field.spares_needed fun _ _ _ => rfl,
      fun _ => Field.spares_defaulted fun _ _ _ => rfl,
      fun _ => Field.spares_needed fun _ _ _ => rfl,
      fun hkey => absurd rfl hkey,
      fun _ hf => absurd hf List.not_mem_nil⟩

/-- Another kind and other settings in the place of those of a transformation. -/
def retype (kind : String) (config : Json) (entry : Json) : Json :=
  configPart.replace config (kindPart.replace (.str kind) entry)

/-- **Another kind and other settings** for the transformation at a position of a plan. -/
def retypeAt (i : Nat) (kind : String) (config : Json) (value : Json) : Json :=
  match transformsPart.value? value with
  | some (.arr entries) =>
    transformsPart.replace (.arr (entries.modify i (retype kind config))) value
  | _ => value

variable {p : Plan} {i : Nat} {t : NamedTransform} {kind : String} {config value entry : Json}

/-- There is room for settings where there is a kind, which comes before them. -/
theorem hasRoom_configPart {w : WrittenTransform}
    (h : WrittenTransform.shape.ofJson entry = .ok w) : configPart.HasRoom entry := by
  obtain ⟨x, hx⟩ := kindPart.exists_value?_of_required WrittenTransform.lawful h rfl
  cases entry with
  | arr vs => exact (List.getElem?_eq_some_iff.mp (show vs[2]? = some x from hx)).1
  | _ => exact trivial

/-- **A transformation is read with whatever kind and settings.** Its id and its name stay. -/
theorem read_retype (h : NamedTransform.codec.read .value (.ofJson entry) = .ok t)
    (kind : String) (hconfig : config.WellFormed) :
    NamedTransform.codec.read .value (.ofJson (retype kind config entry)) =
      .ok { t with transform := .keep kind config } := by
  obtain ⟨w, hw, rfl⟩ := map_eq_ok.mp h
  have hentry : WrittenTransform.shape.ofJson entry = .ok w := hw
  obtain ⟨x, hx⟩ := kindPart.exists_value?_of_required WrittenTransform.lawful hentry rfl
  have hkind : WrittenTransform.shape.ofJson (kindPart.replace (.str kind) entry) =
      .ok { w with kind := kind } :=
    kindPart.ofJson_replace WrittenTransform.lawful hentry (Part.hasRoom_of_value?_eq_some hx) rfl
  have hboth : WrittenTransform.shape.ofJson (retype kind config entry) =
      .ok { w with kind := kind, config := config } :=
    configPart.ofJson_replace WrittenTransform.lawful hkind (hasRoom_configPart hkind)
      (toJson_ofJson hconfig)
  exact map_eq_ok.mpr ⟨_, hboth, rfl⟩

/-- An entry that is an array has its kind and its settings at the end. -/
example : retype "tax" .null (.arr [.str "a", .str "", .str "trim"]) =
    .arr [.str "a", .str "", .str "tax", .null] := rfl

/-- An item of one list is changed as the item of another list that it goes with. -/
theorem forall₂_modify {α β : Type} {R : α → β → Prop} {xs : List α} {ys : List β}
    {change : α → α} {change' : β → β} (h : List.Forall₂ R xs ys)
    (hchange : ∀ x y, R x y → R (change x) (change' y)) (i : Nat) :
    List.Forall₂ R (xs.modify i change) (ys.modify i change') := by
  induction h generalizing i with
  | nil => simp
  | cons hxy hrest ih =>
    cases i with
    | zero => exact .cons (hchange _ _ hxy) hrest
    | succ i => exact .cons hxy (ih i)

/-- **The plan with another transformation** at a position, under the id and the name that are
there. -/
def withTransformAt (p : Plan) (i : Nat) (transform : Transform) : Plan :=
  { p with transforms := p.transforms.modify i fun t => { t with transform := transform } }

/-- **A plan is read with whatever kind and settings of a transformation.** All else stays. -/
theorem ofJson_retypeAt (h : shape.ofJson value = .ok p) (i : Nat) (kind : String)
    (hconfig : config.WellFormed) :
    shape.ofJson (retypeAt i kind config value) =
      .ok (p.withTransformAt i (.keep kind config)) := by
  rcases transformsPart.read_value? lawful h with ⟨x, hx, hread⟩ | ⟨hx, hblank⟩
  · obtain ⟨entries, rfl, hentries⟩ := Codec.read_list_eq_ok_iff.mp hread
    have hretyped := forall₂_modify hentries
      (fun entry t hentry => read_retype hentry kind hconfig) i
    have hvalue : retypeAt i kind config value =
        transformsPart.replace (.arr (entries.modify i (retype kind config))) value := by
      unfold retypeAt
      rw [hx]
    rw [hvalue]
    exact transformsPart.ofJson_replace lawful h (Part.hasRoom_of_value?_eq_some hx)
      (Codec.read_list_eq_ok_iff.mpr ⟨_, rfl, hretyped⟩)
  -- without transformations there is nothing to change
  · have hnone : p.transforms = [] := hblank
    have hsame : p.withTransformAt i (.keep kind config) = p := by
      unfold withTransformAt
      rw [hnone, List.modify_nil, ← hnone]
    have hvalue : retypeAt i kind config value = value := by
      unfold retypeAt
      rw [hx]
    rw [hsame, hvalue]
    exact h

/-- Another transformation goes by the same id. -/
theorem transformIds_withTransformAt (p : Plan) (i : Nat) (transform : Transform) :
    (p.withTransformAt i transform).transformIds = p.transformIds := by
  apply List.ext_getElem?
  intro k
  show ((p.transforms.modify i _).map _)[k]? = (p.transforms.map _)[k]?
  rw [List.getElem?_map, List.getElem?_map, List.getElem?_modify]
  cases p.transforms[k]? with
  | none => rfl
  | some t =>
    by_cases hk : i = k <;> simp [hk]

/-! ## Rules that no longer refer to a transformation -/

/-- The rule without its transformation, if it is the one with this id. -/
def Rule.detached (id : String) (r : Rule) : Rule :=
  if r.transformId = some id then { r with transformId := none } else r

/-- **The plan in which no rule refers to the transformation** with an id. -/
def detached (p : Plan) (id : String) : Plan :=
  { p with rules := p.rules.map (Rule.detached id) }

/-- Among distinct ids the last transformation with an id is the one with it. -/
theorem lastTransform?_eq_some (hids : p.transformIds.Nodup) (ht : t ∈ p.transforms) :
    p.lastTransform? t.id = some t := by
  cases hlast : p.lastTransform? t.id with
  | none =>
    have hne := List.find?_eq_none.mp hlast t (List.mem_reverse.mpr ht)
    exact absurd (beq_self_eq_true t.id) hne
  | some u =>
    obtain ⟨hu, hid⟩ := mem_of_lastTransform? hlast
    rw [List.inj_on_of_nodup_map hids hu ht hid]

end Plan

/-! ## Runs -/

namespace Run

variable {p : Plan} {r : Plan.Rule} {id : String}

/-- **An id stands for a transformation that changes nothing.** -/
def Idle (p : Plan) (id : String) : Prop :=
  ∀ value, Plan.effect (p.lastTransform? id) value = value

/-- A rule does the same without a transformation that changes nothing. -/
theorem runRule_detached {c : Context} (h : Idle c.plan id) (record : Json) (index : Option Nat)
    (out : Json) : runRule c record index out (r.detached id) = runRule c record index out r := by
  unfold Plan.Rule.detached
  split
  case isFalse => rfl
  case isTrue hid =>
    have htransformed :
        transformed c.plan { r with transformId := none } = transformed c.plan r := by
      rw [transformed_eq_effect hid]
      funext value
      exact (h value).symm
    have houtcome : ∀ item, outcome c.plan { r with transformId := none } item =
        outcome c.plan r item := by
      intro item
      unfold outcome
      rw [found_eq_resolvedWith, found_eq_resolvedWith, htransformed]
      rfl
    have hinput : input c { r with transformId := none } record index = input c r record index :=
      rfl
    have htarget : target { r with transformId := none } = target r := rfl
    simp only [runRule, hinput, houtcome, htarget]

/-- A plan agrees with the plan in which no rule refers to a transformation that changes nothing. -/
theorem agrees_detached (h : Idle p id) (primaryId : Option String)
    (others : List (String × Json)) :
    Agrees ⟨p, primaryId, others⟩ ⟨p.detached id, primaryId, others⟩ where
  selection := rfl
  template := rfl
  envelope := rfl
  rules := by
    show List.Forall₂ _ p.rules (p.rules.map (Plan.Rule.detached id))
    rw [List.forall₂_map_right_iff, List.forall₂_same]
    intro r _ record index out
    exact (runRule_detached (c := ⟨p, primaryId, others⟩) h record index out).symm

/-- What cannot be read changes nothing. -/
theorem apply_keep_of_error {kind : String} {config : Json} {cause : Transform.Fault}
    (h : Transform.ofParts kind config = .error cause) (value : Json) :
    (Transform.keep kind config).apply value = value := by
  have hkeep : Transform.keep kind config = .undecoded kind config cause := by
    unfold Transform.keep
    rw [h]
  rw [hkeep]
  rfl

/-- **A transformation that cannot be read disables only itself.** Let a plan whose transformations
have distinct ids be read from a document. With any other kind and settings of one of them a plan is
read, too, and differs in this transformation only. If these cannot be read as a transformation,
then every document, and all documents together, give the result that they give when no rule refers
to it. -/
theorem run_retypeAt_eq {value config : Json} {i : Nat} {t : Plan.NamedTransform}
    (hread : Plan.shape.ofJson value = .ok p) (hids : p.transformIds.Nodup)
    (ht : p.transforms[i]? = some t) (kind : String) (hconfig : config.WellFormed) :
    ∃ q, Plan.shape.ofJson (Plan.retypeAt i kind config value) = .ok q ∧
      q = p.withTransformAt i (.keep kind config) ∧
      ∀ cause, Transform.ofParts kind config = .error cause → ∀ o now,
        (∀ document, run q o now document = run (q.detached t.id) o now document) ∧
          ∀ documents, runMany q o now documents = runMany (q.detached t.id) o now documents := by
  refine ⟨_, Plan.ofJson_retypeAt hread i kind hconfig, rfl, ?_⟩
  intro cause hcause o now
  have hidle : Idle (p.withTransformAt i (.keep kind config)) t.id := by
    have hmem : { t with transform := .keep kind config } ∈
        (p.withTransformAt i (.keep kind config)).transforms := by
      apply List.mem_of_getElem? (i := i)
      show (p.transforms.modify i _)[i]? = _
      rw [List.getElem?_modify, ht]
      simp
    have hlast := Plan.lastTransform?_eq_some
      ((Plan.transformIds_withTransformAt p i (.keep kind config)).symm ▸ hids) hmem
    intro value
    show Plan.effect (Plan.lastTransform? _ t.id) value = value
    rw [hlast]
    exact apply_keep_of_error hcause value
  exact Agrees.run_eq (agrees_detached hidle) rfl o now

/-- A plan that rounds a price and trims a name. -/
def priceDocument : Json :=
  .obj
    [("fieldMappings", .arr
        [.obj
          [("id", .str "price"), ("sourcePath", .str "price"), ("targetPath", .str "price"),
            ("transformId", .str "cents")],
        .obj
          [("id", .str "name"), ("sourcePath", .str "name"), ("targetPath", .str "name"),
            ("transformId", .str "clean")]]),
      ("transformations", .arr
        [.obj
          [("id", .str "cents"), ("type", .str "round"),
            ("config", .obj [("decimals", Json.nat 2)])],
        .obj [("id", .str "clean"), ("type", .str "trim")]])]

/-- When the number of decimals is no number, the price is mapped as if nobody wanted it rounded. -/
theorem run_retypeAt_eq_price :
    ∃ p t q, Plan.shape.ofJson priceDocument = .ok p ∧ p.transformIds.Nodup ∧
      p.transforms[0]? = some t ∧ t.id = "cents" ∧
      (Json.obj [("decimals", .str "two")]).WellFormed ∧
      Plan.shape.ofJson
        (Plan.retypeAt 0 "round" (.obj [("decimals", .str "two")]) priceDocument) = .ok q ∧
      (∃ cause, Transform.ofParts "round" (.obj [("decimals", .str "two")]) = .error cause) ∧
      (∀ document, run q {} default document = run (q.detached "cents") {} default document) ∧
        ∀ documents, runMany q {} default documents =
          runMany (q.detached "cents") {} default documents := by
  have hconfig : (Json.obj [("decimals", .str "two")]).WellFormed := by simp [Members.keys]
  obtain ⟨q, hq, -, hsame⟩ := @run_retypeAt_eq _ priceDocument (.obj [("decimals", .str "two")]) 0
    _ rfl (by decide) rfl "round" hconfig
  exact ⟨_, _, q, rfl, by decide, rfl, rfl, hconfig, hq, ⟨_, rfl⟩, hsame _ rfl {} default⟩

end Run

end Reshape
