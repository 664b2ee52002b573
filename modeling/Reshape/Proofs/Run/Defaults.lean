/-
# Reshape.Proofs.Run.Defaults -- what filling in defaults keeps

A default is filled in at a path where nothing is found. That alone does not keep it from what rules
have written: reading stops at a text or a number, while writing goes on below it, and an element of
an array that was written as a whole is entered by its position. `not_forall_run_defaults_keep` has
the smallest such case.

What holds is `get?_run_of_defaults_apart`: a value survives the defaults of the template when the
path of each default that is filled in parts from its own in the output at that time. For one
default that condition is exact (`Json.get?_set_eq_some_iff_apart`). A path that spells no position
leads through objects only, and then it is enough to look at the paths: no field below it has a
default (`get?_run_of_no_default_below`).
-/

import Reshape.Proofs.Path.Place
import Reshape.Run.Basic

namespace Reshape.Run

/-- **A default keeps away from the place of `keys`**: it is not filled in, or its path parts from
the keys in the output so far. -/
def KeepsAway (keys : List (List Char)) (out : Json) (f : Plan.OutputField) : Prop :=
  f.defaultValue.isSome → Path.valid f.path = true → (out.get? f.path).isNone →
    Json.Apart (Path.written f.path) keys out

/-- **Each default keeps away** when its turn comes. -/
def AllKeepAway (keys : List (List Char)) : Json → List Plan.OutputField → Prop
  | _, [] => True
  | out, f :: fields => KeepsAway keys out f ∧ AllKeepAway keys (fillDefault out f) fields

/-! ## Filling in -/

/-- **What filling in a default can do**: nothing, or put the default where nothing is found. -/
theorem fillDefault_cases (out : Json) (f : Plan.OutputField) :
    fillDefault out f = out ∨
      ∃ value, f.defaultValue = some value ∧ Path.valid f.path = true ∧ out.get? f.path = none ∧
        fillDefault out f = Json.put value (Path.written f.path) out := by
  rw [fillDefault]
  split
  case h_1 value hdefault =>
    split
    case isTrue hnone =>
      cases hvalid : Path.valid f.path with
      | false => exact .inl (Json.set_of_not_valid out value hvalid)
      | true =>
        rw [Option.isNone_iff_eq_none] at hnone
        exact .inr ⟨value, hdefault, rfl, hnone, Json.set_of_valid out value hvalid⟩
    case isFalse => exact .inl rfl
  case h_2 => exact .inl rfl

/-- **One default keeps the place.** -/
theorem leads_fillDefault {keys : List (List Char)} {value out : Json} {f : Plan.OutputField}
    (hf : KeepsAway keys out f) (h : Json.Leads value keys out) :
    Json.Leads value keys (fillDefault out f) := by
  rcases fillDefault_cases out f with heq | ⟨written, hdefault, hvalid, hnone, heq⟩
  · rw [heq]
    exact h
  · have hapart := hf (by rw [hdefault]; rfl) hvalid (by rw [hnone]; rfl)
    rw [heq]
    exact h.put_of_apart hapart written

/-- **All defaults keep the place.** -/
theorem leads_foldl_fillDefault {keys : List (List Char)} {value : Json}
    {fields : List Plan.OutputField} {out : Json} (hfields : AllKeepAway keys out fields)
    (h : Json.Leads value keys out) : Json.Leads value keys (fields.foldl fillDefault out) := by
  induction fields generalizing out with
  | nil => exact h
  | cons f fields ih =>
    rw [List.foldl_cons]
    exact ih hfields.2 (leads_fillDefault hfields.1 h)

/-- **On the way of keys that spell no number**, a default that is for no place below the keys keeps
away from them: it is not filled in along their way, where something is found, and parts from them
otherwise. -/
theorem keepsAway_of_leads {keys : List (List Char)} {value out : Json} {f : Plan.OutputField}
    (hkeys : ∀ k ∈ keys, Decimal.unsigned? k = none) (h : Json.Leads value keys out)
    (hf : f.defaultValue.isSome → keys <+: Path.written f.path → Path.written f.path = keys) :
    KeepsAway keys out f := by
  intro hdefault _ hnone
  rw [Option.isNone_iff_eq_none, Json.get?_eq_follow?] at hnone
  refine h.apart_of_follow?_eq_none hkeys (fun hbelow => ?_) hnone
  rw [hf hdefault hbelow, h.follow?] at hnone
  cases hnone

theorem allKeepAway_of_leads {keys : List (List Char)} {value out : Json}
    {fields : List Plan.OutputField} (hkeys : ∀ k ∈ keys, Decimal.unsigned? k = none)
    (hfields : ∀ f ∈ fields, f.defaultValue.isSome → keys <+: Path.written f.path →
      Path.written f.path = keys)
    (h : Json.Leads value keys out) : AllKeepAway keys out fields := by
  induction fields generalizing out with
  | nil => exact trivial
  | cons f fields ih =>
    obtain ⟨hf, hfields⟩ := List.forall_mem_cons.mp hfields
    have haway : KeepsAway keys out f := keepsAway_of_leads hkeys h hf
    exact ⟨haway, ih hfields (leads_fillDefault haway h)⟩

/-! ## Runs -/

/-- Without an envelope the result of an object is the output of its one record. -/
theorem run_of_object {p : Plan} (hkind : p.selection.kind = .object)
    (henvelope : ∀ e, p.envelope = some e → e.enabled = false) (o : Options)
    (now : Calendar.Instant) (document : Json) :
    run p o now document =
      runRecord ⟨p, p.selection.primary?.map (·.id), []⟩ o (recordsOf p document) none := by
  rw [run, runIn_of_not_enabled henvelope, payload_of_object hkind]

/-- The defaults of the template are filled into what the rules have written. -/
theorem runRecord_defaults (c : Context) (o : Options) (record : Json) (index : Option Nat) :
    runRecord c { o with templateDefaults := true } record index =
      c.plan.template.fields.foldl fillDefault
        (runRecord c { o with templateDefaults := false } record index) :=
  rfl

/-- Without an envelope a value stays at a path without brackets if all defaults keep away from it,
which they may do on account of the value that is there. -/
theorem get?_run_of_allKeepAway {p : Plan} {o : Options} {now : Calendar.Instant}
    {document value : Json} {path : String} (hkind : p.selection.kind = .object)
    (henvelope : ∀ e, p.envelope = some e → e.enabled = false) (hpath : Path.BracketFree path)
    (hvalue : (run p { o with templateDefaults := false } now document).get? path = some value)
    (hfields : Json.Leads value (Path.written path)
        (run p { o with templateDefaults := false } now document) →
      AllKeepAway (Path.written path)
        (run p { o with templateDefaults := false } now document) p.template.fields) :
    (run p { o with templateDefaults := true } now document).get? path = some value := by
  have hkeys : ∀ k ∈ Path.written path, '[' ∉ k := fun k hk => hpath.not_mem hk
  rw [Json.get?_eq_follow?] at hvalue ⊢
  have hleads := Json.leads_of_follow? hkeys hvalue
  have haway := hfields hleads
  rw [run_of_object hkind henvelope] at hleads haway ⊢
  rw [runRecord_defaults]
  exact (leads_foldl_fillDefault haway hleads).follow?

/-- **What defaults keep.** For an object without an envelope: what the rules alone put at a path
without brackets is there after the defaults of the template are filled in, if every default, at its
turn, keeps away from that path. -/
theorem get?_run_of_defaults_apart {p : Plan} {o : Options} {now : Calendar.Instant}
    {document value : Json} {path : String} (hkind : p.selection.kind = .object)
    (henvelope : ∀ e, p.envelope = some e → e.enabled = false) (hpath : Path.BracketFree path)
    (hvalue : (run p { o with templateDefaults := false } now document).get? path = some value)
    (hfields : AllKeepAway (Path.written path)
      (run p { o with templateDefaults := false } now document) p.template.fields) :
    (run p { o with templateDefaults := true } now document).get? path = some value :=
  get?_run_of_allKeepAway hkind henvelope hpath hvalue fun _ => hfields

/-- **What defaults keep, whatever the output is**: what the rules alone put at a path that spells no
position is there after the defaults are filled in, if no field below that path has a default. -/
theorem get?_run_of_no_default_below {p : Plan} {o : Options} {now : Calendar.Instant}
    {document value : Json} {path : String} (hkind : p.selection.kind = .object)
    (henvelope : ∀ e, p.envelope = some e → e.enabled = false) (hpath : Path.BracketFree path)
    (hnames : ∀ k ∈ Path.written path, Decimal.unsigned? k = none)
    (hfields : ∀ f ∈ p.template.fields, f.defaultValue.isSome →
      Path.written path <+: Path.written f.path → Path.written f.path = Path.written path)
    (hvalue : (run p { o with templateDefaults := false } now document).get? path = some value) :
    (run p { o with templateDefaults := true } now document).get? path = some value := by
  apply get?_run_of_allKeepAway hkind henvelope hpath hvalue
  intro hleads
  exact allKeepAway_of_leads hnames hfields hleads

/-- A plan that copies a list and gives its items a note by default. -/
def notedPlan (fields : List Plan.OutputField) : Plan where
  selection := { sources := [{ id := "s", name := "S" }], primaryPath := some "" }
  template := { fields := fields }
  rules := [{ id := "m", sourcePath := "items", targetPath := "items" }]

/-- Two items, the second one without a note. -/
def notedDocument : Json :=
  .obj [("items", .arr [.obj [("a", Json.nat 1)], .obj [("a", Json.nat 2)]])]

/-- The list as a whole has a neighbour by default, and its second item a note. -/
def notedFields : List Plan.OutputField :=
  [{ path := "meta.kind", defaultValue := some (.str "list") },
    { path := "items.1.note", defaultValue := some (.str "none") }]

/-- The first item keeps its number: one default parts from it in the root, the other one at the
second item. -/
theorem get?_run_of_defaults_apart_noted :
    (run (notedPlan notedFields) {} default notedDocument).get? "items.0.a" =
      some (Json.nat 1) := by
  have hfields : AllKeepAway (Path.written "items.0.a")
      (run (notedPlan notedFields) { templateDefaults := false } default notedDocument)
      notedFields := by
    refine ⟨?_, ?_, trivial⟩
    · intro _ _ _
      exact .members (by decide)
    · intro _ _ _
      exact .member rfl (.elements (List.cons_ne_nil _ _) rfl rfl Nat.one_ne_zero)
  exact @get?_run_of_defaults_apart (notedPlan notedFields) {} default notedDocument (Json.nat 1)
    "items.0.a" rfl (fun e he => by cases he) (by simp [Path.BracketFree]) rfl hfields

/-- **Defaults do change what rules wrote**: an item of a copied list gets the field that the
template declares for it, so the list is no longer the one that was copied. -/
theorem not_forall_run_defaults_keep :
    ¬ ∀ (p : Plan) (o : Options) (now : Calendar.Instant) (document value : Json) (path : String),
      p.selection.kind = .object → (∀ e, p.envelope = some e → e.enabled = false) →
      path ≠ "" → Path.BracketFree path → (∀ ms, value ≠ .obj ms) →
      (run p { o with templateDefaults := false } now document).get? path = some value →
      (run p { o with templateDefaults := true } now document).get? path = some value := by
  intro h
  have hkept := h
    (notedPlan [{ path := "items.0.note", defaultValue := some (.str "none") }]) {} default
    notedDocument (.arr [.obj [("a", Json.nat 1)], .obj [("a", Json.nat 2)]]) "items" rfl
    (fun e he => by cases he) (by decide) (by simp [Path.BracketFree]) (fun ms hms => by cases hms)
    rfl
  have hchanged :
      (run (notedPlan [{ path := "items.0.note", defaultValue := some (.str "none") }]) {} default
        notedDocument).get? "items" =
      some (.arr [.obj [("a", Json.nat 1), ("note", .str "none")], .obj [("a", Json.nat 2)]]) := rfl
  cases hchanged.symm.trans hkept

end Reshape.Run
