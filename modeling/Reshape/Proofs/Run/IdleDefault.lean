/-
# Reshape.Proofs.Run.IdleDefault -- defaults of fields that a rule wrote

A default is filled in at the path of its field if nothing is there. So the default of a field that
the last rule wrote should make no difference, and it makes none as long as two things hold
(`runRecord_withoutDefault`). The rule writes to the path of the field as it is: one that strips its
target writes elsewhere, and then nothing is found at the path with the wildcards. And no default
that comes before takes the value away: writing goes on where reading stops, and a default that
comes to an array by no position puts an object in its place. That can only happen on the way of a
path that goes through an array, that is, one with a segment that spells a position; any other field
that was mapped as it is does without its default (`runRecord_withoutDefault_of_names`).
-/

import Reshape.Proofs.Path.Occupied
import Reshape.Proofs.Run.Defaults
import Reshape.Proofs.Run.Written

namespace Reshape

/-- The plan without the default of the field at a position of the template. -/
def Plan.withoutDefault (p : Plan) (k : Nat) : Plan :=
  { p with template :=
    { p.template with
      fields := p.template.fields.modify k fun f => { f with defaultValue := none } } }

namespace Run

variable {c : Context} {r : Plan.Rule} {f : Plan.OutputField} {record value out : Json}
variable {index : Option Nat} {keys : List (List Char)} {k : Nat}

/-- The context without the default of the field at a position of the template. -/
def Context.withoutDefault (c : Context) (k : Nat) : Context :=
  { c with plan := c.plan.withoutDefault k }

/-! ## Filling in -/

/-- **A default runs into no array on the way of the keys**, if it is filled in at all. -/
def KeepsOccupied (keys : List (List Char)) (out : Json) (f : Plan.OutputField) : Prop :=
  f.defaultValue.isSome → Path.valid f.path = true → (out.get? f.path).isNone →
    ¬ Json.RunsInto (Path.written f.path) keys out

/-- A default is not filled in where something is found. -/
theorem fillDefault_of_isSome (h : (out.get? f.path).isSome = true) : fillDefault out f = out := by
  rcases fillDefault_cases out f with heq | ⟨written, -, -, hnone, -⟩
  · exact heq
  · rw [hnone] at h
    cases h

/-- **One default leaves something at the place.** -/
theorem occupied_fillDefault (hf : KeepsOccupied keys out f) (h : Json.Occupied keys out) :
    Json.Occupied keys (fillDefault out f) := by
  rcases fillDefault_cases out f with heq | ⟨written, hdefault, hvalid, hnone, heq⟩
  · rw [heq]
    exact h
  · have hruns := hf (by rw [hdefault]; rfl) hvalid (by rw [hnone]; rfl)
    rw [Json.get?_eq_follow?] at hnone
    rw [heq]
    exact (Json.occupied_put_iff h hnone written).mpr hruns

/-- Where keys spell no position, no default runs into an array. -/
theorem inTurn_keepsOccupied (hkeys : ∀ key ∈ keys, Decimal.unsigned? key = none)
    (h : Json.Occupied keys out) (fields : List Plan.OutputField) :
    InTurn fillDefault (KeepsOccupied keys) out fields := by
  refine inTurn_of_invariant (fun _ _ => occupied_fillDefault) ?_ h fields
  rintro out f ⟨value, hvalue⟩ _ _ _
  exact hvalue.not_runsInto hkeys

/-! ## Records -/

/-- The rules do not look at the template. -/
theorem runRule_withoutDefault (c : Context) (k : Nat) :
    runRule (c.withoutDefault k) = runRule c := rfl

/-- The last rule leaves its value where it writes to. -/
theorem occupied_of_last_rule {rules : List Plan.Rule} (hrules : c.plan.rules = rules ++ [r])
    (hvalue : contribution c record index r = some value)
    (hvalid : Path.valid (target r) = true) :
    Json.Occupied (Path.written (target r))
      (c.plan.rules.foldl (runRule c record index) (.obj [])) := by
  rw [hrules, List.foldl_append, List.foldl_cons, List.foldl_nil, runRule_of_contribution hvalue,
    Json.set_of_valid _ _ hvalid]
  exact ⟨value, Json.leads_put_self _ value _⟩

/-- **A default that finds something at its turn** makes no difference. -/
theorem runRecord_withoutDefault_of_isSome {o : Options} (hf : c.plan.template.fields[k]? = some f)
    (h : (((c.plan.template.fields.take k).foldl fillDefault
      (c.plan.rules.foldl (runRule c record index) (.obj []))).get? f.path).isSome = true) :
    runRecord (c.withoutDefault k) o record index = runRecord c o record index := by
  obtain ⟨hk, rfl⟩ := List.getElem?_eq_some_iff.mp hf
  have hfields : c.plan.template.fields = c.plan.template.fields.take k ++
      c.plan.template.fields[k] :: c.plan.template.fields.drop (k + 1) := by
    rw [← List.drop_eq_getElem_cons hk, List.take_append_drop]
  have hfields' : (c.withoutDefault k).plan.template.fields = c.plan.template.fields.take k ++
      { c.plan.template.fields[k] with defaultValue := none } ::
        c.plan.template.fields.drop (k + 1) := List.modify_eq_take_cons_drop hk
  -- the templates differ in the one field, at whose turn the output is the same for both
  cases hdefaults : o.templateDefaults with
  | false =>
    simp only [runRecord, hdefaults, runRule_withoutDefault]
    rfl
  | true =>
    simp only [runRecord, hdefaults, runRule_withoutDefault, if_true]
    rw [hfields']
    conv_rhs => rw [hfields]
    rw [List.foldl_append, List.foldl_cons, List.foldl_append, List.foldl_cons,
      fillDefault_of_isSome h]
    rfl

/-- The default of a field that the last rule writes to as it is makes no difference if no default
before it runs into an array on the way. -/
theorem runRecord_withoutDefault_of_inTurn {o : Options} {rules : List Plan.Rule}
    (hf : c.plan.template.fields[k]? = some f) (hvalid : Path.valid f.path = true)
    (hrules : c.plan.rules = rules ++ [r]) (hpath : target r = f.path)
    (hvalue : contribution c record index r = some value)
    (hturns : Json.Occupied (Path.written f.path)
        (c.plan.rules.foldl (runRule c record index) (.obj [])) →
      InTurn fillDefault (KeepsOccupied (Path.written f.path))
        (c.plan.rules.foldl (runRule c record index) (.obj []))
        (c.plan.template.fields.take k)) :
    runRecord (c.withoutDefault k) o record index = runRecord c o record index := by
  have hoccupied := occupied_of_last_rule hrules hvalue (hpath ▸ hvalid)
  rw [hpath] at hoccupied
  apply runRecord_withoutDefault_of_isSome hf
  apply Json.Occupied.get?
  exact (hturns hoccupied).foldl (fun _ _ => occupied_fillDefault) hoccupied

/-- **The default of a field that was mapped.** When the last rule has the path of a field for its
target and a value to write, the default of the field makes no difference to the output of the
record, provided that the rule does not strip its target and that no default before it runs into an
array on the way. The latter is asked only of a path with a segment that spells a position. -/
theorem runRecord_withoutDefault {o : Options} {rules : List Plan.Rule}
    (hf : c.plan.template.fields[k]? = some f) (hvalid : Path.valid f.path = true)
    (hrules : c.plan.rules = rules ++ [r]) (htarget : r.targetPath = f.path)
    (hvalue : contribution c record index r = some value) (hstrips : ¬ Strips r)
    (hbefore : (∃ key ∈ Path.written f.path, Decimal.unsigned? key ≠ none) →
      InTurn fillDefault (KeepsOccupied (Path.written f.path))
        (c.plan.rules.foldl (runRule c record index) (.obj []))
        (c.plan.template.fields.take k)) :
    runRecord (c.withoutDefault k) o record index = runRecord c o record index := by
  have hpath : target r = f.path := (target_of_not_strips hstrips).trans htarget
  refine runRecord_withoutDefault_of_inTurn hf hvalid hrules hpath hvalue fun hoccupied => ?_
  -- a path without positions leads through objects only, whatever the defaults before it do
  by_cases hpositions : ∃ key ∈ Path.written f.path, Decimal.unsigned? key ≠ none
  · exact hbefore hpositions
  · push Not at hpositions
    exact inTurn_keepsOccupied hpositions hoccupied _

/-- **The default of a field that was mapped, when its path spells no position**: it makes no
difference, whatever defaults come before it. -/
theorem runRecord_withoutDefault_of_names {o : Options} {rules : List Plan.Rule}
    (hf : c.plan.template.fields[k]? = some f) (hvalid : Path.valid f.path = true)
    (hnames : ∀ key ∈ Path.written f.path, Decimal.unsigned? key = none)
    (hrules : c.plan.rules = rules ++ [r]) (htarget : r.targetPath = f.path)
    (hvalue : contribution c record index r = some value) (hstrips : ¬ Strips r) :
    runRecord (c.withoutDefault k) o record index = runRecord c o record index := by
  have hpath : target r = f.path := (target_of_not_strips hstrips).trans htarget
  exact runRecord_withoutDefault_of_inTurn hf hvalid hrules hpath hvalue fun hoccupied =>
    inTurn_keepsOccupied hnames hoccupied _

/-- The rules that copy a list and then write to its first item, and two fields by default: one that
is given, and the one of that item. -/
def itemContext (earlier : String) : Context where
  plan :=
    { selection := { sources := [{ id := "s" }], primaryPath := some "" }
      template :=
        { fields :=
            [{ path := earlier, defaultValue := some (.bool false) },
              { path := "items.0.note", defaultValue := some (.str "none") }] }
      rules :=
        [{ id := "items", sourcePath := "items", targetPath := "items" },
          { id := "note", sourcePath := "note", targetPath := "items.0.note" }] }
  primaryId := some "s"
  others := []

/-- A list with one item, and a note for it. -/
def itemRecord : Json :=
  .obj [("items", .arr [.obj [("name", .str "Ada")]]), ("note", .str "first")]

/-- The default of the note makes no difference after one that enters the same item, as the position
of the item leads on into the list. It makes one after a default that finds no position there. -/
theorem runRecord_withoutDefault_items :
    runRecord ((itemContext "items.0.seen").withoutDefault 1) {} itemRecord none =
        runRecord (itemContext "items.0.seen") {} itemRecord none ∧
      runRecord ((itemContext "items.total").withoutDefault 1) {} itemRecord none ≠
        runRecord (itemContext "items.total") {} itemRecord none := by
  constructor
  · have hturn : KeepsOccupied (Path.written "items.0.note")
        (.obj [("items", .arr [.obj [("name", .str "Ada"), ("note", .str "first")]])])
        { path := "items.0.seen", defaultValue := some (.bool false) } := by
      intro _ _ _ hruns
      cases hruns with
      | member hitems hlist =>
        cases hitems
        cases hlist with
        | array hlost => exact absurd hlost (by decide)
        | element hposition _ hitem hrest =>
          cases hposition
          cases hitem
          cases hrest
    exact @runRecord_withoutDefault (itemContext "items.0.seen")
      { id := "note", sourcePath := "note", targetPath := "items.0.note" }
      { path := "items.0.note", defaultValue := some (.str "none") } itemRecord (.str "first") none 1
      {} [{ id := "items", sourcePath := "items", targetPath := "items" }] rfl (by decide) rfl rfl
      rfl (by decide) fun _ => ⟨hturn, trivial⟩
  · intro heq
    have hnote := congrArg (·.get? "items.0.note") heq
    cases hnote

/-- A field for tags with a default, and the rule that collects them. -/
def tagContext : Context where
  plan :=
    { selection := { sources := [{ id := "s" }], primaryPath := some "" }
      template := { fields := [{ path := "tags[*]", defaultValue := some (.str "none") }] }
      rules := [{ id := "tags", sourcePath := "tags[*]", targetPath := "tags[*]" }] }
  primaryId := some "s"
  others := []

/-- **The default of a field that was mapped can make a difference**: the tags are at `tags`, so
nothing is found at `tags[*]`, and the default is filled in beside them. -/
theorem not_forall_runRecord_withoutDefault :
    ¬ ∀ (c : Context) (o : Options) (k : Nat) (f : Plan.OutputField) (rules : List Plan.Rule)
      (r : Plan.Rule) (record value : Json) (index : Option Nat),
      c.plan.template.fields[k]? = some f → f.defaultValue.isSome → Path.valid f.path = true →
      c.plan.rules = rules ++ [r] → r.targetPath = f.path →
      contribution c record index r = some value → o.templateDefaults = true →
      runRecord (c.withoutDefault k) o record index = runRecord c o record index := by
  intro h
  have hsame := h tagContext {} 0 _ [] _ (.obj [("tags", .arr [.str "a", .str "b"])]) _ none rfl rfl
    (by decide) rfl rfl rfl rfl
  have hdefault := congrArg (·.get? "tags[*]") hsame
  cases hdefault

end Run

end Reshape
