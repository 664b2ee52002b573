/-
# Reshape.Proofs.Run.TransformId -- what the id of a transformation means

An id is looked up in three places. A plan takes the first transformation with it, and so does the
command line, which looks it up in the plan. A run takes the last one. Nothing keeps a plan from
having several transformations with one id, so the places mean the same exactly when the first and
the last one change every value alike (`contribution_eq_resolvedWith_iff`). Ids that are given once
only, or to transformations that are the same, do so (`Plan.MeansOne.of_alike`).
-/

import Reshape.Command.Perform
import Reshape.Proofs.Except
import Reshape.Proofs.Run.LastWrite

namespace Reshape

namespace Plan

variable {p : Plan} {id : String}

/-! ## The first and the last one -/

/-- The last transformation with an id. -/
def lastTransform? (p : Plan) (id : String) : Option NamedTransform :=
  p.transforms.reverse.find? fun t => t.id == id

/-- What looking up a transformation comes to: a change of values, which is none at all when there
is no transformation. -/
def effect (t : Option NamedTransform) (value : Json) : Json :=
  match t with
  | some t => t.transform.apply value
  | none => value

/-- **An id means one change of values**, whether the first or the last transformation with it
counts. -/
def MeansOne (p : Plan) (id : String) : Prop :=
  ∀ value, effect (p.findTransform? id) value = effect (p.lastTransform? id) value

/-- There is a first one when there is a last one. -/
theorem findTransform?_eq_none_iff : p.findTransform? id = none ↔ p.lastTransform? id = none := by
  rw [findTransform?, lastTransform?, List.find?_eq_none, List.find?_eq_none]
  simp only [List.mem_reverse]

theorem mem_of_findTransform? {t : NamedTransform} (h : p.findTransform? id = some t) :
    t ∈ p.transforms ∧ t.id = id :=
  ⟨List.mem_of_find?_eq_some h, by simpa using List.find?_some h⟩

theorem mem_of_lastTransform? {t : NamedTransform} (h : p.lastTransform? id = some t) :
    t ∈ p.transforms ∧ t.id = id :=
  ⟨List.mem_reverse.mp (List.mem_of_find?_eq_some h), by simpa using List.find?_some h⟩

/-- An id means one change of values when all transformations with it are the same. -/
theorem MeansOne.of_alike (h : ∀ t ∈ p.transforms, ∀ u ∈ p.transforms, t.id = id → u.id = id →
    t.transform = u.transform) : MeansOne p id := by
  intro value
  cases hlast : p.lastTransform? id with
  | none => rw [findTransform?_eq_none_iff.mpr hlast]
  | some u =>
    cases hfirst : p.findTransform? id with
    | none => cases hlast.symm.trans (findTransform?_eq_none_iff.mp hfirst)
    | some t =>
      obtain ⟨ht, htid⟩ := mem_of_findTransform? hfirst
      obtain ⟨hu, huid⟩ := mem_of_lastTransform? hlast
      show t.transform.apply value = u.transform.apply value
      rw [h t ht u hu htid huid]

end Plan

namespace Command

/-- **Trying a transformation on the command line** gives a value exactly when the plan has a
transformation with the id and this one does not fail; the value is what it makes of the value
given. -/
theorem produce_transform_eq_ok_iff {w : World} {p : Plan} {file id text : String} {value : Json}
    {product : Product} (hplan : readPlan w file = .ok p)
    (hvalue : Wire.Text.parse text = .ok value) :
    produce w (.transform file id text) = .ok product ↔
      ∃ t result, p.findTransform? id = some t ∧ t.transform.tryApply value = .ok result ∧
        product = { value := result } := by
  rw [produce, hplan, ok_bind]
  cases p.findTransform? id with
  | none =>
    constructor
    · intro h
      cases h
    · rintro ⟨_, _, h, -⟩
      cases h
  | some t =>
    have hparse : ∀ f : Wire.Flaw → String,
        (Wire.Text.parse text).mapError f = .ok value := fun f => mapError_eq_ok.mpr hvalue
    dsimp only
    rw [hparse, ok_bind]
    constructor
    · intro h
      obtain ⟨result, htry, hproduct⟩ := bind_eq_ok.mp h
      cases hproduct
      exact ⟨t, result, rfl, mapError_eq_ok.mp htry, rfl⟩
    · rintro ⟨_, result, ⟨⟩, htry, rfl⟩
      exact bind_eq_ok.mpr ⟨result, mapError_eq_ok.mpr htry, rfl⟩

end Command

namespace Run

variable {p : Plan} {r : Plan.Rule} {id : String}

/-- **What a rule resolves to in an item, changed**: the one value, or each value of an array. -/
def resolvedWith (change : Json → Json) (r : Plan.Rule) (item : Option Json) : Option Json :=
  match expansion? r with
  | some path =>
    match item.map fun i => i.getAll path with
    | none | some [] => none
    | some values => some (.arr (values.map change))
  | none => (item.bind fun i => i.get? r.sourcePath).map change

/-- A rule changes values by the last transformation with its id. -/
theorem transformed_eq_effect (hid : r.transformId = some id) :
    transformed p r = Plan.effect (p.lastTransform? id) := by
  funext value
  have hlookup : transformOf p r = p.lastTransform? id := by
    rw [transformOf, hid]
    rfl
  rw [transformed, hlookup]
  cases p.lastTransform? id <;> rfl

theorem found_eq_resolvedWith (p : Plan) (r : Plan.Rule) (item : Option Json) :
    found p r item = resolvedWith (transformed p r) r item := by
  rw [found, resolvedWith]
  cases expansion? r with
  | none => rfl
  | some path =>
    cases item with
    | none => rfl
    | some i => cases hvalues : i.getAll path <;> simp [hvalues]

/-- **A rule without a condition and a fallback** writes what it resolves to, changed by the last
transformation with its id. -/
theorem contribution_eq_resolvedWith_last {c : Context} {record : Json} {index : Option Nat}
    {item : Option Json} (hid : r.transformId = some id) (hcondition : r.condition = none)
    (hfallback : r.fallback = none) (hinput : input c r record index = .item item) :
    contribution c record index r =
      resolvedWith (Plan.effect (c.plan.lastTransform? id)) r item := by
  have hkept : ∀ value, orFallback none value = value := fun value => ite_self value
  rw [← transformed_eq_effect hid, ← found_eq_resolvedWith, contribution, hinput]
  show outcome c.plan r item = _
  rw [outcome, hcondition, hfallback]
  exact hkept _

/-- A rule that takes the whole item, and changes it by the transformations with an id. -/
def wholeRule (id : String) : Plan.Rule :=
  { id := "whole", targetPath := "value", transformId := some id }

theorem resolvedWith_wholeRule (change : Json → Json) (id : String) (item : Json) :
    resolvedWith change (wholeRule id) (some item) = some (change item) := by
  have hnone : expansion? (wholeRule id) = none := by
    show (if Path.hasWildcard "" then some "" else none) = none
    decide
  rw [resolvedWith, hnone]
  show (item.get? "").map change = _
  rw [Json.get?, if_pos rfl]
  rfl

/-- **Exactly when an id means the same to a run and to its plan.** Take rules with the id that have
neither a condition nor a fallback. What they write is what they resolve to, changed by the
transformation that the plan finds by the id, or as it is when the plan finds none, for all rules
and all items they can have, if and only if the first and the last transformation with the id change
every value alike. The command line, when it gives a value, always gives the one that the
transformation found by the plan makes. -/
theorem contribution_eq_resolvedWith_iff (c : Context) (id : String) :
    ((∀ (r : Plan.Rule) (record : Json) (index : Option Nat) (item : Option Json),
        r.transformId = some id → r.condition = none → r.fallback = none →
        input c r record index = .item item →
        contribution c record index r =
          resolvedWith (Plan.effect (c.plan.findTransform? id)) r item) ↔
      c.plan.MeansOne id) ∧
    ∀ (w : Command.World) (file text : String) (value : Json) (product : Command.Product),
      Command.readPlan w file = .ok c.plan → Wire.Text.parse text = .ok value →
      Command.produce w (.transform file id text) = .ok product →
      product.value = Plan.effect (c.plan.findTransform? id) value := by
  refine ⟨⟨fun h value => ?_, fun hone r record index item hid hcondition hfallback hinput => ?_⟩,
    fun w file text value product hplan hvalue hproduct => ?_⟩
  · -- the rule for whole items meets every value
    have hfirst := h (wholeRule id) value none (some value) rfl rfl rfl rfl
    rw [@contribution_eq_resolvedWith_last (wholeRule id) id c value none (some value) rfl rfl rfl
      rfl, resolvedWith_wholeRule, resolvedWith_wholeRule] at hfirst
    exact (Option.some.inj hfirst).symm
  · rw [contribution_eq_resolvedWith_last hid hcondition hfallback hinput]
    congr 1
    exact (funext hone).symm
  · obtain ⟨t, result, hfind, htry, rfl⟩ :=
      (Command.produce_transform_eq_ok_iff hplan hvalue).mp hproduct
    rw [hfind]
    show result = t.transform.apply value
    rw [Transform.apply, htry]

/-- The rule for a name. -/
def nameRule : Plan.Rule :=
  { id := "m", sourcePath := "name", targetPath := "name", transformId := some "t" }

/-- A plan in which an id is given twice for the same. -/
def alikePlan : Plan where
  rules := [nameRule]
  transforms :=
    [⟨"t", "First name", .substring { length := some 3 }⟩,
      ⟨"u", "Last name", .substring { start := 4 }⟩,
      ⟨"t", "Given name", .substring { length := some 3 }⟩]

/-- The id means one change, which is that of the first transformation. -/
theorem contribution_eq_resolvedWith_iff_alike :
    alikePlan.MeansOne "t" ∧
      contribution ⟨alikePlan, none, []⟩ (.obj [("name", .str "Ada Lovelace")]) none nameRule =
        some (.str "Ada") := by
  have hone : alikePlan.MeansOne "t" := by
    apply Plan.MeansOne.of_alike
    simp [alikePlan]
  refine ⟨hone, ?_⟩
  rw [(contribution_eq_resolvedWith_iff ⟨alikePlan, none, []⟩ "t").1.mpr hone nameRule _ none
    (some (.obj [("name", .str "Ada Lovelace")])) rfl rfl rfl rfl]
  rfl

/-- A plan document in which an id is given twice, for a first name and for a last one. -/
def twiceDocument : Json :=
  .obj
    [("sourceSelection", .obj [("sources", .arr [.obj [("id", .str "s"), ("name", .str "S")]]),
        ("primaryPath", .str "")]),
      ("fieldMappings", .arr [.obj [("id", .str "m"), ("sourcePath", .str "name"),
        ("targetPath", .str "name"), ("transformId", .str "t")]]),
      ("transformations", .arr
        [.obj [("id", .str "t"), ("type", .str "substring"),
            ("config", .obj [("length", Json.nat 3)])],
          .obj [("id", .str "t"), ("type", .str "substring"),
            ("config", .obj [("start", Json.nat 4)])]])]

/-- The plan in the document. -/
def twicePlan : Plan where
  selection := { sources := [{ id := "s", name := "S" }], primaryPath := some "" }
  rules := [nameRule]
  transforms := [⟨"t", "", .substring { length := some 3 }⟩, ⟨"t", "", .substring { start := 4 }⟩]

/-- **An id can mean different things** to a run and to its plan. -/
theorem not_forall_contribution_eq_resolvedWith :
    ¬ ∀ (document : Json) (p : Plan) (r : Plan.Rule) (id : String) (record : Json)
      (index : Option Nat) (item : Option Json), Plan.shape.ofJson document = .ok p → r ∈ p.rules →
      r.transformId = some id → r.condition = none → r.fallback = none →
      input ⟨p, p.selection.primary?.map (·.id), []⟩ r record index = .item item →
      contribution ⟨p, p.selection.primary?.map (·.id), []⟩ record index r =
        resolvedWith (Plan.effect (p.findTransform? id)) r item := by
  intro h
  have hplan : Plan.shape.ofJson twiceDocument = .ok twicePlan := rfl
  have hsame := h twiceDocument twicePlan nameRule "t" (.obj [("name", .str "Ada Lovelace")]) none _
    hplan List.mem_cons_self rfl rfl rfl rfl
  have hrun : contribution ⟨twicePlan, some "s", []⟩ (.obj [("name", .str "Ada Lovelace")]) none
      nameRule = some (.str "Lovelace") := rfl
  have hfirst : resolvedWith (Plan.effect (twicePlan.findTransform? "t")) nameRule
      (some (.obj [("name", .str "Ada Lovelace")])) = some (.str "Ada") := rfl
  have hnames := hrun.symm.trans (hsame.trans hfirst)
  revert hnames
  simp

end Run

end Reshape
