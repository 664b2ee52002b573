/-
# Reshape.Proofs.Proposal.Proposed -- which rules are proposed

A rule is proposed for exactly those fields to which some path of the source is alike enough, one
for each, in the order of the fields (`forall₂_proposed_propose`). It reads the first one of the
paths that are most alike the field's path, has the field's default as its fallback, and has the
pins of the path that it reads, if that path has any.

The search takes the first best path for granted only among numbers, so all scores have to be
numbers, and the threshold too. For a threshold that is not a number each field would get a rule as
long as there is some path, although no score reaches the threshold.
-/

import Reshape.Proofs.Plan.Coverage
import Reshape.Proofs.Plan.Pins

namespace Reshape.Path

/-- **A path with a segment that is an array has an opening bracket.** -/
theorem open_mem_of_isArray {path : String} {ss : List Segment} {s : Segment}
    (h : parse path = .ok ss) (hs : s ∈ ss) (harray : s.isArray = true) : '[' ∈ path.toList := by
  rw [parse] at h
  split at h
  case isTrue =>
    cases h
    exact absurd hs List.not_mem_nil
  case isFalse =>
    obtain ⟨raw, hraw, hread⟩ := exists_of_mem_parseSegments h hs
    by_contra hopen
    have hplain := access_of_parseSegment (fun hc => hopen (mem_of_mem_splitChar hraw hc)) hread
    rw [Segment.isArray, hplain] at harray
    exact absurd harray (by decide)

end Reshape.Path

namespace Reshape.Proposal

open Plan (OutputField Rule Pins)

/-- **The rule that is proposed for a field**, all but its id. -/
structure Proposed (paths : List String) (field : OutputField) (rule : Rule) : Prop where
  sourcePath : FirstBest field.path paths rule.sourcePath
  targetPath : rule.targetPath = field.path
  fallback : rule.fallback = field.defaultValue
  pins (found : Pins) : rule.pins = some found ↔ Pins.ofPath rule.sourcePath = .ok (some found)
  bare : rule.sourceId = none ∧ rule.transformId = none ∧ rule.condition = none

variable {paths : List String} {threshold : Float} {field : OutputField}

/-- Only a path with an opening bracket has pins. -/
theorem open_mem_of_ofPath {path : String} {pins : Pins} (h : Pins.ofPath path = .ok (some pins)) :
    '[' ∈ path.toList := by
  obtain ⟨ss, hparse, -, hne, -⟩ := Pins.ofPath_eq_ok_some_iff.mp h
  obtain ⟨e, he⟩ := List.exists_mem_of_ne_nil _ hne
  obtain ⟨s, hs, harray, -⟩ := Pins.mem_arrays.mp he
  exact Path.open_mem_of_isArray hparse hs harray

/-- **A proposed rule has the pins of its path**, if there are any. -/
theorem pins_ruleFor (id path : String) (field : OutputField) (pins : Pins) :
    (ruleFor id path field).pins = some pins ↔ Pins.ofPath path = .ok (some pins) := by
  rw [ruleFor]
  split
  case isTrue =>
    unfold Rule.withDerivedPins
    cases hpins : Pins.ofPath path with
    | error refusal => simp [bind, Except.bind]
    | ok found => simp [bind, Except.bind, pure, Except.pure]
  case isFalse hopen =>
    rw [List.contains_eq_mem, decide_eq_true_iff] at hopen
    constructor
    · intro h
      cases h
    · intro h
      exact absurd (open_mem_of_ofPath h) hopen

theorem proposed_ruleFor {path : String} (h : FirstBest field.path paths path) (id : String) :
    Proposed paths field (ruleFor id path field) where
  sourcePath := by rwa [Plan.ruleFor_eq]
  targetPath := by rw [Plan.ruleFor_eq]
  fallback := by rw [Plan.ruleFor_eq]
  pins pins := by
    have hpath : (ruleFor id path field).sourcePath = path := by rw [Plan.ruleFor_eq]
    rw [hpath]
    exact pins_ruleFor id path field pins
  bare := by
    rw [Plan.ruleFor_eq]
    exact ⟨rfl, rfl, rfl⟩

/-- **Rules are proposed for the fields to which some path is alike enough**, in their order, and
each of them reads the first of the paths that are most alike its field. -/
theorem forall₂_proposed_propose (newId : Nat → String) (paths : List String) (threshold : Float)
    (fields : List OutputField)
    (hscores : ∀ field ∈ fields, ∀ path ∈ paths, (similarity path field.path).isNaN = false)
    (hthreshold : threshold.isNaN = false) :
    List.Forall₂ (Proposed paths)
      (fields.filter fun field => paths.any fun path => threshold ≤ similarity path field.path)
      (propose newId paths threshold fields) := by
  induction fields generalizing newId with
  | nil => exact .nil
  | cons field fields ih =>
    obtain ⟨hscored, hrest⟩ := List.forall_mem_cons.mp hscores
    have hreached := hasMatch_iff hscored hthreshold
    rw [List.filter_cons]
    split
    case isTrue h =>
      obtain ⟨path, hpath, hle⟩ := List.any_eq_true.mp h
      obtain ⟨found, score, hbest, hscore⟩ :=
        hreached.mpr ⟨path, hpath, of_decide_eq_true hle⟩
      obtain ⟨first, hfirst, hproposed⟩ :=
        exists_best?_eq_some (List.ne_nil_of_mem hpath) hscored
      cases hbest.symm.trans hfirst
      rw [propose, hbest]
      dsimp only
      rw [if_neg hscore]
      exact .cons (proposed_ruleFor hproposed _) (ih _ hrest)
    case isFalse h =>
      rw [Plan.propose_cons_of_not_hasMatch newId fields fun hmatch => ?_]
      · exact ih newId hrest
      · obtain ⟨path, hpath, hle⟩ := hreached.mp hmatch
        exact h (List.any_eq_true.mpr ⟨path, hpath, decide_eq_true hle⟩)

/-- Two fields of an order, and paths of which two differ in a position only. -/
def orderFields : List OutputField :=
  [{ path := "items[*].sku", defaultValue := some (.str "none") }, { path := "total" }]

@[inherit_doc orderFields]
def orderPaths : List String :=
  ["total", "items[0].sku", "items[*].sku", "items[*].sku"]

/-- Both fields get a rule. -/
theorem forall₂_proposed_propose_order :
    (∀ field ∈ orderFields, ∀ path ∈ orderPaths,
      (similarity path field.path).isNaN = false) ∧ (0.7 : Float).isNaN = false ∧
      List.Forall₂ (Proposed orderPaths) orderFields
        (propose (fun _ => "new") orderPaths 0.7 orderFields) := by
  have hscores : ∀ field ∈ orderFields, ∀ path ∈ orderPaths,
      (similarity path field.path).isNaN = false := by
    intro field hfield path hpath
    have hshort : (∀ f ∈ orderFields, f.path.length < 13) ∧ ∀ p ∈ orderPaths, p.length < 13 := by
      decide
    have hlimit : 13 < 2 ^ 63 := by decide
    exact isNaN_similarity ((hshort.2 path hpath).trans hlimit)
      ((hshort.1 field hfield).trans hlimit)
  have hthreshold : (0.7 : Float).isNaN = false := by decide
  refine ⟨hscores, hthreshold, ?_⟩
  have hfields := forall₂_proposed_propose (fun _ => "new") orderPaths 0.7 orderFields hscores
    hthreshold
  rwa [List.filter_eq_self.mpr] at hfields
  intro field hfield
  have hthere : ∀ f ∈ orderFields, f.path ∈ orderPaths := by decide
  refine List.any_eq_true.mpr ⟨field.path, hthere field hfield, decide_eq_true ?_⟩
  rw [similarity_self]
  decide

end Reshape.Proposal
