/-
# Reshape.Proofs.Run.Required -- required fields that an audit lets pass

An audit takes a rule for one that gives a required field its value when the rule's target is the
path of the field, or is so once its wildcards are taken out. A run takes the wildcards out only for
a rule that collects an array; every other rule writes to the keys as they stand, brackets and all.
So with a single rule that always has something to write, the field has a value in every output
exactly when the target is the path itself, or the rule collects an array, or the field is the whole
output (`isSome_get?_required_iff`). A rule with one value and a target with a wildcard passes the
audit and leaves the field without a value.
-/

import Reshape.Proofs.Path.Wildcards
import Reshape.Proofs.Plan.Coverage
import Reshape.Proofs.Run.LastWrite

namespace Reshape

/-! ## Keys with brackets -/

namespace Json

/-- What has positions is not an object. -/
theorem itemAt?_obj (ms : Members) {ns : List Nat} (h : ns ≠ []) :
    itemAt? ns (.obj ms) = none := by
  obtain ⟨n, ns, rfl⟩ := List.exists_cons_of_ne_nil h
  rw [itemAt?_cons]
  rfl

/-- **Where all keys have brackets, a segment finds nothing but its own text.** -/
theorem step?_obj_eq_none {ms : Members} {raw : List Char} (hkeys : ∀ k ∈ ms.keys, '[' ∈ k.toList)
    (hraw : String.ofList raw ∉ ms.keys) : step? raw (.obj ms) = none := by
  rw [step?, Members.get?_of_not_mem hraw]
  show indexed? raw (.obj ms) = none
  rw [indexed?]
  split
  case h_2 => rfl
  case h_1 key ns hparse =>
    obtain ⟨-, cs, us, -, hopen, -, hspells, haccess⟩ := Path.parseSegment_eq_ok_iff.mp hparse
    have hns : ns ≠ [] := (Path.Access.proper_of_accessOf hspells.proper haccess).1
    by_cases hkey : key = ""
    · rw [hkey, child?_empty, Option.bind_some, itemAt?_obj ms hns]
    · -- a key that was read has no bracket, so it is not among those of the object
      have hmem : key ∉ ms.keys := fun hk => hopen (hkeys key hk)
      rw [child?_obj hkey, Members.get?_of_not_mem hmem, Option.bind_none]

/-- **What was written to keys with wildcards is not found without them.** -/
theorem eq_of_isSome_follow?_put {value : Json} {keys keys' : List (List Char)}
    (h : List.Forall₂ (Text.Removes Path.everyText.toList) keys keys')
    (hfound : (follow? keys' (put value keys (.obj []))).isSome = true) : keys' = keys := by
  induction h with
  | nil => rfl
  | @cons key key' keys keys' hkey _ ih =>
    rw [put_cons_empty, follow?] at hfound
    by_cases heq : key' = key
    · subst heq
      rw [ih (by simpa [step?, Members.get?] using hfound)]
    · have hopen : '[' ∈ key := by
        by_contra hnot
        refine heq (hkey.eq_of_not_occurs fun hinfix => hnot ?_)
        exact hinfix.subset (by decide)
      have hnone : step? key' (.obj [(String.ofList key, put value keys (.obj []))]) = none := by
        apply step?_obj_eq_none
        · simpa [Members.keys] using hopen
        · simpa [Members.keys] using fun he => heq (String.ofList_injective he)
      rw [hnone] at hfound
      cases hfound

end Json

namespace Run

variable {c : Context} {r : Plan.Rule} {f : Plan.OutputField}

/-! ## A single rule -/

/-- A rule with a fallback and without a condition always has something to write. -/
theorem exists_outcome_of_fallback {fallback : Json} (hcondition : r.condition = none)
    (hfallback : r.fallback = some fallback) (p : Plan) (item : Option Json) :
    ∃ value, outcome p r item = some value := by
  rw [outcome, hcondition, hfallback]
  show ∃ value, orFallback (some fallback) (found p r item) = some value
  rw [orFallback]
  split
  case isTrue hthere =>
    cases hfound : found p r item with
    | some value => exact ⟨value, rfl⟩
    | none =>
      rw [hfound] at hthere
      cases hthere
  case isFalse => exact ⟨fallback, rfl⟩

/-- **The output of a single rule**: one value at its target. -/
theorem exists_runRecord_eq_set {fallback : Json} {o : Options} (hrules : c.plan.rules = [r])
    (hsource : r.sourceId = none) (hcondition : r.condition = none)
    (hfallback : r.fallback = some fallback) (hdefaults : o.templateDefaults = false)
    (record : Json) (index : Option Nat) :
    ∃ value, runRecord c o record index = (Json.obj []).set (target r) value := by
  obtain ⟨value, hvalue⟩ := exists_outcome_of_fallback hcondition hfallback c.plan (some record)
  have hcontribution : contribution c record index r = some value := by
    rw [contribution, input, hsource]
    exact hvalue
  refine ⟨value, ?_⟩
  rw [runRecord, hdefaults, hrules, List.foldl_cons, List.foldl_nil,
    runRule_of_contribution hcontribution]
  rfl

/-! ## Targets that an audit takes for the path of a field -/

/-- A target that is taken for a path without wildcards is the path once its own are taken out. -/
theorem stripWildcards_of_covers {path : String} (h : r.covers path = true)
    (hpath : Path.hasWildcard path = false) : Path.stripWildcards r.targetPath = path := by
  rw [Plan.Rule.covers, Bool.or_eq_true, beq_iff_eq, beq_iff_eq] at h
  rcases h with htarget | hstrip
  · rw [htarget, Path.stripWildcards_of_hasWildcard_eq_false hpath]
  · exact hstrip

/-- What is written to the path of a field is there. -/
theorem isSome_get?_set_self {path : String} (hvalid : Path.valid path = true) (root value : Json) :
    ((root.set path value).get? path).isSome = true := by
  rw [Json.get?_set_self hvalid]
  rfl

/-- **What was written with wildcards in its path is not found without them**, unless it is the
whole output. -/
theorem eq_of_isSome_get?_set {path : String} {value : Json} (hne : Path.stripWildcards path ≠ "")
    (h : (((Json.obj []).set path value).get? (Path.stripWildcards path)).isSome = true) :
    Path.stripWildcards path = path := by
  have hpath : path ≠ "" := by
    rintro rfl
    exact hne (by decide)
  have hraws := Path.removes_raws_stripWildcards path
  rw [Json.get?, if_neg hne, Json.set, if_neg hpath] at h
  split at h
  case isTrue =>
    have heq := Json.eq_of_isSome_follow?_put hraws h
    apply String.toList_injective
    rw [← Text.join_splitChar '.' path.toList, ← Text.join_splitChar '.' (Path.stripWildcards _).toList]
    exact congrArg _ heq
  case isFalse =>
    -- nothing was written, and an empty object has nothing but itself
    obtain ⟨raw, raws, hraw⟩ := List.exists_cons_of_ne_nil
      (Text.splitChar_ne_nil '.' (Path.stripWildcards path).toList)
    rw [Path.raws, hraw, Json.follow?, Json.step?_obj_eq_none (by simp [Members.keys])
      (by simp [Members.keys])] at h
    cases h

/-- **Exactly when a required field that an audit lets pass has a value.** Let a plan have a single
rule that reads the primary source, has no condition and has a fallback, and let an audit not report
a required field of the template without a default, whose path can be read and has no wildcard. Then
every output has a value at the path of the field if and only if the rule's target is that path, or
the rule collects an array, or the field is the whole output. -/
theorem isSome_get?_required_iff {fallback : Json} {o : Options} (hrules : c.plan.rules = [r])
    (hsource : r.sourceId = none) (hcondition : r.condition = none)
    (hfallback : r.fallback = some fallback) (hdefaults : o.templateDefaults = false)
    (hf : f ∈ c.plan.template.fields) (hrequired : f.required = true)
    (hdefault : f.defaultValue = none) (hvalid : Path.valid f.path = true)
    (hplain : Path.hasWildcard f.path = false)
    (haudit : .unmappedRequiredField f.path ∉ c.plan.audit.errors ++ c.plan.audit.warnings)
    (record : Json) (index : Option Nat) :
    ((runRecord c o record index).get? f.path).isSome = true ↔
      r.targetPath = f.path ∨ (expansion? r).isSome = true ∨ f.path = "" := by
  have hcovers : r.covers f.path = true := by
    by_contra hnot
    refine haudit (List.mem_append_left _ (Plan.unmappedRequiredField_mem_errors_iff.mpr ?_))
    refine ⟨f, hf, rfl, ?_⟩
    simp [Plan.lacksValue, hrules, hrequired, hdefault, eq_false_of_ne_true hnot]
  have hstrip : Path.stripWildcards r.targetPath = f.path := stripWildcards_of_covers hcovers hplain
  obtain ⟨value, hrun⟩ := exists_runRecord_eq_set hrules hsource hcondition hfallback hdefaults
    record index
  rw [hrun]
  constructor
  · intro hfound
    by_contra hnone
    rw [not_or, not_or] at hnone
    obtain ⟨htarget, hexpansion, hroot⟩ := hnone
    rw [target, if_neg hexpansion, ← hstrip] at hfound
    exact htarget ((eq_of_isSome_get?_set (hstrip ▸ hroot) hfound).symm.trans hstrip)
  · rintro (htarget | hexpansion | hroot)
    · have htarget' : target r = f.path := by
        rw [target]
        split
        case isTrue => exact hstrip
        case isFalse => exact htarget
      rw [htarget']
      exact isSome_get?_set_self hvalid _ value
    · rw [target, if_pos hexpansion, hstrip]
      exact isSome_get?_set_self hvalid _ value
    · rw [hroot]
      rfl

/-- A template with a required field for tags, and one rule that has a wildcard in its target. -/
def tagPlan (source : String) : Plan where
  selection := { sources := [{ id := "s" }], primaryPath := some "" }
  template := { fields := [{ path := "tags", required := true }] }
  rules :=
    [{ id := "m", sourcePath := source, targetPath := "tags[*]", fallback := some (.str "none") }]

/-- An audit lets the field pass, whatever the rule reads. -/
theorem unmappedRequiredField_not_mem_tagPlan (source : String) :
    .unmappedRequiredField "tags" ∉
      (tagPlan source).audit.errors ++ (tagPlan source).audit.warnings := by
  rw [Plan.audit, List.mem_append, or_iff_left Plan.unmappedRequiredField_not_mem_warnings,
    Plan.unmappedRequiredField_mem_errors_iff]
  rintro ⟨f, hf, -, hlacks⟩
  obtain rfl := List.mem_singleton.mp hf
  have hstrip : Path.stripWildcards "tags[*]" = "tags" := by decide
  simp [Plan.lacksValue, tagPlan, Plan.Rule.covers, hstrip] at hlacks

/-- The tags are there when they are collected from an array, which may be empty, and not when they
are a single value. -/
theorem isSome_get?_required_iff_tags :
    ((runRecord ⟨tagPlan "labels[*]", some "s", []⟩ { templateDefaults := false }
        (.obj [("labels", .arr [])]) none).get? "tags").isSome = true ∧
      ((runRecord ⟨tagPlan "label", some "s", []⟩ { templateDefaults := false }
        (.obj [("label", .str "x")]) none).get? "tags").isSome = false := by
  have hiff := fun source => @isSome_get?_required_iff ⟨tagPlan source, some "s", []⟩ _
    { path := "tags", required := true } _ { templateDefaults := false } rfl rfl rfl rfl rfl
    List.mem_cons_self rfl rfl (by decide) (by decide)
    (unmappedRequiredField_not_mem_tagPlan source)
  constructor
  · rw [hiff]
    decide
  · rw [Bool.eq_false_iff, Ne, hiff]
    decide

/-- **A required field that an audit lets pass can be without a value**: one label is written to the
key `tags[*]`, so nothing is at `tags`. -/
theorem not_forall_isSome_get?_required :
    ¬ ∀ (p : Plan) (r : Plan.Rule) (f : Plan.OutputField) (fallback : Json) (o : Options)
      (record : Json), p.rules = [r] → r.sourceId = none → r.condition = none →
      r.fallback = some fallback → fallback ≠ .null → o.templateDefaults = false →
      f ∈ p.template.fields → f.required = true → f.defaultValue = none →
      Path.valid f.path = true → Path.hasWildcard f.path = false →
      .unmappedRequiredField f.path ∉ p.audit.errors ++ p.audit.warnings →
      ((runRecord ⟨p, p.selection.primary?.map (·.id), []⟩ o record none).get? f.path).isSome =
        true := by
  intro h
  have hsome := h (tagPlan "label") _ { path := "tags", required := true } _
    { templateDefaults := false } (.obj [("label", .str "x")]) rfl rfl rfl rfl
    Json.noConfusion rfl List.mem_cons_self rfl rfl (by decide) (by decide)
    (unmappedRequiredField_not_mem_tagPlan "label")
  revert hsome
  decide

end Run

end Reshape
