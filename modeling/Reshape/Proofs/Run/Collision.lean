/-
# Reshape.Proofs.Run.Collision -- which rules that write to the same place are reported

An audit counts the rules that have a target, and warns of each target that several rules have
(`duplicateTarget_mem_warnings_iff`). So it warns of some target exactly when the targets are not
distinct (`has_duplicateTarget_iff`).

A run does not write to the targets as they are: a rule that collects an array strips its target.
Two rules can therefore write to the same place with targets that differ, of which the audit says
nothing. One of them strips its target then (`targets_eq_or_strips`), so that in a plan where no
rule does, the audit misses nothing.
-/

import Reshape.Proofs.Plan.Coverage
import Reshape.Proofs.Run.Written

namespace Reshape

namespace Plan

variable {p : Plan} {path : String}

/-! ## What an audit reports of targets -/

/-- Dropping repeated neighbours loses none of them. -/
theorem mem_dedup (path : String) : ∀ ts : List String, path ∈ targets.dedup ts ↔ path ∈ ts
  | [] => Iff.rfl
  | [_] => Iff.rfl
  | a :: b :: rest => by
    rw [targets.dedup]
    split
    case isTrue hab =>
      rw [mem_dedup path (b :: rest), hab]
      simp
    case isFalse => rw [List.mem_cons, mem_dedup path (b :: rest), ← List.mem_cons]

/-- The targets of a plan are those of its rules. -/
theorem mem_targets : path ∈ p.targets ↔ path ∈ p.targetPaths := by
  rw [targets, mem_dedup, List.mem_mergeSort]
  rfl

/-- There are as many rules for a path as have it for their target. -/
theorem length_rulesFor (p : Plan) (path : String) :
    (p.rulesFor path).length = p.targetPaths.count path := by
  rw [rulesFor, targetPaths, List.count, List.countP_map, ← List.countP_eq_length_filter]
  rfl

/-- **A path is reported** with the number of rules that have it for their target, when there are
several of them. -/
theorem duplicateTarget_mem_warnings_iff {n : Nat} :
    .duplicateTarget n path ∈ p.warnings ↔ n = p.targetPaths.count path ∧ 1 < n := by
  have hreported : .duplicateTarget n path ∈ p.warnings ↔
      .duplicateTarget n path ∈ p.duplicateIssues := by
    simp [warnings, ruleIssues, transformIssues, mem_issueIf, mem_pathIssue]
  rw [hreported, duplicateIssues, List.mem_flatMap]
  constructor
  · rintro ⟨t, -, hissue⟩
    obtain ⟨hcount, hsame⟩ := mem_issueIf.mp hissue
    cases hsame
    rw [length_rulesFor] at hcount ⊢
    exact ⟨rfl, of_decide_eq_true hcount⟩
  · rintro ⟨rfl, hcount⟩
    refine ⟨path, mem_targets.mpr ?_, mem_issueIf.mpr ⟨?_, ?_⟩⟩
    · exact List.count_pos_iff.mp (Nat.zero_lt_of_lt hcount)
    · rw [length_rulesFor]
      exact decide_eq_true hcount
    · rw [length_rulesFor]

/-- No error is about a target of several rules. -/
theorem duplicateTarget_not_mem_errors {n : Nat} : .duplicateTarget n path ∉ p.errors := by
  simp [errors, mem_issueIf]

/-- **An audit warns of some target** exactly when the targets of the rules are not distinct. -/
theorem has_duplicateTarget_iff : p.audit.has .duplicateTarget = true ↔ ¬ p.targetPaths.Nodup := by
  rw [List.nodup_iff_count_le_one]
  push Not
  constructor
  · intro hhas
    obtain ⟨i, hi, hkind⟩ := List.any_eq_true.mp hhas
    cases i with
    | duplicateTarget n path =>
      have hwarning : .duplicateTarget n path ∈ p.warnings :=
        (List.mem_append.mp hi).resolve_left duplicateTarget_not_mem_errors
      obtain ⟨rfl, hcount⟩ := duplicateTarget_mem_warnings_iff.mp hwarning
      exact ⟨path, hcount⟩
    | _ => cases hkind
  · rintro ⟨path, hcount⟩
    have hwarning := duplicateTarget_mem_warnings_iff.mpr ⟨rfl, hcount⟩
    exact Report.has_kind (r := p.audit) (List.mem_append_right _ hwarning)

end Plan

namespace Run

variable {p : Plan} {r s : Plan.Rule} {i j : Nat}

/-! ## Rules that write to the same place -/

/-- Two rules with the same target are counted as two. -/
theorem one_lt_count_targetPaths (hi : p.rules[i]? = some r) (hj : p.rules[j]? = some s)
    (hij : i ≠ j) (htarget : r.targetPath = s.targetPath) :
    1 < p.targetPaths.count r.targetPath := by
  have hr : p.targetPaths[i]? = some r.targetPath := by
    rw [Plan.targetPaths, List.getElem?_map, hi]
    rfl
  have hs : p.targetPaths[j]? = some r.targetPath := by
    rw [Plan.targetPaths, List.getElem?_map, hj, htarget]
    rfl
  obtain ⟨hi, hr⟩ := List.getElem?_eq_some_iff.mp hr
  obtain ⟨hj, hs⟩ := List.getElem?_eq_some_iff.mp hs
  apply List.duplicate_iff_two_le_count.mp
  rw [List.duplicate_iff_exists_distinct_get]
  rcases Nat.lt_or_gt_of_ne hij with hlt | hgt
  · exact ⟨⟨i, hi⟩, ⟨j, hj⟩, hlt, hr.symm, hs.symm⟩
  · exact ⟨⟨j, hj⟩, ⟨i, hi⟩, hgt, hs.symm, hr.symm⟩

/-- **Rules that write to the same place** have the same target, or one of them strips its own. -/
theorem targets_eq_or_strips (h : target r = target s) :
    r.targetPath = s.targetPath ∨ Strips r ∨ Strips s := by
  by_contra hnone
  rw [not_or, not_or] at hnone
  obtain ⟨hne, hr, hs⟩ := hnone
  rw [target_of_not_strips hr, target_of_not_strips hs] at h
  exact hne h

/-- **Which writes to the same place an audit reports.** Let two rules of a plan write to the same
place. If they have the same target, the audit warns of it and says how many rules have it. If they
do not, one of them collects an array and has wildcards in its target. As the audit warns only when
targets are the same, it may say nothing of the two then. -/
theorem audit_of_target_eq (hi : p.rules[i]? = some r) (hj : p.rules[j]? = some s) (hij : i ≠ j)
    (htarget : target r = target s) :
    (r.targetPath = s.targetPath →
        .duplicateTarget (p.targetPaths.count r.targetPath) r.targetPath ∈ p.audit.warnings) ∧
      (r.targetPath ≠ s.targetPath → Strips r ∨ Strips s) ∧
        (p.audit.has .duplicateTarget = true ↔ ¬ p.targetPaths.Nodup) := by
  refine ⟨fun hsame => ?_, (targets_eq_or_strips htarget).resolve_left, Plan.has_duplicateTarget_iff⟩
  rw [Plan.audit, Plan.duplicateTarget_mem_warnings_iff]
  exact ⟨rfl, one_lt_count_targetPaths hi hj hij hsame⟩

/-- A plan that collects names, and then writes two single texts to where they are. -/
def labelPlan : Plan where
  selection := { sources := [{ id := "s" }], primaryPath := some "" }
  rules :=
    [namesRule "names[*]", { id := "label", sourcePath := "label", targetPath := "names" },
      { id := "nick", sourcePath := "nick", targetPath := "names" }]

/-- Of the three rules that write to `names` the audit counts two. It does not count the rule that
strips its target. -/
theorem audit_of_target_eq_labels :
    .duplicateTarget 2 "names" ∈ labelPlan.audit.warnings ∧
      (Strips (namesRule "names[*]") ∨
        Strips { id := "label", sourcePath := "label", targetPath := "names" }) := by
  have hstrip : Path.stripWildcards "names[*]" = "names" := by decide
  constructor
  · exact (@audit_of_target_eq labelPlan _ _ 1 2 rfl rfl (by decide) rfl).1 rfl
  · exact (@audit_of_target_eq labelPlan _ _ 0 1 rfl rfl (by decide) hstrip).2.1 (by decide)

/-- **Writes to the same place can go without a report**: the names are collected for `names[*]`, the
label is written over them at `names`, and the two targets are distinct. -/
theorem not_forall_has_duplicateTarget :
    ¬ ∀ (c : Context) (r s : Plan.Rule) (i j : Nat) (record value other : Json)
      (index : Option Nat), (∀ t ∈ c.plan.rules, t.sourceId = none) →
      c.plan.rules[i]? = some r → c.plan.rules[j]? = some s → i ≠ j →
      contribution c record index r = some value → contribution c record index s = some other →
      target r = target s → c.plan.audit.has .duplicateTarget = true := by
  intro h
  have hstrip : Path.stripWildcards "names[*]" = "names" := by decide
  have hhas := h ⟨{ labelPlan with rules := labelPlan.rules.take 2 }, some "s", []⟩ _ _ 0 1
    (.obj [("people", .arr [.obj [("name", .str "Ada")]]), ("label", .str "x")]) _ _ none
    (by decide) rfl rfl (by decide) rfl rfl hstrip
  exact Plan.has_duplicateTarget_iff.mp hhas (by decide)

end Run

end Reshape
