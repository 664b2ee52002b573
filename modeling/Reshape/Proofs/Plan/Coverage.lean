/-
# Reshape.Proofs.Plan.Coverage -- what proposed rules leave without a value

An audit reports a required field when it has no default and no rule writes to its path. Rules are
proposed for leaves only: when every field's path is among the paths of the source, each leaf that
has no rule yet gets one (`map_targetPath_propose`), and a field with others below it gets none. So
the fields that are still reported are required parents, and all of them that were reported before
(`unmappedRequiredField_mem_audit_withProposals_iff`). A parent is spared only when its path is that
of a leaf but for wildcards, as a rule for an array of values counts for the path without them.

The ids of the new rules have to be new ones, as a rule takes the place of another with its id.
-/

import Reshape.Plan.Audit
import Reshape.Proofs.Plan.Integrity
import Reshape.Proofs.Proposal.Best

namespace Reshape.Plan

variable {p : Plan}

/-! ## Where rules write to -/

/-- The paths to which rules write, in the order of the rules. -/
def targetPaths (p : Plan) : List String :=
  p.rules.map Rule.targetPath

/-- **A rule with a new id** writes to a path that is written to already, or goes last. -/
theorem targetPaths_withRule {r : Rule} (h : r.id ∉ p.ruleIds) :
    (p.withRule r).targetPaths = p.targetPaths ∧ r.targetPath ∈ p.targetPaths ∨
      (p.withRule r).targetPaths = p.targetPaths ++ [r.targetPath] := by
  unfold targetPaths
  rcases withRule_cases p r with ⟨before, s, after, hp, -, hid, -⟩ |
    ⟨-, before, s, after, hp, -, hslot, heq⟩ | ⟨-, -, heq⟩
  · have hs : s ∈ p.rules := hp ▸ List.mem_append_right before List.mem_cons_self
    exact absurd (hid ▸ List.mem_map_of_mem hs) h
  · have htarget : s.targetPath = r.targetPath := congrArg Prod.snd hslot
    rw [heq, hp]
    simp [htarget]
  · rw [heq]
    exact .inr List.map_append

theorem mem_targetPaths_withRule {r : Rule} (h : r.id ∉ p.ruleIds) {t : String} :
    t ∈ (p.withRule r).targetPaths ↔ t ∈ p.targetPaths ∨ t = r.targetPath := by
  rcases targetPaths_withRule h with ⟨heq, hmem⟩ | heq
  · rw [heq]
    refine ⟨.inl, ?_⟩
    rintro (ht | rfl)
    · exact ht
    · exact hmem
  · rw [heq, List.mem_append, List.mem_singleton]

/-- Adding a rule brings in no id but its own. -/
theorem not_mem_ruleIds_withRule {r : Rule} {id : String} (hid : id ∉ p.ruleIds) (hne : id ≠ r.id) :
    id ∉ (p.withRule r).ruleIds := by
  intro hmem
  rcases ruleIds_withRule p r with heq | ⟨-, heq⟩
  · exact hid (heq ▸ hmem)
  · rw [heq, List.mem_append, List.mem_singleton] at hmem
    rcases hmem with hmem | hmem
    · exact hid hmem
    · exact hne hmem

/-- New ids that are distinct stay new while rules with them are added. -/
theorem forall_not_mem_ruleIds_withRule {r : Rule} {rules : List Rule}
    (hids : ((r :: rules).map Rule.id).Nodup) (hnew : ∀ s ∈ rules, s.id ∉ p.ruleIds) :
    ∀ s ∈ rules, s.id ∉ (p.withRule r).ruleIds := by
  rw [List.map_cons, List.nodup_cons] at hids
  intro s hs
  refine not_mem_ruleIds_withRule (hnew s hs) fun heq => hids.1 ?_
  exact List.mem_map.mpr ⟨s, hs, heq⟩

/-- **Rules with new ids** add the paths to which they write, and nothing else. -/
theorem mem_targetPaths_foldl_withRule {rules : List Rule} (hids : (rules.map Rule.id).Nodup)
    (hnew : ∀ r ∈ rules, r.id ∉ p.ruleIds) {t : String} :
    t ∈ (rules.foldl withRule p).targetPaths ↔
      t ∈ p.targetPaths ∨ t ∈ rules.map Rule.targetPath := by
  induction rules generalizing p with
  | nil => simp
  | cons r rules ih =>
    obtain ⟨hr, hrest⟩ := List.forall_mem_cons.mp hnew
    have hrest' := forall_not_mem_ruleIds_withRule hids hrest
    rw [List.foldl_cons, ih (List.nodup_cons.mp hids).2 hrest', mem_targetPaths_withRule hr,
      List.map_cons, List.mem_cons, or_assoc]

theorem foldl_withRule_eq (rules : List Rule) (p : Plan) :
    rules.foldl withRule p = { p with rules := (rules.foldl withRule p).rules } := by
  induction rules generalizing p with
  | nil => rfl
  | cons r rules ih =>
    rw [List.foldl_cons, ih, withRule_eq]

/-! ## Proposed rules -/

variable {newId : Nat → String} {paths : List String} {threshold : Float}
variable {fields : List OutputField}

/-- **For a field to which some path is alike enough** a rule is proposed. -/
theorem propose_cons (newId : Nat → String) (fields : List OutputField) {field : OutputField}
    (h : Proposal.HasMatch paths threshold field.path) :
    ∃ path, Proposal.propose newId paths threshold (field :: fields) =
      Proposal.ruleFor (newId 0) path field ::
        Proposal.propose (fun n => newId (n + 1)) paths threshold fields := by
  obtain ⟨path, score, hbest, hkept⟩ := h
  refine ⟨path, ?_⟩
  rw [Proposal.propose, hbest]
  exact if_neg hkept

/-- For another field no rule is proposed. -/
theorem propose_cons_of_not_hasMatch (newId : Nat → String) (fields : List OutputField)
    {field : OutputField} (h : ¬ Proposal.HasMatch paths threshold field.path) :
    Proposal.propose newId paths threshold (field :: fields) =
      Proposal.propose newId paths threshold fields := by
  rw [Proposal.propose]
  split
  case h_1 => rfl
  case h_2 path score hbest =>
    apply if_pos
    by_contra hkept
    exact h ⟨path, score, hbest, hkept⟩

theorem map_targetPath_propose (h : ∀ f ∈ fields, f.path ∈ paths) (hthreshold : threshold ≤ 1.0) :
    (Proposal.propose newId paths threshold fields).map Rule.targetPath =
      fields.map OutputField.path := by
  induction fields generalizing newId with
  | nil => rfl
  | cons field fields ih =>
    obtain ⟨hfield, hrest⟩ := List.forall_mem_cons.mp h
    obtain ⟨path, heq⟩ := propose_cons newId fields (Proposal.hasMatch_of_mem hfield hthreshold)
    rw [heq, List.map_cons, List.map_cons, ruleFor_eq, ih hrest]

/-- The ids of proposed rules are the first new ones. -/
theorem map_id_propose (newId : Nat → String) (paths : List String) (threshold : Float)
    (fields : List OutputField) :
    ∃ count ≤ fields.length, (Proposal.propose newId paths threshold fields).map Rule.id =
      (List.range count).map newId := by
  induction fields generalizing newId with
  | nil => exact ⟨0, Nat.le_refl 0, rfl⟩
  | cons field fields ih =>
    by_cases hmatch : Proposal.HasMatch paths threshold field.path
    · obtain ⟨path, hpropose⟩ := propose_cons newId fields hmatch
      obtain ⟨count, hle, heq⟩ := ih fun n => newId (n + 1)
      refine ⟨count + 1, Nat.succ_le_succ hle, ?_⟩
      rw [hpropose, List.map_cons, ruleFor_eq, heq, List.range_succ_eq_map, List.map_cons,
        List.map_map]
      rfl
    · obtain ⟨count, hle, heq⟩ := ih newId
      rw [propose_cons_of_not_hasMatch newId fields hmatch]
      exact ⟨count, Nat.le_succ_of_le hle, heq⟩

/-! ## Plans with proposals -/

/-- **New ids**: the first ones that are given out are distinct, and none of them is there. -/
structure NewIds (newId : Nat → String) (p : Plan) (count : Nat) : Prop where
  nodup : ((List.range count).map newId).Nodup
  notMem : ∀ n < count, newId n ∉ p.ruleIds

theorem NewIds.mono {m n : Nat} (h : NewIds newId p n) (hle : m ≤ n) : NewIds newId p m :=
  ⟨h.nodup.sublist ((List.range_sublist.mpr hle).map newId),
    fun k hk => h.notMem k (Nat.lt_of_lt_of_le hk hle)⟩

/-- The open fields are the leaves to whose paths no rule writes. -/
theorem mem_openFields_iff {f : OutputField} :
    f ∈ Proposal.openFields p ↔ f ∈ p.template.leaves ∧ f.path ∉ p.targetPaths := by
  simp [Proposal.openFields, rulesFor, targetPaths]

theorem length_openFields_le (p : Plan) :
    (Proposal.openFields p).length ≤ p.template.fields.length :=
  (List.length_filter_le _ _).trans (List.length_filter_le _ _)

theorem template_withProposals (newId : Nat → String) (p : Plan) (paths : List String)
    (threshold : Float) : (p.withProposals newId paths threshold).template = p.template := by
  rw [withProposals, foldl_withRule_eq]

/-- **Proposed rules have new ids.** -/
theorem NewIds.proposeFor (h : NewIds newId p p.template.fields.length) (paths : List String)
    (threshold : Float) :
    ((Proposal.proposeFor newId p paths threshold).map Rule.id).Nodup ∧
      ∀ r ∈ Proposal.proposeFor newId p paths threshold, r.id ∉ p.ruleIds := by
  obtain ⟨count, hcount, hids⟩ := map_id_propose newId paths threshold (Proposal.openFields p)
  have hnew := h.mono (hcount.trans (length_openFields_le p))
  rw [Proposal.proposeFor]
  refine ⟨hids ▸ hnew.nodup, fun r hr hmem => ?_⟩
  obtain ⟨n, hn, heq⟩ := List.mem_map.mp (hids ▸ List.mem_map_of_mem (f := Rule.id) hr)
  exact hnew.notMem n (List.mem_range.mp hn) (heq ▸ hmem)

/-- **With proposals**, rules write to every leaf, and to what they wrote to before. -/
theorem mem_targetPaths_withProposals (hpaths : ∀ f ∈ p.template.fields, f.path ∈ paths)
    (hthreshold : threshold ≤ 1.0) (hnew : NewIds newId p p.template.fields.length) {t : String} :
    t ∈ (p.withProposals newId paths threshold).targetPaths ↔
      t ∈ p.targetPaths ∨ ∃ g ∈ p.template.leaves, g.path = t := by
  have hopen : ∀ g ∈ Proposal.openFields p, g.path ∈ paths := fun g hg =>
    hpaths g (List.mem_of_mem_filter (List.mem_of_mem_filter hg))
  obtain ⟨hids, hnew⟩ := hnew.proposeFor paths threshold
  rw [withProposals, mem_targetPaths_foldl_withRule hids hnew, Proposal.proposeFor,
    map_targetPath_propose hopen hthreshold]
  constructor
  · rintro (ht | ht)
    · exact .inl ht
    · obtain ⟨g, hg, rfl⟩ := List.mem_map.mp ht
      exact .inr ⟨g, List.mem_of_mem_filter hg, rfl⟩
  · rintro (ht | ⟨g, hg, rfl⟩)
    · exact .inl ht
    -- a leaf that is not open has a rule already
    · by_cases hrules : g.path ∈ p.targetPaths
      · exact .inl hrules
      · exact .inr (List.mem_map.mpr ⟨g, mem_openFields_iff.mpr ⟨hg, hrules⟩, rfl⟩)

/-! ## Fields without a value -/

theorem mem_issueIf {reason : Bool} {i j : Issue} :
    i ∈ issueIf reason j ↔ reason = true ∧ i = j := by
  cases reason <;> simp [issueIf]

theorem Report.has_kind {r : Report} {i : Issue} (h : i ∈ r.errors ++ r.warnings) :
    r.has i.kind = true :=
  List.any_eq_true.mpr ⟨i, h, beq_self_eq_true i.kind⟩

/-- **A path is reported** as an error when a field of the template with it has no value. -/
theorem unmappedRequiredField_mem_errors_iff {path : String} :
    .unmappedRequiredField path ∈ p.errors ↔
      ∃ f ∈ p.template.fields, f.path = path ∧ p.lacksValue f = true := by
  simp only [errors, List.mem_append, mem_issueIf, reduceCtorEq, and_false, false_or, List.mem_map,
    List.mem_filter, Issue.unmappedRequiredField.injEq]
  constructor
  · rintro ⟨f, ⟨hf, hlacks⟩, hpath⟩
    exact ⟨f, hf, hpath, hlacks⟩
  · rintro ⟨f, hf, hpath, hlacks⟩
    exact ⟨f, ⟨hf, hlacks⟩, hpath⟩

/-- Of a path there is nothing to report but that it cannot be read. -/
theorem mem_pathIssue {r : Rule} {place : RuleEnd} {path : String} {i : Issue} :
    i ∈ pathIssue r place path ↔
      ∃ refusal, Path.parse path = .error refusal ∧ i = .invalidPath r.id place refusal := by
  rw [pathIssue]
  split
  case h_1 ss hss => simp [hss]
  case h_2 refusal hrefusal => simp [hrefusal]

/-- No warning is about a field without a value. -/
theorem unmappedRequiredField_not_mem_warnings {path : String} :
    .unmappedRequiredField path ∉ p.warnings := by
  simp [warnings, ruleIssues, duplicateIssues, transformIssues, mem_issueIf, mem_pathIssue]

/-- **A field lacks a value** when it is required, no rule writes to its path, with wildcards or
without, and it has no default. -/
theorem lacksValue_iff {f : OutputField} :
    p.lacksValue f = true ↔ f.required = true ∧
      (∀ t ∈ p.targetPaths, t ≠ f.path ∧ Path.stripWildcards t ≠ f.path) ∧
        f.defaultValue = none := by
  simp [lacksValue, targetPaths, Rule.covers, and_assoc]

/-- **With proposals**, a field lacks a value if it did so before, has fields below it, and its path
is not that of a leaf without its wildcards. -/
theorem lacksValue_withProposals_iff (hpaths : ∀ f ∈ p.template.fields, f.path ∈ paths)
    (hthreshold : threshold ≤ 1.0) (hnew : NewIds newId p p.template.fields.length)
    {f : OutputField} (hf : f ∈ p.template.fields) :
    (p.withProposals newId paths threshold).lacksValue f = true ↔
      p.lacksValue f = true ∧ p.template.isLeaf f = false ∧
        ∀ g ∈ p.template.leaves, Path.stripWildcards g.path ≠ f.path := by
  have hmem (t : String) := mem_targetPaths_withProposals hpaths hthreshold hnew (t := t)
  rw [lacksValue_iff, lacksValue_iff]
  constructor
  · rintro ⟨hrequired, hnone, hdefault⟩
    have hleaves : ∀ g ∈ p.template.leaves, g.path ≠ f.path ∧ Path.stripWildcards g.path ≠ f.path :=
      fun g hg => hnone g.path ((hmem _).mpr (.inr ⟨g, hg, rfl⟩))
    refine ⟨⟨hrequired, fun t ht => hnone t ((hmem t).mpr (.inl ht)), hdefault⟩, ?_,
      fun g hg => (hleaves g hg).2⟩
    exact eq_false_of_ne_true fun hleaf => (hleaves f (List.mem_filter.mpr ⟨hf, hleaf⟩)).1 rfl
  · rintro ⟨⟨hrequired, hnone, hdefault⟩, hparent, hstrip⟩
    refine ⟨hrequired, fun t ht => ?_, hdefault⟩
    rcases (hmem t).mp ht with ht | ⟨g, hg, rfl⟩
    · exact hnone t ht
    · refine ⟨fun heq => ?_, hstrip g hg⟩
      -- being a leaf is about the path of a field alone
      have hleaf := (List.mem_filter.mp hg).2
      rw [Template.isLeaf, heq] at hleaf
      exact Bool.false_ne_true (hparent.symm.trans hleaf)

/-- **What an audit reports of a plan with proposals.** When the path of every field is among those
of the source, and the threshold can be reached, no leaf is reported. The required fields that are
reported are those with others below them that lacked a value before. -/
theorem unmappedRequiredField_mem_audit_withProposals_iff
    (hpaths : ∀ f ∈ p.template.fields, f.path ∈ paths) (hthreshold : threshold ≤ 1.0)
    (hnew : NewIds newId p p.template.fields.length) (path : String) :
    .unmappedRequiredField path ∈ (p.withProposals newId paths threshold).audit.errors ++
        (p.withProposals newId paths threshold).audit.warnings ↔
      ∃ f ∈ p.template.fields, f.path = path ∧ p.lacksValue f = true ∧
        p.template.isLeaf f = false ∧
          ∀ g ∈ p.template.leaves, Path.stripWildcards g.path ≠ path := by
  rw [audit, List.mem_append, or_iff_left unmappedRequiredField_not_mem_warnings,
    unmappedRequiredField_mem_errors_iff, template_withProposals]
  constructor
  · rintro ⟨f, hf, rfl, hlacks⟩
    exact ⟨f, hf, rfl, (lacksValue_withProposals_iff hpaths hthreshold hnew hf).mp hlacks⟩
  · rintro ⟨f, hf, rfl, hlacks⟩
    exact ⟨f, hf, rfl, (lacksValue_withProposals_iff hpaths hthreshold hnew hf).mpr hlacks⟩

/-- A parent and its two children, all of them required. One child has a rule. -/
def userPlan : Plan where
  template :=
    { fields :=
        [{ path := "user", required := true }, { path := "user.name", required := true },
          { path := "user.mail", required := true }] }
  rules := [{ id := "name", sourcePath := "fullName", targetPath := "user.name" }]

/-- The paths of the fields of `userPlan`, the children first. -/
def userPaths : List String :=
  ["user.name", "user.mail", "user"]

theorem path_mem_userPaths : ∀ f ∈ userPlan.template.fields, f.path ∈ userPaths := by
  decide

/-- Ids for three rules. -/
def userIds (n : Nat) : String :=
  ["a", "b", "c"].getD n ""

theorem newIds_userIds : NewIds userIds userPlan 3 :=
  ⟨by decide, by decide⟩

/-- Only the parent is reported. -/
theorem unmappedRequiredField_mem_audit_userPlan_iff :
    (∀ f ∈ userPlan.template.fields, f.path ∈ userPaths) ∧ (0.7 : Float) ≤ 1.0 ∧
      NewIds userIds userPlan userPlan.template.fields.length ∧
      ∀ path, .unmappedRequiredField path ∈
          (userPlan.withProposals userIds userPaths 0.7).audit.errors ++
            (userPlan.withProposals userIds userPaths 0.7).audit.warnings ↔ path = "user" := by
  have hthreshold : (0.7 : Float) ≤ 1.0 := by decide
  refine ⟨path_mem_userPaths, hthreshold, newIds_userIds, fun path => ?_⟩
  rw [unmappedRequiredField_mem_audit_withProposals_iff path_mem_userPaths hthreshold
    newIds_userIds]
  constructor
  · rintro ⟨f, hf, rfl, -, hparent, -⟩
    simp [userPlan] at hf
    rcases hf with rfl | rfl | rfl
    · rfl
    · exact absurd hparent (by decide)
    · exact absurd hparent (by decide)
  · rintro rfl
    exact ⟨_, List.mem_cons_self, rfl, by decide, by decide, by decide⟩

/-- Proposals leave a required parent without a value. -/
theorem not_forall_has_unmappedRequiredField_eq_false :
    ¬ ∀ (newId : Nat → String) (p : Plan) (paths : List String) (threshold : Float),
      (∀ f ∈ p.template.fields, f.path ∈ paths) → threshold ≤ 1.0 →
        NewIds newId p p.template.fields.length →
          (p.withProposals newId paths threshold).audit.has .unmappedRequiredField = false := by
  intro h
  have hthreshold : (0.7 : Float) ≤ 1.0 := by decide
  have hparent : .unmappedRequiredField "user" ∈
      (userPlan.withProposals userIds userPaths 0.7).audit.errors := by
    rw [audit, unmappedRequiredField_mem_errors_iff, template_withProposals]
    refine ⟨_, List.mem_cons_self, rfl, ?_⟩
    rw [lacksValue_withProposals_iff path_mem_userPaths hthreshold newIds_userIds
      List.mem_cons_self]
    decide
  have hhas :
      (userPlan.withProposals userIds userPaths 0.7).audit.has .unmappedRequiredField = true :=
    Report.has_kind (i := .unmappedRequiredField "user") (List.mem_append_left _ hparent)
  rw [h userIds userPlan userPaths 0.7 path_mem_userPaths hthreshold newIds_userIds] at hhas
  cases hhas

end Reshape.Plan
