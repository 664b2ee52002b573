/-
# Reshape.Proofs.Plan.Proposals -- proposed rules go behind, and are proposed once

Rules are proposed for the leaves of the template that are no rule's target, as far as some path is
alike enough. As they have new ids, and other targets than the rules that are there, adding them
passes all of these over (`withRule_append`): what is added is what comes of the proposals alone.
Two of them can have the same target, when the template has a field twice. Then the later one takes
the place of the earlier one, so the targets of what is added are distinct.

Afterwards a leaf that is still no rule's target has no path that is alike enough. So nothing more
is proposed, whichever ids are next (`withProposals_conservative_idempotent`).
-/

import Reshape.Proofs.Plan.Coverage
import Reshape.Proofs.Plan.Slots

namespace Reshape.Plan

variable {p : Plan} {before after rules : List Rule} {r s : Rule}

/-! ## Rules that are passed over -/

/-- An item is looked for behind those that are not wanted. -/
theorem changeFirst?_append {α : Type} {wanted : α → Bool} {change : α → α} {xs : List α}
    (h : ∀ x ∈ xs, wanted x = false) (ys : List α) :
    changeFirst? wanted change (xs ++ ys) = (changeFirst? wanted change ys).map (xs ++ ·) := by
  induction xs with
  | nil => exact Option.map_id'.symm
  | cons x xs ih =>
    obtain ⟨hx, hxs⟩ := List.forall_mem_cons.mp h
    rw [List.cons_append, changeFirst?, if_neg (ne_true_of_eq_false hx), ih hxs, Option.map_map]
    rfl

theorem Rule.apart_iff : r.apart s = true ↔ s.id ≠ r.id ∧ s.slot ≠ r.slot := by
  simp [Rule.apart, Rule.sameSlot_iff.symm]

/-- **Rules with neither the id nor the slot of a new rule** are passed over when it is added. -/
theorem withRule_append (h : ∀ s ∈ before, r.apart s = true) (p : Plan) (after : List Rule) :
    { p with rules := before ++ after }.withRule r =
      { p with rules := before ++ ({ p with rules := after }.withRule r).rules } := by
  have hid : ∀ s ∈ before, (s.id == r.id) = false := by
    intro s hs
    exact beq_eq_false_iff_ne.mpr (Rule.apart_iff.mp (h s hs)).1
  have hslot : ∀ s ∈ before, s.sameSlot r = false := by
    intro s hs
    exact Rule.sameSlot_eq_false_iff.mpr (Rule.apart_iff.mp (h s hs)).2
  unfold withRule
  dsimp only
  rw [changeFirst?_append hid, changeFirst?_append hslot]
  cases changeFirst? (fun s => s.id == r.id) (fun _ => r) after with
  | some rules => rfl
  | none =>
    cases changeFirst? (fun s => s.sameSlot r) (fun s => { r with id := s.id }) after with
    | some rules => rfl
    | none => simp

theorem foldl_withRule_append (h : ∀ r ∈ rules, ∀ s ∈ before, r.apart s = true) (p : Plan)
    (after : List Rule) :
    rules.foldl withRule { p with rules := before ++ after } =
      { p with rules := before ++ (rules.foldl withRule { p with rules := after }).rules } := by
  induction rules generalizing after with
  | nil => rfl
  | cons r rules ih =>
    obtain ⟨hr, hrest⟩ := List.forall_mem_cons.mp h
    rw [List.foldl_cons, List.foldl_cons, withRule_append hr, ih hrest,
      withRule_eq { p with rules := after }]

/-! ## What comes of rules that are added -/

theorem mem_foldl_withRule (h : s ∈ (rules.foldl withRule p).rules) :
    s ∈ p.rules ∨ ∃ r ∈ rules, s = { r with id := s.id } := by
  induction rules generalizing p with
  | nil => exact .inl h
  | cons r rules ih =>
    rcases ih h with hs | ⟨t, ht, heq⟩
    · rcases mem_withRule hs with hs | heq
      · exact .inl hs
      · exact .inr ⟨r, List.mem_cons_self, heq⟩
    · exact .inr ⟨t, List.mem_cons_of_mem r ht, heq⟩

/-- A rule with a new id keeps slots distinct. -/
theorem nodup_slots_withRule (h : p.slots.Nodup) (hid : r.id ∉ p.ruleIds) :
    (p.withRule r).slots.Nodup := by
  obtain ⟨before, id, after, heq, hnodup, hstraddles⟩ := exists_split_withRule h r
  rw [slots, heq, nodup_map_split_iff]
  exact ⟨fun hmem => not_straddles_of_not_mem hid (hstraddles.mpr hmem), hnodup⟩

theorem nodup_slots_foldl_withRule (h : p.slots.Nodup) (hids : (rules.map Rule.id).Nodup)
    (hnew : ∀ r ∈ rules, r.id ∉ p.ruleIds) : (rules.foldl withRule p).slots.Nodup := by
  induction rules generalizing p with
  | nil => exact h
  | cons r rules ih =>
    obtain ⟨hr, hrest⟩ := List.forall_mem_cons.mp hnew
    exact ih (nodup_slots_withRule h hr) (List.nodup_cons.mp hids).2
      (forall_not_mem_ruleIds_withRule hids hrest)

/-! ## Where proposed rules write to -/

variable {newId : Nat → String} {paths : List String} {threshold : Float} {t : String}

/-- Rules are proposed for the fields to which some path is alike enough. -/
theorem mem_map_targetPath_propose {fields : List OutputField} :
    t ∈ (Proposal.propose newId paths threshold fields).map Rule.targetPath ↔
      (∃ f ∈ fields, f.path = t) ∧ Proposal.HasMatch paths threshold t := by
  induction fields generalizing newId with
  | nil => simp [Proposal.propose]
  | cons field fields ih =>
    by_cases hmatch : Proposal.HasMatch paths threshold field.path
    · obtain ⟨path, heq⟩ := propose_cons newId fields hmatch
      rw [heq, List.map_cons, ruleFor_eq, List.mem_cons, ih]
      constructor
      · rintro (rfl | ⟨⟨f, hf, hpath⟩, ht⟩)
        · exact ⟨⟨field, List.mem_cons_self, rfl⟩, hmatch⟩
        · exact ⟨⟨f, List.mem_cons_of_mem field hf, hpath⟩, ht⟩
      · rintro ⟨⟨f, hf, rfl⟩, ht⟩
        rcases List.mem_cons.mp hf with rfl | hf
        · exact .inl rfl
        · exact .inr ⟨⟨f, hf, rfl⟩, ht⟩
    · rw [propose_cons_of_not_hasMatch newId fields hmatch, ih]
      refine and_congr_left fun ht => ?_
      have hne : field.path ≠ t := by
        rintro rfl
        exact hmatch ht
      simp [hne]

/-- **Exactly what rules are proposed for**: leaves that are no rule's target, with a path that is
alike enough. -/
theorem mem_map_targetPath_proposeFor :
    t ∈ (Proposal.proposeFor newId p paths threshold).map Rule.targetPath ↔
      t ∉ p.targetPaths ∧ (∃ f ∈ p.template.leaves, f.path = t) ∧
        Proposal.HasMatch paths threshold t := by
  rw [Proposal.proposeFor, mem_map_targetPath_propose]
  constructor
  · rintro ⟨⟨f, hf, rfl⟩, hmatch⟩
    obtain ⟨hleaf, hopen⟩ := mem_openFields_iff.mp hf
    exact ⟨hopen, ⟨f, hleaf, rfl⟩, hmatch⟩
  · rintro ⟨hopen, ⟨f, hleaf, rfl⟩, hmatch⟩
    exact ⟨⟨f, mem_openFields_iff.mpr ⟨hleaf, hopen⟩, rfl⟩, hmatch⟩

/-- The slot of a proposed rule is its target, from no source in particular. -/
theorem slot_of_mem_proposeFor (h : r ∈ Proposal.proposeFor newId p paths threshold) :
    r.slot = (none, r.targetPath) := by
  obtain ⟨id, path, f, -, rfl⟩ := exists_ruleFor_of_mem_propose h
  rw [Rule.slot, ruleFor_eq]

/-- Proposed rules pass over the rules that are there. -/
theorem apart_of_mem_proposeFor (hnew : NewIds newId p p.template.fields.length)
    (hr : r ∈ Proposal.proposeFor newId p paths threshold) (hs : s ∈ p.rules) :
    r.apart s = true := by
  rw [Rule.apart_iff]
  constructor
  · intro heq
    apply (hnew.proposeFor paths threshold).2 r hr
    exact heq ▸ List.mem_map_of_mem hs
  · intro heq
    apply (mem_map_targetPath_proposeFor.mp (List.mem_map_of_mem hr)).1
    have htarget : s.targetPath = r.targetPath := congrArg Prod.snd heq
    exact htarget ▸ List.mem_map_of_mem hs

/-! ## What is added -/

/-- **The rules that are added** to a plan: what its proposals come to by themselves. -/
def added (newId : Nat → String) (p : Plan) (paths : List String) (threshold : Float) : List Rule :=
  ((Proposal.proposeFor newId p paths threshold).foldl withRule { p with rules := [] }).rules

/-- What is added goes behind the rules that are there. -/
theorem withProposals_eq_append (hnew : NewIds newId p p.template.fields.length)
    (paths : List String) (threshold : Float) :
    p.withProposals newId paths threshold =
      { p with rules := p.rules ++ added newId p paths threshold } := by
  have happart : ∀ r ∈ Proposal.proposeFor newId p paths threshold, ∀ s ∈ p.rules,
      r.apart s = true := by
    intro r hr s hs
    exact apart_of_mem_proposeFor hnew hr hs
  have hfold := foldl_withRule_append happart p []
  rw [List.append_nil] at hfold
  exact hfold

theorem exists_of_mem_added (h : s ∈ added newId p paths threshold) :
    ∃ r ∈ Proposal.proposeFor newId p paths threshold, s = { r with id := s.id } :=
  (mem_foldl_withRule h).resolve_left List.not_mem_nil

/-- **Proposed rules go behind the rules that are there.** -/
theorem exists_rules_withProposals (hnew : NewIds newId p p.template.fields.length)
    (paths : List String) (threshold : Float) :
    ∃ added, (p.withProposals newId paths threshold).rules = p.rules ++ added ∧
      ∀ s ∈ added,
        ∃ t ∈ Proposal.proposeFor newId p paths threshold, s = { t with id := s.id } := by
  refine ⟨added newId p paths threshold, ?_, fun s hs => exists_of_mem_added hs⟩
  rw [withProposals_eq_append hnew]

/-- What is added has distinct targets, also when two proposals have the same one. -/
theorem nodup_map_targetPath_added (hnew : NewIds newId p p.template.fields.length)
    (paths : List String) (threshold : Float) :
    ((added newId p paths threshold).map Rule.targetPath).Nodup := by
  have hslots : ((added newId p paths threshold).map Rule.slot).Nodup :=
    nodup_slots_foldl_withRule List.nodup_nil (hnew.proposeFor paths threshold).1
      fun r _ => List.not_mem_nil
  have htargets : (added newId p paths threshold).map Rule.slot =
      ((added newId p paths threshold).map Rule.targetPath).map (Prod.mk none) := by
    rw [List.map_map]
    apply List.map_congr_left
    intro s hs
    obtain ⟨r, hr, heq⟩ := exists_of_mem_added hs
    have hslot : r.slot = (none, r.targetPath) := slot_of_mem_proposeFor hr
    rw [heq]
    exact hslot
  exact List.Nodup.of_map _ (htargets ▸ hslots)

/-- What is added is for every leaf that was open and has a path that is alike enough. -/
theorem mem_map_targetPath_added (hnew : NewIds newId p p.template.fields.length) :
    t ∈ (added newId p paths threshold).map Rule.targetPath ↔
      t ∉ p.targetPaths ∧ (∃ f ∈ p.template.leaves, f.path = t) ∧
        Proposal.HasMatch paths threshold t := by
  have hfold : t ∈ (added newId p paths threshold).map Rule.targetPath ↔
      t ∈ [] ∨ t ∈ (Proposal.proposeFor newId p paths threshold).map Rule.targetPath :=
    mem_targetPaths_foldl_withRule (hnew.proposeFor paths threshold).1 fun r _ => List.not_mem_nil
  rw [hfold, or_iff_right List.not_mem_nil, mem_map_targetPath_proposeFor]

/-- **Nothing is proposed for a plan that has its proposals.** -/
theorem proposeFor_withProposals (hnew : NewIds newId p p.template.fields.length)
    (newId' : Nat → String) (paths : List String) (threshold : Float) :
    Proposal.proposeFor newId' (p.withProposals newId paths threshold) paths threshold = [] := by
  rw [List.eq_nil_iff_forall_not_mem]
  intro r hr
  obtain ⟨hopen, hleaf, hmatch⟩ := mem_map_targetPath_proposeFor.mp (List.mem_map_of_mem hr)
  rw [template_withProposals] at hleaf
  rw [withProposals_eq_append hnew, targetPaths, List.map_append, List.mem_append, not_or] at hopen
  -- a leaf with a path that is alike enough has a rule by now
  exact hopen.2 ((mem_map_targetPath_added hnew).mpr ⟨hopen.1, hleaf, hmatch⟩)

/-- **Adding what is proposed** keeps the rules that are there in front, and all else as it is. The
rules behind them have distinct targets: the leaves that were no rule's target and have a path that
is alike enough. Done once more, whatever the ids, it changes nothing. -/
theorem withProposals_conservative_idempotent (hnew : NewIds newId p p.template.fields.length)
    (paths : List String) (threshold : Float) :
    (∃ added, p.withProposals newId paths threshold = { p with rules := p.rules ++ added } ∧
        (added.map Rule.targetPath).Nodup ∧
        ∀ t, t ∈ added.map Rule.targetPath ↔
          t ∉ p.targetPaths ∧ (∃ f ∈ p.template.leaves, f.path = t) ∧
            Proposal.HasMatch paths threshold t) ∧
      ∀ newId', (p.withProposals newId paths threshold).withProposals newId' paths threshold =
        p.withProposals newId paths threshold := by
  constructor
  · exact ⟨added newId p paths threshold, withProposals_eq_append hnew paths threshold,
      nodup_map_targetPath_added hnew paths threshold, fun t => mem_map_targetPath_added hnew⟩
  · intro newId'
    show (Proposal.proposeFor newId' (p.withProposals newId paths threshold) paths threshold).foldl
      withRule _ = _
    rw [proposeFor_withProposals hnew, List.foldl_nil]

/-- A template with a field that is there twice, beside one that has a rule. -/
def mailPlan : Plan where
  template := { fields := [{ path := "mail" }, { path := "name" }, { path := "mail" }] }
  rules := [{ id := "name", sourcePath := "fullName", targetPath := "name" }]

/-- It gets one rule for the mail, and no other one afterwards. -/
theorem withProposals_conservative_idempotent_mail :
    NewIds userIds mailPlan mailPlan.template.fields.length ∧
      ∃ added, mailPlan.withProposals userIds ["mail"] 0.7 =
          { mailPlan with rules := mailPlan.rules ++ added } ∧
        added.map Rule.targetPath = ["mail"] ∧
        (mailPlan.withProposals userIds ["mail"] 0.7).withProposals userIds ["mail"] 0.7 =
          mailPlan.withProposals userIds ["mail"] 0.7 := by
  have hnew : NewIds userIds mailPlan mailPlan.template.fields.length := ⟨by decide, by decide⟩
  obtain ⟨⟨added, heq, hnodup, hmem⟩, htwice⟩ :=
    withProposals_conservative_idempotent hnew ["mail"] 0.7
  refine ⟨hnew, added, heq, ?_, htwice userIds⟩
  apply List.perm_singleton.mp
  rw [List.perm_ext_iff_of_nodup hnodup (List.nodup_singleton _)]
  intro t
  rw [hmem, List.mem_singleton]
  constructor
  · rintro ⟨hopen, ⟨f, hf, rfl⟩, -⟩
    have hfield : f ∈ mailPlan.template.fields := List.mem_of_mem_filter hf
    simp only [mailPlan, List.mem_cons, List.not_mem_nil, or_false] at hfield
    rcases hfield with rfl | rfl | rfl
    · rfl
    · exact absurd hopen (by decide)
    · rfl
  · rintro rfl
    exact ⟨by decide, ⟨_, List.mem_cons_self, rfl⟩,
      Proposal.hasMatch_of_mem (by decide) (by decide)⟩

end Reshape.Plan
