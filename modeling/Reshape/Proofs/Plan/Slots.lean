/-
# Reshape.Proofs.Plan.Slots -- one rule for each slot

The slot of a rule is the source that it reads and the path that it writes. A rule that is added is
looked for by its id first, and only then by its slot: the rule with its id is replaced, or the one
in its slot, which passes on its id, or the rule goes last (`withRule_cases`).

So slots that are distinct stay distinct unless the id and the slot of the new rule are those of two
different rules (`Straddles`): then the one with the id moves into the slot, and the other one stays
there. In all other cases the new rule is the only one in its slot. Rules that have neither its id
nor its slot are left alone, and in their order, whatever the new rule is
(`slots_withRule_nodup_iff`).
-/

import Reshape.Proofs.Plan.Integrity

namespace Reshape.Plan

variable {p : Plan} {r : Rule}

/-! ## Rules that are left alone -/

/-- A rule has neither the id nor the slot of another one. -/
def Rule.apart (r s : Rule) : Bool :=
  s.id != r.id && !s.sameSlot r

theorem Rule.apart_of_id {s : Rule} (h : s.id = r.id) : r.apart s = false := by
  simp [Rule.apart, h]

theorem Rule.apart_of_slot {s : Rule} (h : s.slot = r.slot) : r.apart s = false := by
  simp [Rule.apart, Rule.sameSlot_iff.mpr h]

/-- **Rules with neither the id nor the slot** of the new rule stay as they are. -/
theorem filter_apart_withRule (p : Plan) (r : Rule) :
    (p.withRule r).rules.filter r.apart = p.rules.filter r.apart := by
  -- what is replaced is not apart from the new rule, and neither is what replaces it
  have hreplace : ∀ (before after : List Rule) (s t : Rule), r.apart s = false →
      r.apart t = false → (before ++ t :: after).filter r.apart =
        (before ++ s :: after).filter r.apart := by
    intro before after s t hs ht
    simp [hs, ht]
  rcases withRule_cases p r with ⟨before, s, after, hp, -, hid, heq⟩ |
    ⟨-, before, s, after, hp, -, hslot, heq⟩ | ⟨-, -, heq⟩
  · rw [heq, hp]
    exact hreplace before after s r (Rule.apart_of_id hid) (Rule.apart_of_id rfl)
  · rw [heq, hp]
    exact hreplace before after s _ (Rule.apart_of_slot hslot) (Rule.apart_of_slot rfl)
  · rw [heq, List.filter_append, List.filter_singleton, Rule.apart_of_id rfl]
    exact List.append_nil _

/-! ## Distinct slots -/

/-- **A rule straddles two others**: the first one with its id is in another slot, and its own slot
is taken. -/
def Straddles (p : Plan) (r : Rule) : Prop :=
  ∃ s, p.findRule? r.id = some s ∧ s.slot ≠ r.slot ∧ r.slot ∈ p.slots

/-- A rule with a new id straddles nothing. -/
theorem not_straddles_of_not_mem (h : r.id ∉ p.ruleIds) : ¬ p.Straddles r := by
  rintro ⟨s, hs, -⟩
  apply h
  have hid : (s.id == r.id) = true := List.find?_some (p := fun u : Rule => u.id == r.id) hs
  exact List.mem_map.mpr ⟨s, List.mem_of_find?_eq_some hs, eq_of_beq hid⟩

/-- Where the first rule with the id is known, so is what it means to straddle. -/
theorem straddles_iff {before after : List Rule} {s : Rule} (hp : p.rules = before ++ s :: after)
    (hbefore : ∀ t ∈ before, t.id ≠ r.id) (hid : s.id = r.id) :
    p.Straddles r ↔ s.slot ≠ r.slot ∧ r.slot ∈ (before ++ after).map Rule.slot := by
  have hfind : p.findRule? r.id = some s := by
    have hnone : before.find? (fun t => t.id == r.id) = none := by
      rw [List.find?_eq_none]
      intro t ht
      simpa using hbefore t ht
    rw [findRule?, hp, List.find?_append, hnone, Option.none_or, List.find?_cons, hid, BEq.rfl]
  unfold Straddles slots
  rw [hfind, hp]
  constructor
  · rintro ⟨_, ⟨⟩, hne, hmem⟩
    refine ⟨hne, ?_⟩
    simpa [hne.symm] using hmem
  · rintro ⟨hne, hmem⟩
    refine ⟨s, rfl, hne, ?_⟩
    simp only [List.map_append, List.map_cons, List.mem_append, List.mem_cons] at hmem ⊢
    rcases hmem with hmem | hmem
    · exact .inl hmem
    · exact .inr (.inr hmem)

/-- Distinct keys around one item. -/
theorem nodup_map_split_iff {α β : Type} {key : α → β} {before after : List α} {x : α} :
    ((before ++ x :: after).map key).Nodup ↔
      key x ∉ (before ++ after).map key ∧ ((before ++ after).map key).Nodup := by
  rw [(List.perm_middle.map key).nodup_iff, List.map_cons, List.nodup_cons]

/-- The rules in a slot, when one rule is known to be the only one in it. -/
theorem filter_sameSlot_eq {before after : List Rule} {s : Rule} (hs : s.slot = r.slot)
    (h : r.slot ∉ (before ++ after).map Rule.slot) :
    (before ++ s :: after).filter (fun t => t.sameSlot r) = [s] := by
  have hnone : ∀ rules : List Rule, r.slot ∉ rules.map Rule.slot →
      rules.filter (fun t => t.sameSlot r) = [] := by
    intro rules hrules
    rw [List.filter_eq_nil_iff]
    intro t ht hsame
    exact hrules (List.mem_map.mpr ⟨t, ht, Rule.sameSlot_iff.mp hsame⟩)
  rw [List.map_append, List.mem_append, not_or] at h
  have hin : s.sameSlot r = true := Rule.sameSlot_iff.mpr hs
  rw [List.filter_append, hnone before h.1, List.nil_append, List.filter_cons, if_pos hin,
    hnone after h.2]

/-- **The new rule is there afterwards**, among rules in distinct slots. Its own slot is one of
theirs exactly when it straddles two rules. -/
theorem exists_split_withRule (h : p.slots.Nodup) (r : Rule) :
    ∃ before id after, (p.withRule r).rules = before ++ { r with id := id } :: after ∧
      ((before ++ after).map Rule.slot).Nodup ∧
        (p.Straddles r ↔ r.slot ∈ (before ++ after).map Rule.slot) := by
  unfold slots at h
  rcases withRule_cases p r with ⟨before, s, after, hp, hbefore, hid, heq⟩ |
    ⟨hnew, before, s, after, hp, -, hslot, heq⟩ | ⟨hnew, hslot, heq⟩
  · rw [hp, nodup_map_split_iff] at h
    refine ⟨before, r.id, after, heq, h.2, ?_⟩
    rw [straddles_iff hp hbefore hid]
    refine ⟨fun hboth => hboth.2, fun hmem => ⟨?_, hmem⟩⟩
    intro hsame
    exact h.1 (hsame ▸ hmem)
  · rw [hp, nodup_map_split_iff, hslot] at h
    exact ⟨before, s.id, after, heq, h.2, iff_of_false (not_straddles_of_not_mem hnew) h.1⟩
  · refine ⟨p.rules, r.id, [], heq, ?_⟩
    rw [List.append_nil]
    exact ⟨h, iff_of_false (not_straddles_of_not_mem hnew) hslot⟩

/-- **What adding a rule does to distinct slots.** They stay distinct exactly when the rule does not
straddle two others, and then it is the only one in its slot, all but perhaps its id as it was
given. In any case it is there afterwards, and rules with neither its id nor its slot stay as they
are, in their order. -/
theorem slots_withRule_nodup_iff (h : p.slots.Nodup) (r : Rule) :
    ((p.withRule r).slots.Nodup ↔ ¬ p.Straddles r) ∧
      (¬ p.Straddles r →
        ∃ id, (p.withRule r).rules.filter (fun s => s.sameSlot r) = [{ r with id := id }]) ∧
      (∃ id, { r with id := id } ∈ (p.withRule r).rules) ∧
      (p.withRule r).rules.filter r.apart = p.rules.filter r.apart := by
  obtain ⟨before, id, after, heq, hnodup, hstraddles⟩ := exists_split_withRule h r
  refine ⟨?_, fun hnot => ⟨id, ?_⟩, ⟨id, ?_⟩, filter_apart_withRule p r⟩
  · rw [hstraddles, slots, heq, nodup_map_split_iff]
    exact and_iff_left hnodup
  · rw [heq]
    exact filter_sameSlot_eq rfl (mt hstraddles.mpr hnot)
  · rw [heq]
    exact List.mem_append_right before List.mem_cons_self

/-- Names from two sources, and a mail. -/
def twoSourcePlan : Plan where
  rules :=
    [{ id := "name", sourcePath := "first", targetPath := "name" },
      { id := "crm", sourcePath := "name", targetPath := "name", sourceId := some "crm" },
      { id := "mail", sourcePath := "mail", targetPath := "mail" }]

/-- A rule with the id of the mail, for a slot that is free. -/
def phoneRule : Rule :=
  { id := "mail", sourcePath := "phone", targetPath := "phone" }

/-- It takes the place of the rule for the mail. -/
theorem slots_withRule_nodup_iff_phone :
    twoSourcePlan.slots.Nodup ∧ ¬ twoSourcePlan.Straddles phoneRule ∧
      (twoSourcePlan.withRule phoneRule).slots.Nodup ∧
      ∃ id, (twoSourcePlan.withRule phoneRule).rules.filter (fun s => s.sameSlot phoneRule) =
        [{ phoneRule with id := id }] := by
  have hslots : twoSourcePlan.slots.Nodup := by decide
  have hnot : ¬ twoSourcePlan.Straddles phoneRule := by
    rintro ⟨s, -, -, hmem⟩
    exact absurd hmem (by decide)
  obtain ⟨hiff, hone, -, -⟩ := slots_withRule_nodup_iff hslots phoneRule
  exact ⟨hslots, hnot, hiff.mpr hnot, hone hnot⟩

/-- A rule with the id of the mail, for the slot of the first name. -/
def straddlingRule : Rule :=
  { id := "mail", sourcePath := "nick", targetPath := "name" }

/-- **A rule that straddles two others ends up in a slot with one of them.** -/
theorem not_forall_slots_withRule_nodup :
    ¬ ∀ (p : Plan) (r : Rule), p.slots.Nodup →
      (p.withRule r).slots.Nodup ∧
        (∃ id, (p.withRule r).rules.filter (fun s => s.sameSlot r) = [{ r with id := id }]) ∧
        (p.withRule r).rules.filter r.apart = p.rules.filter r.apart := by
  intro h
  obtain ⟨hnodup, -, -⟩ := h twoSourcePlan straddlingRule (by decide)
  revert hnodup
  decide

end Reshape.Plan
