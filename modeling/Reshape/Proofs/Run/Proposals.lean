/-
# Reshape.Proofs.Run.Proposals -- what proposed rules leave in place

Rules are proposed for leaves of the template that are no rule's target, and they go behind the rules
that are there. As later rules overwrite what earlier ones wrote, it matters where they write to.

No proposed rule has the target of a rule that is there. But a rule that collects an array strips its
target, and then the place that it writes to can be a leaf for which a rule is proposed: exactly when
it has no rule of its own and some path is alike enough (`get?_target_withProposals`, the first
part). What a rule has written stays in place as long as each proposed rule, when its turn comes,
parts from that place or writes nothing (the last part). It is not enough that the targets differ, as
one of them may lead on from the other. Where the place spells no position it is enough that they
diverge (`get?_target_withProposals_of_diverge`).
-/

import Reshape.Proofs.Plan.Proposals
import Reshape.Proofs.Run.Written

namespace Reshape

/-! ## Runs with proposed rules -/

namespace Run

variable {c : Context} {r : Plan.Rule}
variable {newId : Nat → String} {paths : List String} {threshold : Float}

/-- The context with the rules that are proposed for its plan. -/
def Context.withProposals (newId : Nat → String) (c : Context) (paths : List String)
    (threshold : Float) : Context :=
  { c with plan := c.plan.withProposals newId paths threshold }

/-- A rule does the same beside whatever other rules. -/
theorem runRule_withProposals :
    runRule (c.withProposals newId paths threshold) = runRule c := by
  rw [Context.withProposals, Plan.withProposals, Plan.foldl_withRule_eq]
  rfl

/-- The rules behind those of the plan go on with the output that these leave. -/
theorem runRecord_withProposals {o : Options} {record : Json} {index : Option Nat}
    {added : List Plan.Rule} (hdefaults : o.templateDefaults = false)
    (hrules : (c.plan.withProposals newId paths threshold).rules = c.plan.rules ++ added) :
    runRecord (c.withProposals newId paths threshold) o record index =
      added.foldl (runRule c record index) (runRecord c o record index) := by
  rw [runRecord, runRecord, hdefaults, runRule_withProposals]
  show (c.plan.withProposals newId paths threshold).rules.foldl _ _ = _
  rw [hrules, List.foldl_append]
  rfl

/-- **What proposed rules leave in place.** Let a rule be in a plan for which rules are proposed.
One of these has the place of the rule for its target exactly when that place is a leaf of the
template and no rule's target, with a path that is alike enough; and only a rule that strips its
target has a place that is no rule's target. The proposed rules go behind those of the plan. A value
that is at the place of the rule without them is there with them, if each of them spares the place
when its turn comes. -/
theorem get?_target_withProposals (hr : r ∈ c.plan.rules)
    (hnew : Plan.NewIds newId c.plan c.plan.template.fields.length) :
    (target r ∈ (Proposal.proposeFor newId c.plan paths threshold).map Plan.Rule.targetPath ↔
        Strips r ∧ target r ∉ c.plan.targetPaths ∧
          (∃ f ∈ c.plan.template.leaves, f.path = target r) ∧
            Proposal.HasMatch paths threshold (target r)) ∧
      ∃ added, (c.plan.withProposals newId paths threshold).rules = c.plan.rules ++ added ∧
        (∀ s ∈ added, ∃ t ∈ Proposal.proposeFor newId c.plan paths threshold,
          s = { t with id := s.id }) ∧
        ∀ (o : Options) (record value : Json) (index : Option Nat), o.templateDefaults = false →
          Json.Leads value (Path.written (target r)) (runRecord c o record index) →
          InTurn (runRule c record index) (Spares c record index (Path.written (target r)))
            (runRecord c o record index) added →
          (runRecord (c.withProposals newId paths threshold) o record index).get? (target r) =
            some value := by
  refine ⟨?_, ?_⟩
  · rw [Plan.mem_map_targetPath_proposeFor]
    refine ⟨fun h => ⟨?_, h⟩, fun h => h.2⟩
    by_contra hstrips
    rw [target_of_not_strips hstrips] at h
    exact h.1 (List.mem_map_of_mem hr)
  · obtain ⟨added, hrules, hadded⟩ := Plan.exists_rules_withProposals hnew paths threshold
    refine ⟨added, hrules, hadded, ?_⟩
    intro o record value index hdefaults hvalue hturns
    rw [runRecord_withProposals hdefaults hrules, Json.get?_eq_follow?]
    exact (hturns.foldl (fun _ _ hspares => hspares.leads) hvalue).follow?

/-- **What proposed rules leave in place, whatever the output is**: a value at the place of a rule
whose path spells no position, if the targets of all proposed rules diverge from that path. -/
theorem get?_target_withProposals_of_diverge {o : Options} {record value : Json}
    {index : Option Nat} (hnew : Plan.NewIds newId c.plan c.plan.template.fields.length)
    (hdefaults : o.templateDefaults = false)
    (hnames : ∀ key ∈ Path.written (target r), Decimal.unsigned? key = none)
    (hdiverge : ∀ s ∈ Proposal.proposeFor newId c.plan paths threshold,
      Path.Diverge (Path.written (target s)) (Path.written (target r)))
    (hvalue : Json.Leads value (Path.written (target r)) (runRecord c o record index)) :
    (runRecord (c.withProposals newId paths threshold) o record index).get? (target r) =
      some value := by
  obtain ⟨added, hrules, hadded⟩ := Plan.exists_rules_withProposals hnew paths threshold
  have halone : ∀ s ∈ added, LeavesAlone c record index (Path.written (target r)) s := by
    intro s hs
    obtain ⟨t, ht, heq⟩ := hadded s hs
    have htarget : target s = target t := by rw [heq]; rfl
    exact .inr (.inr (htarget ▸ hdiverge t ht))
  rw [runRecord_withProposals hdefaults hrules, Json.get?_eq_follow?]
  exact (leads_foldl_runRule hnames halone hvalue).follow?

/-- A plan that collects names, and a template with one field. -/
def leafContext (leaf : String) : Context where
  plan :=
    { selection := { sources := [{ id := "s" }], primaryPath := some "" }
      template := { fields := [{ path := leaf }] }
      rules := [namesRule "names[*]"] }
  primaryId := some "s"
  others := []

/-- A record with a person, and a number of rooms. -/
def roomRecord : Json :=
  .obj [("people", .arr [.obj [("name", .str "Ada")]]), ("rooms", Json.nat 2)]

/-- The rule for the number of rooms. -/
def roomRule : Plan.Rule :=
  { id := "new", sourcePath := "rooms", targetPath := "rooms" }

/-- That rule is proposed. -/
theorem proposeFor_rooms :
    Proposal.proposeFor (fun _ => "new") (leafContext "rooms").plan ["rooms"] 0.7 =
      [roomRule] := by
  have hopen : Proposal.openFields (leafContext "rooms").plan = [{ path := "rooms" }] := rfl
  have hbest : Proposal.best? "rooms" ["rooms"] = some ("rooms", 1.0) := by
    rw [Proposal.best?_cons, List.foldl_nil, Proposal.similarity_self]
  have hkept : ¬ (1.0 : Float) < 0.7 := by decide
  rw [Proposal.proposeFor, hopen, Proposal.propose, hbest]
  exact if_neg hkept

/-- The names stay where they are beside the rooms, to which the proposed rule writes. -/
theorem get?_target_withProposals_rooms :
    "names" ∉ (Proposal.proposeFor (fun _ => "new") (leafContext "rooms").plan ["rooms"] 0.7).map
        Plan.Rule.targetPath ∧
      (runRecord ((leafContext "rooms").withProposals (fun _ => "new") ["rooms"] 0.7)
        { templateDefaults := false } roomRecord none).get? "names" =
          some (.arr [.str "Ada"]) := by
  have hnew : Plan.NewIds (fun _ => "new") (leafContext "rooms").plan 1 := ⟨by decide, by decide⟩
  have htarget : target (namesRule "names[*]") = "names" := by decide
  obtain ⟨hhit, added, hrules, -, hkept⟩ := @get?_target_withProposals (leafContext "rooms")
    (namesRule "names[*]") (fun _ => "new") ["rooms"] 0.7 List.mem_cons_self hnew
  have hsame : (leafContext "rooms").plan.rules ++ added =
      (leafContext "rooms").plan.rules ++ [roomRule] := by
    rw [← hrules, Plan.withProposals, proposeFor_rooms]
    rfl
  rw [htarget] at hhit hkept
  constructor
  · rw [hhit]
    rintro ⟨-, -, ⟨f, hf, hpath⟩, -⟩
    obtain rfl := List.mem_singleton.mp hf
    exact absurd hpath (by decide)
  · apply hkept _ _ _ _ rfl (.member rfl .here)
    rw [List.append_cancel_left hsame]
    exact ⟨.inr (.inr (.members (by decide))), trivial⟩

/-- **A proposed rule can write to the place of a rule that is there**: the names that are collected
for `names[*]` are at `names`, which is a leaf to which no rule is taken to write. -/
theorem not_forall_targetPath_ne_target :
    ¬ ∀ (newId : Nat → String) (p : Plan) (paths : List String) (threshold : Float)
      (r s : Plan.Rule), r ∈ p.rules → s ∈ Proposal.proposeFor newId p paths threshold →
      s.targetPath ≠ target r := by
  intro h
  have htarget : target (namesRule "names[*]") = "names" := by decide
  have hmatch : Proposal.HasMatch ["people[*].name", "names"] 0.7 "names" :=
    Proposal.hasMatch_of_mem (by decide) (by decide)
  have hhit : "names" ∈ (Proposal.proposeFor (fun _ => "new") (leafContext "names").plan
      ["people[*].name", "names"] 0.7).map Plan.Rule.targetPath := by
    rw [Plan.mem_map_targetPath_proposeFor]
    exact ⟨by decide, ⟨_, List.mem_cons_self, rfl⟩, hmatch⟩
  obtain ⟨s, hs, hpath⟩ := List.mem_map.mp hhit
  exact h _ _ _ _ (namesRule "names[*]") s List.mem_cons_self hs (hpath.trans htarget.symm)

end Run

end Reshape
