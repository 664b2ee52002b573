/-
# Reshape.Proofs.Plan.Integrity -- edits keep a plan sound

A plan is sound when nothing in it is there twice and every transformation that a rule refers to is
there (`Sound`). Every edit of `Reshape.Plan.Edit`, and adding proposed rules, makes a sound plan of
a sound one, and keeps the id of every rule but the one that is removed (`Edit.sound_of_apply`).

Adding, replacing and changing all work on lists whose items are known by a key. An item is replaced
by one with the same key, or goes last when its key is new: this is said once, for any key, in the
first section. `withRule` is the edit that needs it twice, as a rule is looked for by its id and
then by its slot, the source that it reads and the path that it writes, where it takes on the id
that it finds. All that can come of this is said in `withRule_cases`.
-/

import Mathlib.Data.List.Nodup
import Reshape.Proofs.Except
import Reshape.Proposal.Basic

namespace Reshape.Plan

/-! ## Lists of items with keys -/

section Keys

variable {α : Type} {key : α → String} {wanted : α → Bool} {change : α → α} {xs ys : List α}

/-- A change that leaves keys alone leaves the list of keys alone. -/
theorem map_changeFirst? (h : changeFirst? wanted change xs = some ys)
    (hkey : ∀ x, wanted x = true → key (change x) = key x) : ys.map key = xs.map key := by
  induction xs generalizing ys with
  | nil => cases h
  | cons x xs ih =>
    rw [changeFirst?] at h
    split at h
    case isTrue hx =>
      cases h
      rw [List.map_cons, List.map_cons, hkey x hx]
    case isFalse =>
      obtain ⟨zs, hzs, rfl⟩ := Option.map_eq_some_iff.mp h
      rw [List.map_cons, List.map_cons, ih hzs]

/-- After a change an item is where it was, or it is the changed one in the place of the first that
was wanted. -/
theorem getElem?_changeFirst? (h : changeFirst? wanted change xs = some ys) {k : Nat} {y : α}
    (hy : ys[k]? = some y) :
    xs[k]? = some y ∨ ∃ x, xs.find? wanted = some x ∧ xs[k]? = some x ∧ y = change x := by
  induction xs generalizing ys k with
  | nil => cases h
  | cons x xs ih =>
    rw [changeFirst?] at h
    split at h
    case isTrue hx =>
      cases h
      cases k with
      | zero =>
        obtain rfl := Option.some.inj hy
        exact .inr ⟨x, List.find?_cons_of_pos hx, rfl, rfl⟩
      | succ k => exact .inl hy
    case isFalse hx =>
      obtain ⟨zs, hzs, rfl⟩ := Option.map_eq_some_iff.mp h
      cases k with
      | zero => exact .inl hy
      | succ k =>
        rcases ih hzs hy with hsame | ⟨z, hfind, hz, rfl⟩
        · exact .inl hsame
        · exact .inr ⟨z, (List.find?_cons_of_neg hx).trans hfind, hz, rfl⟩

/-- After a change there is nothing but what was there, and the changed item. -/
theorem mem_of_mem_changeFirst? (h : changeFirst? wanted change xs = some ys) {y : α}
    (hy : y ∈ ys) : y ∈ xs ∨ ∃ x, xs.find? wanted = some x ∧ y = change x := by
  obtain ⟨k, hk⟩ := List.mem_iff_getElem?.mp hy
  rcases getElem?_changeFirst? h hk with hsame | ⟨x, hfind, -, hx⟩
  · exact .inl (List.mem_of_getElem? hsame)
  · exact .inr ⟨x, hfind, hx⟩

/-- Without an item to change there is none that is wanted. -/
theorem not_wanted_of_changeFirst?_eq_none (h : changeFirst? wanted change xs = none) :
    ∀ x ∈ xs, wanted x = false := by
  induction xs with
  | nil => exact fun x hx => absurd hx List.not_mem_nil
  | cons x xs ih =>
    rw [changeFirst?] at h
    split at h
    case isTrue => cases h
    case isFalse hx =>
      rw [List.forall_mem_cons]
      exact ⟨eq_false_of_ne_true hx, ih (Option.map_eq_none_iff.mp h)⟩

/-- **A change is made in one place**, behind items that are not wanted. -/
theorem exists_split_of_changeFirst? (h : changeFirst? wanted change xs = some ys) :
    ∃ before x after, xs = before ++ x :: after ∧ (∀ y ∈ before, wanted y = false) ∧
      wanted x = true ∧ ys = before ++ change x :: after := by
  induction xs generalizing ys with
  | nil => cases h
  | cons x xs ih =>
    unfold changeFirst? at h
    split at h
    case isTrue hx =>
      cases h
      exact ⟨[], x, xs, rfl, by simp, hx, rfl⟩
    case isFalse hx =>
      obtain ⟨zs, hzs, rfl⟩ := Option.map_eq_some_iff.mp h
      obtain ⟨before, y, after, rfl, hbefore, hy, rfl⟩ := ih hzs
      refine ⟨x :: before, y, after, rfl, ?_, hy, rfl⟩
      intro z hz
      rcases List.mem_cons.mp hz with rfl | hz
      · exact eq_false_of_ne_true hx
      · exact hbefore z hz

/-- A key that no item was found by is a new key. -/
theorem key_not_mem_of_changeFirst?_eq_none {k : String}
    (h : changeFirst? (fun x => key x == k) change xs = none) : k ∉ xs.map key := by
  intro hk
  obtain ⟨x, hx, rfl⟩ := List.mem_map.mp hk
  have hne := not_wanted_of_changeFirst?_eq_none h x hx
  rw [beq_self_eq_true] at hne
  cases hne

/-- **Putting an item in place** keeps the keys, or adds its own at the end when it is new. -/
theorem map_putInPlace (item : α) (xs : List α) :
    (putInPlace (fun x => key x == key item) item xs).map key = xs.map key ∨
      key item ∉ xs.map key ∧
        (putInPlace (fun x => key x == key item) item xs).map key = xs.map key ++ [key item] := by
  rw [putInPlace]
  split
  case h_1 ys h => exact .inl (map_changeFirst? h fun x hx => (eq_of_beq hx).symm)
  case h_2 h =>
    refine .inr ⟨key_not_mem_of_changeFirst?_eq_none h, ?_⟩
    rw [List.map_append, List.map_cons, List.map_nil]

/-- Keys that are distinct stay distinct when one is added that is not among them. -/
theorem nodup_of_eq_or_append {ks ks' : List String} {k : String} (hks : ks.Nodup)
    (h : ks' = ks ∨ k ∉ ks ∧ ks' = ks ++ [k]) : ks'.Nodup := by
  rcases h with rfl | ⟨hk, rfl⟩
  · exact hks
  · exact List.nodup_append.mpr ⟨hks, List.nodup_singleton k,
      fun a ha b hb hab => hk (List.mem_singleton.mp hb ▸ hab ▸ ha)⟩

theorem subset_of_eq_or_append {ks ks' : List String} {k : String}
    (h : ks' = ks ∨ k ∉ ks ∧ ks' = ks ++ [k]) : ks ⊆ ks' := by
  rcases h with rfl | ⟨-, rfl⟩
  · exact List.Subset.refl _
  · exact List.subset_append_left ks [k]

theorem nodup_putInPlace {item : α} (h : (xs.map key).Nodup) :
    ((putInPlace (fun x => key x == key item) item xs).map key).Nodup :=
  nodup_of_eq_or_append h (map_putInPlace item xs)

theorem nodup_eraseP {p : α → Bool} (h : (xs.map key).Nodup) : ((xs.eraseP p).map key).Nodup :=
  h.sublist (List.eraseP_sublist.map key)

end Keys

/-! ## Sound plans -/

/-- The ids of the rules. -/
def ruleIds (p : Plan) : List String :=
  p.rules.map Rule.id

/-- The ids of the transformations. -/
def transformIds (p : Plan) : List String :=
  p.transforms.map NamedTransform.id

/-- The rule refers to no transformation, or to one that is there. -/
def Resolves (p : Plan) (r : Rule) : Prop :=
  ∀ id, r.transformId = some id → id ∈ p.transformIds

/-- **A sound plan**: ids and paths are distinct, and what rules refer to is there. -/
structure Sound (p : Plan) : Prop where
  rules : p.ruleIds.Nodup
  sources : (p.selection.sources.map Source.id).Nodup
  transforms : p.transformIds.Nodup
  fields : (p.template.fields.map OutputField.path).Nodup
  resolves : ∀ r ∈ p.rules, p.Resolves r

variable {p q : Plan}

theorem Resolves.of_none {r : Rule} (h : r.transformId = none) : p.Resolves r := by
  intro id hid
  rw [h] at hid
  cases hid

theorem Resolves.of_eq {r s : Rule} (h : p.Resolves r) (hs : s.transformId = r.transformId) :
    p.Resolves s := by
  intro id hid
  exact h id (hs ▸ hid)

/-! ## Sources, fields and the envelope -/

theorem Sound.withSource (h : p.Sound) (s : Source) : (p.withSource s).Sound :=
  { h with sources := nodup_putInPlace h.sources }

theorem Sound.withoutSource (h : p.Sound) {id : String} (hq : p.withoutSource id = .ok q) :
    q.Sound ∧ q.ruleIds = p.ruleIds := by
  rw [Plan.withoutSource] at hq
  split at hq
  case isTrue => cases hq
  case isFalse =>
    cases hq
    exact ⟨{ h with sources := nodup_eraseP h.sources }, rfl⟩

theorem Sound.withOutputField (h : p.Sound) (f : OutputField) : (p.withOutputField f).Sound :=
  { h with fields := nodup_putInPlace h.fields }

/-! ## Rules -/

/-- Rules may be exchanged for others with distinct ids that resolve. -/
theorem Sound.of_rules (h : p.Sound) {rules : List Rule} (hids : (rules.map Rule.id).Nodup)
    (hresolves : ∀ r ∈ rules, p.Resolves r) : Sound { p with rules := rules } :=
  { h with rules := hids, resolves := hresolves }

/-- **The slot of a rule**: the source that it reads, and the path that it writes. -/
def Rule.slot (r : Rule) : Option String × String :=
  (r.sourceId, r.targetPath)

/-- The slots of the rules, in order. -/
def slots (p : Plan) : List (Option String × String) :=
  p.rules.map Rule.slot

theorem Rule.sameSlot_iff {r s : Rule} : r.sameSlot s = true ↔ r.slot = s.slot := by
  simp [Rule.sameSlot, Rule.slot]

theorem Rule.sameSlot_eq_false_iff {r s : Rule} : r.sameSlot s = false ↔ r.slot ≠ s.slot := by
  rw [← Bool.not_eq_true, Rule.sameSlot_iff]

/-- **All that adding a rule can come to.** The first rule with its id is replaced. Without one, the
first rule in its slot is replaced and passes on its id. Without either, the rule goes last. -/
theorem withRule_cases (p : Plan) (r : Rule) :
    (∃ before s after, p.rules = before ++ s :: after ∧ (∀ t ∈ before, t.id ≠ r.id) ∧ s.id = r.id ∧
        (p.withRule r).rules = before ++ r :: after) ∨
      (r.id ∉ p.ruleIds ∧ ∃ before s after, p.rules = before ++ s :: after ∧
        (∀ t ∈ before, t.slot ≠ r.slot) ∧ s.slot = r.slot ∧
          (p.withRule r).rules = before ++ { r with id := s.id } :: after) ∨
      r.id ∉ p.ruleIds ∧ r.slot ∉ p.slots ∧ (p.withRule r).rules = p.rules ++ [r] := by
  unfold withRule
  split
  case h_1 rules hrules =>
    obtain ⟨before, s, after, hp, hbefore, hs, heq⟩ := exists_split_of_changeFirst? hrules
    refine .inl ⟨before, s, after, hp, ?_, eq_of_beq hs, heq⟩
    intro t ht
    exact beq_eq_false_iff_ne.mp (hbefore t ht)
  case h_2 hid =>
    have hnew : r.id ∉ p.ruleIds := key_not_mem_of_changeFirst?_eq_none hid
    dsimp only
    split
    case h_1 rules hrules =>
      obtain ⟨before, s, after, hp, hbefore, hs, heq⟩ := exists_split_of_changeFirst? hrules
      refine .inr (.inl ⟨hnew, before, s, after, hp, ?_, Rule.sameSlot_iff.mp hs, heq⟩)
      intro t ht
      exact Rule.sameSlot_eq_false_iff.mp (hbefore t ht)
    case h_2 hslot =>
      refine .inr (.inr ⟨hnew, ?_, rfl⟩)
      intro hmem
      obtain ⟨s, hs, heq⟩ := List.mem_map.mp hmem
      have hnone := not_wanted_of_changeFirst?_eq_none hslot s hs
      exact Rule.sameSlot_eq_false_iff.mp hnone heq

/-- **Adding a rule** keeps the ids of the others, and adds its own if it takes no other's place. -/
theorem ruleIds_withRule (p : Plan) (r : Rule) :
    (p.withRule r).ruleIds = p.ruleIds ∨
      r.id ∉ p.ruleIds ∧ (p.withRule r).ruleIds = p.ruleIds ++ [r.id] := by
  unfold ruleIds
  rcases withRule_cases p r with ⟨before, s, after, hp, -, hid, heq⟩ |
    ⟨-, before, s, after, hp, -, -, heq⟩ | ⟨hnew, -, heq⟩
  · rw [heq, hp]
    simp [hid]
  · rw [heq, hp]
    simp
  · rw [heq]
    exact .inr ⟨hnew, List.map_append⟩

/-- What is there after a rule was added was there before, or is this rule, but perhaps for its
id. -/
theorem mem_withRule {r s : Rule} (h : s ∈ (p.withRule r).rules) :
    s ∈ p.rules ∨ s = { r with id := s.id } := by
  have hsplit : ∀ (before after : List Rule) (t u : Rule), p.rules = before ++ t :: after →
      s ∈ before ++ u :: after → s ∈ p.rules ∨ s = u := by
    intro before after t u hp hs
    rw [hp]
    simp only [List.mem_append, List.mem_cons] at hs ⊢
    tauto
  rcases withRule_cases p r with ⟨before, t, after, hp, -, -, heq⟩ |
    ⟨-, before, t, after, hp, -, -, heq⟩ | ⟨-, -, heq⟩
  · rw [heq] at h
    exact (hsplit before after t r hp h).imp_right fun hs => by rw [hs]
  · rw [heq] at h
    exact (hsplit before after t _ hp h).imp_right fun hs => by rw [hs]
  · rw [heq, List.mem_append, List.mem_singleton] at h
    exact h.imp_right fun hs => by rw [hs]

/-- Adding a rule leaves all but the rules as it is. -/
theorem withRule_eq (p : Plan) (r : Rule) :
    p.withRule r = { p with rules := (p.withRule r).rules } := by
  rw [withRule]
  split <;> rfl

theorem Sound.withRule (h : p.Sound) {r : Rule} (hr : p.Resolves r) : (p.withRule r).Sound := by
  rw [withRule_eq]
  refine h.of_rules (nodup_of_eq_or_append h.rules (ruleIds_withRule p r)) ?_
  intro s hs
  rcases mem_withRule hs with hs | hs
  · exact h.resolves s hs
  · have htransform : s.transformId = r.transformId := by rw [hs]
    exact hr.of_eq htransform

theorem Sound.withoutRule (h : p.Sound) {id : String} (hq : p.withoutRule id = .ok q) :
    q.Sound ∧ ∀ k ∈ p.ruleIds, k ≠ id → k ∈ q.ruleIds := by
  rw [Plan.withoutRule] at hq
  split at hq
  case isTrue => cases hq
  case isFalse =>
    cases hq
    refine ⟨h.of_rules (nodup_eraseP h.rules)
      fun r hr => h.resolves r (List.mem_of_mem_eraseP hr), ?_⟩
    intro k hk hne
    obtain ⟨r, hr, rfl⟩ := List.mem_map.mp hk
    exact List.mem_map.mpr ⟨r, (List.mem_eraseP_of_neg (by simpa using hne)).mpr hr, rfl⟩

/-- What there is after a rule was changed. -/
theorem exists_of_updateRule {id : String} {change : Rule → Rule}
    (h : p.updateRule id change = .ok q) :
    ∃ rules, changeFirst? (fun r => r.id == id) (fun r => { change r with id := id }) p.rules =
        some rules ∧ q = { p with rules := rules } := by
  rw [Plan.updateRule] at h
  split at h
  case h_1 rules hrules =>
    cases h
    exact ⟨rules, hrules, rfl⟩
  case h_2 => cases h

/-- **Changing a rule** keeps all ids, whatever the change does to the rule. -/
theorem Sound.updateRule (h : p.Sound) {id : String} {change : Rule → Rule}
    (hchange : ∀ r, p.findRule? id = some r → p.Resolves (change r))
    (hq : p.updateRule id change = .ok q) : q.Sound ∧ q.ruleIds = p.ruleIds := by
  obtain ⟨rules, hrules, rfl⟩ := exists_of_updateRule hq
  have hids : rules.map Rule.id = p.ruleIds :=
    map_changeFirst? hrules fun r hr => (eq_of_beq hr).symm
  refine ⟨h.of_rules (hids ▸ h.rules) ?_, hids⟩
  intro r hr
  rcases mem_of_mem_changeFirst? hrules hr with hr | ⟨s, hs, rfl⟩
  · exact h.resolves r hr
  · exact (hchange s hs).of_eq rfl

/-- What comes of pinning: pins with the field in its place, and the path that they stand for. -/
theorem exists_of_pinRule {r pinned : Rule} {field : String} {index : Nat}
    (h : pinRule r field index = .ok pinned) :
    ∃ pins changed path, pinsOf r = .ok pins ∧ pins.pin field index = .ok changed ∧
      changed.resolve = .ok path ∧ pinned = { r with sourcePath := path, pins := some changed } := by
  obtain ⟨pins, hpins, h⟩ := bind_eq_ok.mp h
  obtain ⟨changed, hchanged, h⟩ := bind_eq_ok.mp h
  obtain ⟨path, hpath, h⟩ := bind_eq_ok.mp h
  cases h
  exact ⟨pins, changed, path, hpins, hchanged, hpath, rfl⟩

/-- What there is after a field of a rule was pinned. -/
theorem exists_of_withRuleIndex {id field : String} {index : Nat}
    (h : p.withRuleIndex id field index = .ok q) :
    ∃ r pinned, p.findRule? id = some r ∧ pinRule r field index = .ok pinned ∧
      p.updateRule id (fun _ => pinned) = .ok q := by
  rw [Plan.withRuleIndex] at h
  split at h
  case h_1 => cases h
  case h_2 r hr =>
    split at h
    case h_1 pinned hpinned => exact ⟨r, pinned, hr, hpinned, h⟩
    case h_2 => cases h

theorem Sound.withRuleIndex (h : p.Sound) {id field : String} {index : Nat}
    (hq : p.withRuleIndex id field index = .ok q) : q.Sound ∧ q.ruleIds = p.ruleIds := by
  obtain ⟨r, pinned, hr, hpinned, hq⟩ := exists_of_withRuleIndex hq
  obtain ⟨_, _, _, -, -, -, rfl⟩ := exists_of_pinRule hpinned
  refine h.updateRule (fun _ _ => ?_) hq
  -- pinning does not change what a rule refers to
  exact (h.resolves r (List.mem_of_find?_eq_some hr)).of_eq rfl

/-! ## Transformations -/

theorem Sound.withTransform (h : p.Sound) (t : NamedTransform) : (p.withTransform t).Sound :=
  { h with
    transforms := nodup_putInPlace h.transforms
    resolves := fun r hr id hid =>
      subset_of_eq_or_append (map_putInPlace t p.transforms) (h.resolves r hr id hid) }

/-- **Removing a transformation** keeps all rules. Those that referred to it refer to none, and what
the others refer to is still there. -/
theorem Sound.withoutTransform (h : p.Sound) {id : String} (hq : p.withoutTransform id = .ok q) :
    q.Sound ∧ q.ruleIds = p.ruleIds := by
  rw [Plan.withoutTransform] at hq
  split at hq
  case isTrue => cases hq
  case isFalse =>
    cases hq
    have hids : (p.rules.map fun r =>
        if r.transformId == some id then { r with transformId := none } else r).map Rule.id =
          p.ruleIds := by
      rw [List.map_map]
      refine List.map_congr_left fun r _ => ?_
      rw [Function.comp_apply]
      split <;> rfl
    refine ⟨⟨?_, h.sources, h.transforms.sublist (List.filter_sublist.map _), h.fields, ?_⟩, hids⟩
    · rw [ruleIds, hids]
      exact h.rules
    intro r hr
    obtain ⟨s, hs, rfl⟩ := List.mem_map.mp hr
    split
    case isTrue => exact .of_none rfl
    case isFalse hne =>
      -- a reference that is kept is to another transformation, which is not filtered out
      intro k hk
      obtain ⟨t, ht, rfl⟩ := List.mem_map.mp (h.resolves s hs k hk)
      refine List.mem_map.mpr ⟨t, List.mem_filter.mpr ⟨ht, ?_⟩, rfl⟩
      rw [hk] at hne
      simpa using hne

theorem Sound.attachTransform (h : p.Sound) {ruleId : String} {transformId : Option String}
    (hq : p.attachTransform ruleId transformId = .ok q) : q.Sound ∧ q.ruleIds = p.ruleIds := by
  unfold Plan.attachTransform at hq
  split at hq
  case h_1 => exact h.updateRule (fun _ _ => .of_none rfl) hq
  case h_2 id =>
    split at hq
    case isTrue => cases hq
    case isFalse hsome =>
      refine h.updateRule (fun _ _ => ?_) hq
      intro k hk
      cases hk
      cases ht : p.findTransform? id with
      | none => exact absurd (ht ▸ rfl) hsome
      | some t =>
        have hid : (t.id == id) = true :=
          List.find?_some (p := fun u : NamedTransform => u.id == id) ht
        exact List.mem_map.mpr ⟨t, List.mem_of_find?_eq_some ht, eq_of_beq hid⟩

/-! ## Proposals -/

theorem withDerivedPins_eq {r pinned : Rule} (h : r.withDerivedPins = .ok pinned) :
    pinned = { r with pins := pinned.pins } := by
  unfold Rule.withDerivedPins at h
  simp only [bind, Except.bind] at h
  split at h
  case h_1 => cases h
  case h_2 =>
    cases h
    rfl

/-- **A proposed rule** is to the field that it is proposed for. All but its pins is known. -/
theorem ruleFor_eq (id path : String) (field : OutputField) :
    Proposal.ruleFor id path field =
      { id := id, sourcePath := path, targetPath := field.path, fallback := field.defaultValue,
        pins := (Proposal.ruleFor id path field).pins } := by
  rw [Proposal.ruleFor]
  split
  case isTrue =>
    split
    case h_1 pinned h => exact withDerivedPins_eq h
    case h_2 => rfl
  case isFalse => rfl

/-- **Nothing else is proposed** than rules from some path to one of the fields. -/
theorem exists_ruleFor_of_mem_propose {newId : Nat → String} {paths : List String}
    {threshold : Float} {fields : List OutputField} {r : Rule}
    (h : r ∈ Proposal.propose newId paths threshold fields) :
    ∃ id path, ∃ f ∈ fields, r = Proposal.ruleFor id path f := by
  induction fields generalizing newId with
  | nil => cases h
  | cons field fields ih =>
    have hlater : ∀ {newId : Nat → String}, r ∈ Proposal.propose newId paths threshold fields →
        ∃ id path, ∃ f ∈ field :: fields, r = Proposal.ruleFor id path f := by
      intro newId hr
      obtain ⟨id, path, f, hf, heq⟩ := ih hr
      exact ⟨id, path, f, List.mem_cons_of_mem field hf, heq⟩
    rw [Proposal.propose] at h
    split at h
    case h_1 => exact hlater h
    case h_2 path score _ =>
      split at h
      case isTrue => exact hlater h
      case isFalse =>
        rcases List.mem_cons.mp h with rfl | h
        · exact ⟨newId 0, path, field, List.mem_cons_self, rfl⟩
        · exact hlater h

/-- Proposed rules refer to no transformation. -/
theorem transformId_of_mem_propose {newId : Nat → String} {paths : List String} {threshold : Float}
    {fields : List OutputField} {r : Rule}
    (h : r ∈ Proposal.propose newId paths threshold fields) : r.transformId = none := by
  obtain ⟨id, path, f, -, rfl⟩ := exists_ruleFor_of_mem_propose h
  rw [ruleFor_eq]

theorem Sound.foldl_withRule {rules : List Rule} (h : p.Sound)
    (hrules : ∀ r ∈ rules, r.transformId = none) :
    (rules.foldl Plan.withRule p).Sound ∧ p.ruleIds ⊆ (rules.foldl Plan.withRule p).ruleIds := by
  induction rules generalizing p with
  | nil => exact ⟨h, List.Subset.refl _⟩
  | cons r rules ih =>
    obtain ⟨hr, hrest⟩ := List.forall_mem_cons.mp hrules
    obtain ⟨hsound, hids⟩ := ih (h.withRule (.of_none hr)) hrest
    exact ⟨hsound, fun k hk => hids (subset_of_eq_or_append (ruleIds_withRule p r) hk)⟩

theorem Sound.withProposals (h : p.Sound) (newId : Nat → String) (paths : List String)
    (threshold : Float) :
    (p.withProposals newId paths threshold).Sound ∧
      p.ruleIds ⊆ (p.withProposals newId paths threshold).ruleIds :=
  h.foldl_withRule fun _ hr => transformId_of_mem_propose hr

/-! ## All edits -/

/-- **The edits of a plan.** -/
inductive Edit where
  | withSource (source : Source)
  | withoutSource (id : String)
  | withPrimaryPath (path : String)
  | withOutputField (field : OutputField)
  | withRule (rule : Rule)
  | withoutRule (id : String)
  | updateRule (id : String) (change : Rule → Rule)
  | withRuleIndex (id field : String) (index : Nat)
  | withTransform (t : NamedTransform)
  | withoutTransform (id : String)
  | attachTransform (ruleId : String) (transformId : Option String)
  | withEnvelope (envelope : Option Envelope)
  | withProposals (newId : Nat → String) (paths : List String) (threshold : Float)

namespace Edit

/-- The plan that an edit makes. -/
def apply (p : Plan) : Edit → Except Fault Plan
  | .withSource source => .ok (p.withSource source)
  | .withoutSource id => p.withoutSource id
  | .withPrimaryPath path => .ok (p.withPrimaryPath path)
  | .withOutputField field => .ok (p.withOutputField field)
  | .withRule rule => .ok (p.withRule rule)
  | .withoutRule id => p.withoutRule id
  | .updateRule id change => p.updateRule id change
  | .withRuleIndex id field index => p.withRuleIndex id field index
  | .withTransform t => .ok (p.withTransform t)
  | .withoutTransform id => p.withoutTransform id
  | .attachTransform ruleId transformId => p.attachTransform ruleId transformId
  | .withEnvelope envelope => .ok (p.withEnvelope envelope)
  | .withProposals newId paths threshold => .ok (p.withProposals newId paths threshold)

/-- A rule that is given to an edit, or left by a change, refers to what is there. -/
def Resolves (p : Plan) : Edit → Prop
  | .withRule rule => p.Resolves rule
  | .updateRule id change => ∀ r, p.findRule? id = some r → p.Resolves (change r)
  | _ => True

/-- **Edits keep a plan sound**, and every id of a rule but the one of a rule that is removed. -/
theorem sound_of_apply {e : Edit} (hp : p.Sound) (he : e.Resolves p) (h : e.apply p = .ok q) :
    q.Sound ∧ ∀ id ∈ p.ruleIds, e ≠ .withoutRule id → id ∈ q.ruleIds := by
  cases e with
  | withSource source =>
    cases h
    exact ⟨hp.withSource source, fun _ hid _ => hid⟩
  | withoutSource id =>
    obtain ⟨hq, hids⟩ := hp.withoutSource h
    exact ⟨hq, fun _ hid _ => hids ▸ hid⟩
  | withPrimaryPath path =>
    cases h
    exact ⟨{ hp with }, fun _ hid _ => hid⟩
  | withOutputField field =>
    cases h
    exact ⟨hp.withOutputField field, fun _ hid _ => hid⟩
  | withRule rule =>
    cases h
    exact ⟨hp.withRule he,
      fun _ hid _ => subset_of_eq_or_append (ruleIds_withRule p rule) hid⟩
  | withoutRule id =>
    obtain ⟨hq, hids⟩ := hp.withoutRule h
    exact ⟨hq, fun k hk hne => hids k hk fun hkid => hne (hkid ▸ rfl)⟩
  | updateRule id change =>
    obtain ⟨hq, hids⟩ := hp.updateRule he h
    exact ⟨hq, fun _ hid _ => hids ▸ hid⟩
  | withRuleIndex id field index =>
    obtain ⟨hq, hids⟩ := hp.withRuleIndex h
    exact ⟨hq, fun _ hid _ => hids ▸ hid⟩
  | withTransform t =>
    cases h
    exact ⟨hp.withTransform t, fun _ hid _ => hid⟩
  | withoutTransform id =>
    obtain ⟨hq, hids⟩ := hp.withoutTransform h
    exact ⟨hq, fun _ hid _ => hids ▸ hid⟩
  | attachTransform ruleId transformId =>
    obtain ⟨hq, hids⟩ := hp.attachTransform h
    exact ⟨hq, fun _ hid _ => hids ▸ hid⟩
  | withEnvelope envelope =>
    cases h
    exact ⟨{ hp with }, fun _ hid _ => hid⟩
  | withProposals newId paths threshold =>
    cases h
    obtain ⟨hq, hids⟩ := hp.withProposals newId paths threshold
    exact ⟨hq, fun _ hid _ => hids hid⟩

end Edit

/-- Two rules, one of which refers to a transformation. -/
def contactPlan : Plan where
  selection := { sources := [{ id := "people" }, { id := "extra" }] }
  template := { fields := [{ path := "name" }, { path := "mail" }] }
  rules :=
    [{ id := "full", sourcePath := "name", targetPath := "name", transformId := some "caps" },
      { id := "mail", sourcePath := "mail", targetPath := "mail" }]
  transforms := [⟨"caps", "Capitals", .uppercase⟩]

/-- A change that would give one rule the id of the other. -/
def takingId : Edit :=
  .updateRule "full" fun r => { r with id := "mail", sourcePath := "fullName" }

theorem sound_of_apply_takingId :
    contactPlan.Sound ∧ takingId.Resolves contactPlan ∧
      ∃ q, takingId.apply contactPlan = .ok q ∧ q.Sound ∧ "full" ∈ q.ruleIds := by
  have hresolves : ∀ r ∈ contactPlan.rules, contactPlan.Resolves r := by
    simp only [contactPlan, List.forall_mem_cons]
    refine ⟨?_, .of_none rfl, fun r hr => absurd hr List.not_mem_nil⟩
    rintro id ⟨⟩
    decide
  have hsound : contactPlan.Sound :=
    ⟨by decide, by decide, by decide, by decide, hresolves⟩
  have htaking : takingId.Resolves contactPlan := by
    intro r hr
    exact (hresolves r (List.mem_of_find?_eq_some hr)).of_eq rfl
  obtain ⟨hq, hids⟩ := Edit.sound_of_apply hsound htaking rfl
  exact ⟨hsound, htaking, _, rfl, hq, hids "full" (by decide) (fun h => by cases h)⟩

end Reshape.Plan
