/-
# Reshape.Proofs.Run.DerivedPins -- pins that say what the path says

A rule with pins collects an array along the path that the pins stand for, if they ask for one; a
rule without pins goes by the wildcards in its source path. Pins that were made from the source path
and changed by pinning only, which rewrites the path with them, are in step with it: they are what
taking the path apart gives (`InStep`). Then both tests have the same outcome, and both paths have
the same segments, so a run does the same without the pins (`run_withoutPins_eq`).

The path that the pins stand for need not be the source path itself, as a position can be spelled
in several ways; what counts is that both are read alike.
-/

import Reshape.Proofs.Path.Wildcards
import Reshape.Proofs.Plan.Integrity
import Reshape.Proofs.Plan.Pins
import Reshape.Proofs.Run.Agreement

namespace Reshape

namespace Plan

open Reshape.Path

/-! ## Pinning one field after another -/

/-- **Pins are in step with the source path** when taking the path apart gives them. -/
def InStep (r : Rule) : Prop :=
  ∀ pins, r.pins = some pins → Pins.ofPath r.sourcePath = .ok (some pins)

/-- A field to be pinned, by the rule, and the position that it is to have. -/
structure Pinning where
  rule : String
  field : String
  index : Nat

/-- Pin fields, one after the other. -/
def pinAll (pinnings : List Pinning) (p : Plan) : Except Fault Plan :=
  pinnings.foldlM (fun q e => q.withRuleIndex e.rule e.field e.index) p

/-- A rule without its pins. -/
def Rule.unpinned (r : Rule) : Rule :=
  { r with pins := none }

/-- The plan without the pins of the rule at a position. -/
def withoutPins (p : Plan) (k : Nat) : Plan :=
  { p with rules := p.rules.modify k Rule.unpinned }

variable {p q : Plan} {r r₀ pinned : Rule} {field : String} {index k : Nat}

/-- Without pins there is nothing to be out of step. -/
theorem inStep_unpinned (r : Rule) : InStep r.unpinned := by
  intro pins hpins
  cases hpins

theorem inStep_withDerivedPins (h : r₀.withDerivedPins = .ok r) : InStep r := by
  obtain ⟨found, hfound, h⟩ := bind_eq_ok.mp h
  cases h
  rintro pins rfl
  exact hfound

/-- The pins of a rule are those of the segments of its path. -/
theorem InStep.exists_segments (h : InStep r) {pins : Pins} (hpins : r.pins = some pins) :
    ∃ ss, parse r.sourcePath = .ok ss ∧ Pins.Separate ss ∧ Pins.arrays ss ≠ [] ∧
      pins = Pins.ofSegments ss :=
  Pins.ofPath_eq_ok_some_iff.mp (h pins hpins)

/-- Pins to start from, be they there or made for the purpose, are those of the path. -/
theorem InStep.ofPath_of_pinsOf (h : InStep r) {pins : Pins} (hpins : pinsOf r = .ok pins) :
    Pins.ofPath r.sourcePath = .ok (some pins) := by
  rw [pinsOf] at hpins
  split at hpins
  case h_1 own hown =>
    cases hpins
    exact h _ hown
  case h_2 =>
    obtain ⟨found, hfound, hpins⟩ := bind_eq_ok.mp hpins
    rw [hfound]
    split at hpins
    case h_1 =>
      cases hpins
      rfl
    case h_2 => cases hpins

/-- **Pinning a field keeps the pins in step**, as the path is rewritten with them. -/
theorem InStep.pinRule (h : InStep r) (hindex : index ≤ Decimal.maxUnsigned)
    (hpinned : Plan.pinRule r field index = .ok pinned) : InStep pinned := by
  obtain ⟨pins, changed, path, hpins, hchanged, hpath, rfl⟩ := exists_of_pinRule hpinned
  obtain ⟨ss, -, hss, hne, rfl⟩ := Pins.ofPath_eq_ok_some_iff.mp (h.ofPath_of_pinsOf hpins)
  have hfield : field ∈ (Pins.ofSegments ss).fields := by
    by_contra hnot
    rw [Pins.pin, if_pos (by simpa using hnot)] at hchanged
    cases hchanged
  rw [Pins.pin_ofSegments hss hfield hindex] at hchanged
  cases hchanged
  -- the segments with the field in its new place are what the new path consists of
  have hplaced : Pins.Separate (ss.map (Pins.place field (some index))) :=
    hss.place (by rintro _ ⟨⟩; exact hindex) field
  rw [Pins.resolve_ofSegments hplaced] at hpath
  cases hpath
  rintro _ ⟨⟩
  refine Pins.ofPath_eq_ok_some_iff.mpr ⟨_, parse_text hplaced.proper, hplaced, ?_, rfl⟩
  rw [Pins.arrays_map_place]
  simpa using hne

/-- An id has nothing to do with pins. -/
theorem InStep.withId (h : InStep r) (id : String) : InStep { r with id := id } :=
  h

/-- **One step**: pinning a field of whatever rule keeps the rule at a position in step. -/
theorem inStep_withRuleIndex {id : String} (hindex : index ≤ Decimal.maxUnsigned)
    (hp : ∀ r, p.rules[k]? = some r → InStep r) (h : p.withRuleIndex id field index = .ok q) :
    ∀ r, q.rules[k]? = some r → InStep r := by
  obtain ⟨found, pinned, hfound, hpinned, h⟩ := exists_of_withRuleIndex h
  obtain ⟨rules, hrules, rfl⟩ := exists_of_updateRule h
  intro r hr
  rcases getElem?_changeFirst? hrules hr with hsame | ⟨s, hs, hk, rfl⟩
  · exact hp r hsame
  · -- the rule that was pinned is the one at the position
    obtain rfl := Option.some.inj (hfound.symm.trans hs)
    exact ((hp found hk).pinRule hindex hpinned).withId id

/-- **A run of pinnings** keeps the rule at a position in step. -/
theorem inStep_pinAll {pinnings : List Pinning}
    (hindex : ∀ e ∈ pinnings, e.index ≤ Decimal.maxUnsigned)
    (hp : ∀ r, p.rules[k]? = some r → InStep r) (h : pinAll pinnings p = .ok q) :
    ∀ r, q.rules[k]? = some r → InStep r := by
  induction pinnings generalizing p with
  | nil =>
    cases h
    exact hp
  | cons e pinnings ih =>
    obtain ⟨he, hrest⟩ := List.forall_mem_cons.mp hindex
    rw [pinAll, List.foldlM_cons] at h
    obtain ⟨next, hnext, h⟩ := bind_eq_ok.mp h
    exact ih hrest (inStep_withRuleIndex he hp hnext) h

end Plan

namespace Run

open Reshape.Path

variable {p q : Plan} {r r₀ : Plan.Rule} {k : Nat}

/-! ## A rule with its pins and without -/

/-- Whether pins that are in step ask for an array can be seen from the source path. -/
theorem hasWildcard_sourcePath_iff (h : Plan.InStep r) {pins : Plan.Pins}
    (hpins : r.pins = some pins) : hasWildcard r.sourcePath = false ↔ pins.mode = .index := by
  obtain ⟨ss, hparse, hss, -, rfl⟩ := h.exists_segments hpins
  rw [Plan.Pins.mode_eq_index_iff_hasWildcard hss, hasWildcard_eq_false_iff hparse,
    hasWildcard_text_eq_false_iff hss.proper]

/-- **Pins that are in step ask for an array when the source path has a wildcard**, and for all
values of a path that is read as the source path is. -/
theorem expansion?_of_inStep (h : Plan.InStep r) :
    (hasWildcard r.sourcePath = false ∧ expansion? r = none) ∨
      (hasWildcard r.sourcePath = true ∧
        ∃ path, expansion? r = some path ∧ parse path = parse r.sourcePath) := by
  cases hpins : r.pins with
  | none =>
    have hmode : r.isArrayMode = false := by rw [Plan.Rule.isArrayMode, hpins]
    rw [expansion?, hmode]
    cases hwild : hasWildcard r.sourcePath with
    | false => exact .inl ⟨rfl, rfl⟩
    | true => exact .inr ⟨rfl, r.sourcePath, rfl, rfl⟩
  | some pins =>
    have hmode : r.isArrayMode = (pins.mode == .array) := by rw [Plan.Rule.isArrayMode, hpins]
    have hindex := hasWildcard_sourcePath_iff h hpins
    cases hwild : hasWildcard r.sourcePath with
    | false =>
      rw [expansion?, hmode, hindex.mp hwild, hwild]
      exact .inl ⟨rfl, rfl⟩
    | true =>
      have harray : pins.mode = .array := by
        cases hcase : pins.mode with
        | array => rfl
        | index => cases hwild.symm.trans (hindex.mpr hcase)
      obtain ⟨ss, hparse, hss, -, rfl⟩ := h.exists_segments hpins
      rw [expansion?, hmode, harray, hpins, Option.map_some, Plan.Pins.resolve_ofSegments hss]
      -- the text of the segments is the path of the pins, and it is read as these segments
      exact .inr ⟨rfl, _, rfl, (parse_text hss.proper).trans hparse.symm⟩

theorem isSome_expansion?_of_inStep (h : Plan.InStep r) :
    (expansion? r).isSome = hasWildcard r.sourcePath := by
  rcases expansion?_of_inStep h with ⟨hwild, hnone⟩ | ⟨hwild, path, hsome, -⟩
  · rw [hwild, hnone]
    rfl
  · rw [hwild, hsome]
    rfl

/-- A rule writes to the same place without its pins. -/
theorem target_unpinned (h : Plan.InStep r) : target r.unpinned = target r := by
  rw [target, target, isSome_expansion?_of_inStep h,
    isSome_expansion?_of_inStep (Plan.inStep_unpinned r)]
  rfl

/-- A rule finds the same without its pins. -/
theorem found_unpinned (h : Plan.InStep r) (p : Plan) (item : Option Json) :
    found p r.unpinned item = found p r item := by
  have hwithout := expansion?_of_inStep (Plan.inStep_unpinned r)
  rcases expansion?_of_inStep h with ⟨hwild, hnone⟩ | ⟨hwild, path, hsome, hparse⟩
  · rcases hwithout with ⟨-, hnone'⟩ | ⟨hwild', -⟩
    · rw [found, found, hnone, hnone']
      rfl
    · cases hwild.symm.trans hwild'
  · rcases hwithout with ⟨hwild', -⟩ | ⟨-, path', hsome', hparse'⟩
    · cases hwild'.symm.trans hwild
    · -- both paths have the segments of the source path
      have hvalues : ∀ root : Json, root.getAll path' = root.getAll path := by
        intro root
        rw [Json.getAll, Json.getAll, hparse', hparse]
        rfl
      rw [found, found, hsome, hsome']
      cases item with
      | none => rfl
      | some i =>
        dsimp only
        rw [hvalues]
        rfl

/-- **Pins in step make no difference** to what a rule does. -/
theorem runRule_unpinned (h : Plan.InStep r) (c : Context) (record : Json) (index : Option Nat)
    (out : Json) : runRule c record index out r.unpinned = runRule c record index out r := by
  have houtcome : ∀ item, outcome c.plan r.unpinned item = outcome c.plan r item := by
    intro item
    rw [outcome, outcome, found_unpinned h]
    rfl
  have hinput : input c r.unpinned record index = input c r record index := rfl
  simp only [runRule, hinput, houtcome, target_unpinned h]

/-! ## Plans -/

/-- Plans with and without the pins of a rule agree, when its pins are in step. -/
theorem agrees_withoutPins (h : ∀ r, p.rules[k]? = some r → Plan.InStep r)
    (primaryId : Option String) (others : List (String × Json)) :
    Agrees ⟨p.withoutPins k, primaryId, others⟩ ⟨p, primaryId, others⟩ where
  selection := rfl
  template := rfl
  envelope := rfl
  rules := by
    -- a rule looks at its plan for what is merged and for its transformation, which are the same
    have hplan : ∀ record index out r, runRule ⟨p.withoutPins k, primaryId, others⟩ record index
        out r = runRule ⟨p, primaryId, others⟩ record index out r := fun _ _ _ _ => rfl
    show List.Forall₂ _ (p.rules.modify k Plan.Rule.unpinned) p.rules
    refine List.forall₂_iff_get.mpr ⟨List.length_modify _ _ _, fun i hi hi' record index out => ?_⟩
    rw [hplan, List.get_eq_getElem, List.get_eq_getElem, List.getElem_modify]
    split
    case isTrue hk =>
      subst hk
      exact runRule_unpinned (h _ (List.getElem?_eq_getElem hi')) _ record index out
    case isFalse => rfl

/-- **Pins that were derived make no difference.** Let the pins of a rule be made from its source
path, and then let fields be pinned, of this rule or of others, one after the other. Without the pins
of the rule every document, and all documents together, give the result that they give with them. -/
theorem run_withoutPins_eq {pinnings : List Plan.Pinning} (hr : r₀.withDerivedPins = .ok r)
    (hk : p.rules[k]? = some r) (hindex : ∀ e ∈ pinnings, e.index ≤ Decimal.maxUnsigned)
    (hq : Plan.pinAll pinnings p = .ok q) (o : Options) (now : Calendar.Instant) :
    (∀ document, run (q.withoutPins k) o now document = run q o now document) ∧
      ∀ documents, runMany (q.withoutPins k) o now documents = runMany q o now documents := by
  have hstep : ∀ s, q.rules[k]? = some s → Plan.InStep s := by
    refine Plan.inStep_pinAll hindex (fun s hs => ?_) hq
    obtain rfl := Option.some.inj (hk.symm.trans hs)
    exact Plan.inStep_withDerivedPins hr
  constructor
  · intro document
    exact (agrees_withoutPins hstep _ []).runIn_eq o now document
  · intro documents
    have hprimary : (q.withoutPins k).selection.primary? = q.selection.primary? := rfl
    rw [runMany, runMany, hprimary]
    cases q.selection.primary? with
    | none => rfl
    | some primary =>
      dsimp only
      cases documents.get? primary.id with
      | none => rfl
      | some document =>
        exact congrArg Except.ok ((agrees_withoutPins hstep _ _).runIn_eq o now document)

/-- The names of the lines of all orders, with the line spelled in an unusual way. -/
def lineRule : Plan.Rule :=
  { id := "line", sourcePath := "orders[*].lines[03].name", targetPath := "names[*]" }

/-- The pins of its path. -/
def linePins : Plan.Pins where
  fields := ["orders", "lines"]
  indices := [("lines", 3)]
  templatePath := "orders[*].lines[*].name"
  mode := .array

/-- The rule with pins, and one for notes that has none yet. -/
def linePlan : Plan where
  rules :=
    [{ lineRule with pins := some linePins },
      { id := "note", sourcePath := "notes[*]", targetPath := "note" }]

/-- The first note is taken, and then the first order. -/
def linePinnings : List Plan.Pinning :=
  [⟨"note", "notes", 0⟩, ⟨"line", "orders", 0⟩]

/-- What comes of the pinnings. -/
def pinnedLinePlan : Plan where
  rules :=
    [{ lineRule with
        sourcePath := "orders[0].lines[3].name"
        pins := some { linePins with indices := [("lines", 3), ("orders", 0)], mode := .index } },
      { id := "note", sourcePath := "notes[0]", targetPath := "note",
        pins := some
          { fields := ["notes"], indices := [("notes", 0)], templatePath := "notes[*]",
            mode := .index } }]

/-- The pins of the rule for lines make no difference. -/
theorem run_withoutPins_eq_linePlan :
    Plan.pinAll linePinnings linePlan = .ok pinnedLinePlan ∧
      (∀ document, run (pinnedLinePlan.withoutPins 0) {} default document =
          run pinnedLinePlan {} default document) ∧
        ∀ documents, runMany (pinnedLinePlan.withoutPins 0) {} default documents =
          runMany pinnedLinePlan {} default documents := by
  have hderived : lineRule.withDerivedPins = .ok { lineRule with pins := some linePins } := rfl
  have hpinned : Plan.pinAll linePinnings linePlan = .ok pinnedLinePlan := rfl
  exact ⟨hpinned, run_withoutPins_eq hderived rfl (by decide) hpinned {} default⟩

end Run

end Reshape
