/-
# Reshape.Proofs.Run.Written -- what a rule writes is there

A rule whose target can be read writes its value, and the value is at the rule's target afterwards,
whatever the output was before. The one exception is a rule that collects an array: it writes to its
target without the wildcards, and that path may be one that cannot be read although the target can.
It is so exactly when the target has several segments and one of them is nothing but wildcards
(`get?_target_runRule_iff`): in `[*].name` nothing is left before the point. Such a rule passes every
check of its paths and writes nothing at all.

A run is a fold of such steps, and so is filling in defaults. `InTurn` says of each step what holds
of the output when its turn comes, which is what keeps a property of the output up to the end.
-/

import Reshape.Proofs.Path.Wildcards
import Reshape.Proofs.Run.LastWrite

namespace Reshape.Run

open Reshape.Path (Segment)

variable {c : Context} {r : Plan.Rule} {record value : Json} {index : Option Nat}
variable {ss : List Segment}

/-! ## Steps one after the other -/

section InTurn

variable {α : Type} {step : Json → α → Json} {P : Json → α → Prop} {Inv : Json → Prop}
variable {xs : List α} {out : Json}

/-- **Each step has a property when its turn comes**, given the output so far. -/
def InTurn (step : Json → α → Json) (P : Json → α → Prop) : Json → List α → Prop
  | _, [] => True
  | out, x :: xs => P out x ∧ InTurn step P (step out x) xs

/-- What steps with the property keep, all of them keep. -/
theorem InTurn.foldl (hstep : ∀ out x, P out x → Inv out → Inv (step out x))
    (h : InTurn step P out xs) (hout : Inv out) : Inv (xs.foldl step out) := by
  induction xs generalizing out with
  | nil => exact hout
  | cons x xs ih => exact ih h.2 (hstep out x h.1 hout)

/-- Steps have a property in turn when it follows from what they keep. -/
theorem inTurn_of_invariant (hstep : ∀ out x, P out x → Inv out → Inv (step out x))
    (himplies : ∀ out x, Inv out → P out x) (hout : Inv out) (xs : List α) :
    InTurn step P out xs := by
  induction xs generalizing out with
  | nil => exact trivial
  | cons x xs ih =>
    have hx : P out x := himplies out x hout
    exact ⟨hx, ih (hstep out x hx hout)⟩

end InTurn

/-! ## Targets -/

/-- **A rule strips its target**: it collects an array, and the target has wildcards. Every other
rule writes to its target as it is. -/
def Strips (r : Plan.Rule) : Prop :=
  (expansion? r).isSome = true ∧ Path.hasWildcard r.targetPath = true

instance (r : Plan.Rule) : Decidable (Strips r) :=
  inferInstanceAs (Decidable (_ ∧ _))

theorem target_of_not_strips (h : ¬ Strips r) : target r = r.targetPath := by
  rw [target]
  split
  case isTrue hcollects =>
    apply Path.stripWildcards_of_hasWildcard_eq_false
    exact eq_false_of_ne_true fun hwildcard => h ⟨hcollects, hwildcard⟩
  case isFalse => rfl

/-- **Where a rule with a readable target writes** can be read as well, unless it collects an array
and a segment of the target, which is not the only one, is nothing but wildcards. -/
theorem valid_target_iff (hss : Path.parse r.targetPath = .ok ss) :
    Path.valid (target r) = true ↔
      ((expansion? r).isSome = true → ss.length ≤ 1 ∨ ∀ s ∈ ss, ¬ s.IsBare) := by
  rw [target]
  split
  case isTrue hcollects =>
    rw [Path.valid_stripWildcards_iff hss]
    exact ⟨fun h _ => h, fun h => h hcollects⟩
  case isFalse hsingle =>
    have hvalid : Path.valid r.targetPath = true := by
      rw [Path.valid, hss]
      rfl
    exact ⟨fun _ hcollects => absurd hcollects hsingle, fun _ => hvalid⟩

/-! ## Writing -/

/-- A rule with a readable target leaves its value there. -/
theorem get?_target_runRule (hvalid : Path.valid (target r) = true)
    (hvalue : contribution c record index r = some value) (out : Json) :
    (runRule c record index out r).get? (target r) = some value := by
  rw [runRule_of_contribution hvalue]
  exact Json.get?_set_self hvalid out value

/-- A rule with an unreadable target changes nothing. -/
theorem runRule_of_not_valid (hvalid : Path.valid (target r) = false)
    (hvalue : contribution c record index r = some value) (out : Json) :
    runRule c record index out r = out := by
  rw [runRule_of_contribution hvalue]
  exact Json.set_of_not_valid out value hvalid

/-- Null has a value at no path but the empty one. -/
theorem get?_null {path : String} (h : path ≠ "") : Json.null.get? path = none := by
  obtain ⟨raw, raws, hraws⟩ := List.exists_cons_of_ne_nil (Text.splitChar_ne_nil '.' path.toList)
  rw [Json.get?, if_neg h, Path.raws, hraws]
  rfl

/-- **Exactly when a value that a rule has is not lost.** Let the target of a rule be readable, and
let the rule have a value to write. Then the value is at the rule's target after the write, in every
output, if and only if the rule takes a single value, or its target is one segment, or no segment of
it is nothing but wildcards. Otherwise the rule changes no output. -/
theorem get?_target_runRule_iff (hss : Path.parse r.targetPath = .ok ss)
    (hvalue : contribution c record index r = some value) :
    ((∀ out, (runRule c record index out r).get? (target r) = some value) ↔
        ((expansion? r).isSome = true → ss.length ≤ 1 ∨ ∀ s ∈ ss, ¬ s.IsBare)) ∧
      ((∃ out, (runRule c record index out r).get? (target r) ≠ some value) →
        ∀ out, runRule c record index out r = out) := by
  rw [← valid_target_iff hss]
  cases hvalid : Path.valid (target r) with
  | true =>
    have hkept := get?_target_runRule hvalid hvalue
    refine ⟨iff_of_true hkept rfl, ?_⟩
    rintro ⟨out, hlost⟩
    exact absurd (hkept out) hlost
  | false =>
    have hsame := runRule_of_not_valid hvalid hvalue
    refine ⟨iff_of_false ?_ Bool.false_ne_true, fun _ => hsame⟩
    intro hkept
    have hne : target r ≠ "" := by
      intro hempty
      rw [hempty] at hvalid
      exact absurd hvalid (by decide)
    -- nothing is found in null, so an output of null shows that the value was not written
    have hnull := hkept .null
    rw [hsame, get?_null hne] at hnull
    cases hnull

/-- The rule that collects the names of people. -/
def namesRule (target : String) : Plan.Rule :=
  { id := "names", sourcePath := "people[*].name", targetPath := target }

/-- A plan with that rule only. -/
def namesContext (target : String) : Context where
  plan :=
    { selection := { sources := [{ id := "s" }], primaryPath := some "" }
      rules := [namesRule target] }
  primaryId := some "s"
  others := []

/-- A record with two people. -/
def peopleRecord : Json :=
  .obj [("people", .arr [.obj [("name", .str "Ada")], .obj [("name", .str "Bob")]])]

/-- Names go to every list of a table, in whatever output, and not to what has only a wildcard before
the point. -/
theorem get?_target_runRule_iff_names :
    (∀ out, (runRule (namesContext "rows[*].cells[*]") peopleRecord none out
        (namesRule "rows[*].cells[*]")).get? "rows.cells" =
          some (.arr [.str "Ada", .str "Bob"])) ∧
      ∀ out, runRule (namesContext "[*].name") peopleRecord none out (namesRule "[*].name") =
        out := by
  constructor
  · have hiff := @get?_target_runRule_iff (namesContext "rows[*].cells[*]")
      (namesRule "rows[*].cells[*]") peopleRecord (.arr [.str "Ada", .str "Bob"]) none
      [⟨"rows", .wildcard 1⟩, ⟨"cells", .wildcard 1⟩] rfl rfl
    apply hiff.1.mpr
    intro _
    right
    simp [Segment.IsBare]
  · have hiff := @get?_target_runRule_iff (namesContext "[*].name") (namesRule "[*].name")
      peopleRecord (.arr [.str "Ada", .str "Bob"]) none
      [⟨"", .wildcard 1⟩, ⟨"name", .plain⟩] rfl rfl
    have hlost : ¬ ∀ out, (runRule (namesContext "[*].name") peopleRecord none out
        (namesRule "[*].name")).get? ".name" = some (.arr [.str "Ada", .str "Bob"]) := by
      intro hkept
      have hall := hiff.1.mp hkept rfl
      simp [Segment.IsBare] at hall
    exact hiff.2 (not_forall.mp hlost)

/-- **A rule with readable paths can lose its value**: the names that are collected for `[*].name`
are in no output. -/
theorem not_forall_get?_target_runRule :
    ¬ ∀ (c : Context) (r : Plan.Rule) (record value out : Json) (index : Option Nat),
      Path.valid r.sourcePath = true → Path.valid r.targetPath = true →
      contribution c record index r = some value →
      (runRule c record index out r).get? (target r) = some value := by
  intro h
  have hkept := h (namesContext "[*].name") (namesRule "[*].name") peopleRecord _ (.obj []) none
    (by decide) (by decide) rfl
  cases hkept

end Reshape.Run
