/-
# Reshape.Plan.Rule -- rules

A rule takes the value at a path of the source to a path of the output. On the way the value can be
transformed, be replaced on a condition, and have a fallback when there is none.
-/

import Reshape.Plan.Pins

namespace Reshape.Plan

open Wire

/-! ## Conditions -/

/-- A comparison. -/
inductive Comparison where
  | equals
  | notEquals
  | contains
  | greaterThan
  | lessThan
  | exists
  | notExists
  deriving DecidableEq, Repr

/-- The name of a comparison. -/
def Comparison.name : Comparison → String
  | .equals => "equals"
  | .notEquals => "not_equals"
  | .contains => "contains"
  | .greaterThan => "greater_than"
  | .lessThan => "less_than"
  | .exists => "exists"
  | .notExists => "not_exists"

/-- The JSON form of a comparison. -/
def Comparison.codec : Codec Comparison :=
  .oneOf [("equals", .equals), ("not_equals", .notEquals), ("contains", .contains),
    ("greater_than", .greaterThan), ("less_than", .lessThan), ("exists", .exists),
    ("not_exists", .notExists)] Comparison.name

/-- **A condition** on the source, with the values that replace the one at hand. -/
structure Condition where
  when : String := ""
  comparison : Comparison := .equals
  value : Option Json := none
  positive : Json := .null
  negative : Option Json := none

/-- The JSON form of a condition. -/
def Condition.shape : Shape Condition where
  name := "MappingCondition"
  blank := {}
  fields :=
    [.needed "when" .string (·.when) (fun v r => { r with when := v }),
      .needed "operator" Comparison.codec (·.comparison) (fun v r => { r with comparison := v }),
      .present "value" (·.value) (fun v r => { r with value := v }),
      .defaulted "then" .json (·.positive) (fun v r => { r with positive := v }),
      .present "else" (·.negative) (fun v r => { r with negative := v })]

/-! ## Rules -/

/-- **A rule.** Without a source id it reads the primary source. -/
structure Rule where
  id : String := ""
  sourcePath : String := ""
  targetPath : String := ""
  sourceId : Option String := none
  transformId : Option String := none
  fallback : Option Json := none
  condition : Option Condition := none
  pins : Option Pins := none

/-- The JSON form of a rule. -/
def Rule.shape : Shape Rule where
  name := "FieldMapping"
  blank := {}
  fields :=
    [.needed "id" .string (·.id) (fun v r => { r with id := v }),
      .needed "sourcePath" .string (·.sourcePath) (fun v r => { r with sourcePath := v }),
      .needed "targetPath" .string (·.targetPath) (fun v r => { r with targetPath := v }),
      .maybe "sourceId" .string (·.sourceId) (fun v r => { r with sourceId := v }),
      .maybe "transformId" .string (·.transformId) (fun v r => { r with transformId := v }),
      .present "fallbackValue" (·.fallback) (fun v r => { r with fallback := v }),
      .maybe "conditional" Condition.shape.codec (·.condition)
        (fun v r => { r with condition := v }),
      .maybe "arrayIndexConfig" Pins.shape.codec (·.pins) (fun v r => { r with pins := v })]

namespace Rule

/-- Take the source path apart anew. -/
def withDerivedPins (r : Rule) : Except Path.Refusal Rule := do
  let pins ← Pins.ofPath r.sourcePath
  return { r with pins := pins }

/-- Two rules that write the same path from the same source. -/
def sameSlot (r other : Rule) : Bool :=
  r.sourceId == other.sourceId && r.targetPath == other.targetPath

/-- The rule's pins ask for an array. -/
def isArrayMode (r : Rule) : Bool :=
  match r.pins with
  | some p => p.mode == .array
  | none => false

end Rule

end Reshape.Plan
