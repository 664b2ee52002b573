/-
# Reshape.Run.Rule -- what a rule writes

A rule finds a value, or the array of all values that its path stands for, transforms it, submits it
to its condition, and falls back where there is nothing or null.
-/

import Reshape.Path.Write
import Reshape.Plan.Basic
import Reshape.Run.Condition
import Reshape.Transform.Apply

namespace Reshape.Run

/-- The path for which a rule collects all values; `none` for a rule that takes a single one. -/
def expansion? (r : Plan.Rule) : Option String :=
  match r.isArrayMode, r.pins.map Plan.Pins.resolve with
  | true, some (.ok path) => some path
  | _, _ => if Path.hasWildcard r.sourcePath then some r.sourcePath else none

/-- Where a rule writes to. An array of values goes to the path without its wildcards. -/
def target (r : Plan.Rule) : String :=
  if (expansion? r).isSome then Path.stripWildcards r.targetPath else r.targetPath

/-- The transformation of a rule. Of several with the same id the last one counts. -/
def transformOf (p : Plan) (r : Plan.Rule) : Option Plan.NamedTransform :=
  r.transformId.bind fun id => p.transforms.reverse.find? fun t => t.id == id

/-- Transform a value as a rule asks for. -/
def transformed (p : Plan) (r : Plan.Rule) (value : Json) : Json :=
  match transformOf p r with
  | some t => t.transform.apply value
  | none => value

/-- What a rule finds in an item. -/
def found (p : Plan) (r : Plan.Rule) (item : Option Json) : Option Json :=
  match expansion? r with
  | some path =>
    match item with
    | none => none
    | some i =>
      let values := (i.getAll path).map (transformed p r)
      if values.isEmpty then none else some (.arr values)
  | none => (item.bind fun i => i.get? r.sourcePath).map (transformed p r)

/-- The value, or the fallback in place of nothing and null. -/
def orFallback (fallback value : Option Json) : Option Json :=
  if isThere value then value
  else
    match fallback with
    | some other => some other
    | none => value

/-- **What a rule writes**, if anything. -/
def outcome (p : Plan) (r : Plan.Rule) (item : Option Json) : Option Json :=
  let value := found p r item
  orFallback r.fallback (match r.condition with
    | some c => conditioned c item value
    | none => value)

end Reshape.Run
