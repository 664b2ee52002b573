/-
# Reshape.Run.Condition -- testing conditions

A condition looks at one value of the item at hand, which may be missing, and compares it with the
value that the condition states, which may be missing, too. Comparison is loose: missing is as good
as null, and values of different types are compared by how they are displayed.
-/

import Reshape.Json.Kind
import Reshape.Json.Loose
import Reshape.Path.Read
import Reshape.Plan.Rule

namespace Reshape.Run

/-- **Loose equality.** Null is equal to nothing but itself. -/
def looselyEqual (a b : Json) : Bool :=
  a.same b || (!a.isNull && !b.isNull && a.kind != b.kind && a.display == b.display)

/-- One value is displayed within the other. -/
def displayContains (a b : Json) : Bool :=
  Text.contains b.display.toList a.display.toList

/-- Compare the numbers in two values; what holds none compares with nothing. -/
def numbersSatisfy (test : Float → Float → Bool) (a b : Option Json) : Bool :=
  match a.bind Json.toFloat?, b.bind Json.toFloat? with
  | some x, some y => test x y
  | _, _ => false

/-- The value at hand is there and not null. -/
def isThere : Option Json → Bool
  | some v => !v.isNull
  | none => false

/-- Compare the value at hand with the expected one. -/
def satisfies (c : Plan.Comparison) (actual expected : Option Json) : Bool :=
  match c with
  | .exists => isThere actual
  | .notExists => !isThere actual
  | .equals => looselyEqual (actual.getD .null) (expected.getD .null)
  | .notEquals => !looselyEqual (actual.getD .null) (expected.getD .null)
  | .contains =>
    match actual, expected with
    | some a, some e => !a.isNull && displayContains a e
    | _, _ => false
  | .greaterThan => numbersSatisfy (fun x y => x > y) actual expected
  | .lessThan => numbersSatisfy (fun x y => x < y) actual expected

/-- **A condition holds for an item**, if there is one. -/
def holds (c : Plan.Condition) (item : Option Json) : Bool :=
  satisfies c.comparison (item.bind fun i => i.get? c.when) c.value

/-- **What a condition makes of a value.** -/
def conditioned (c : Plan.Condition) (item value : Option Json) : Option Json :=
  if holds c item then some c.positive
  else
    match c.negative with
    | some other => some other
    | none => value

end Reshape.Run
