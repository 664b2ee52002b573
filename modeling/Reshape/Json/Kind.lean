/-
# Reshape.Json.Kind -- the types of values

Every value is of one of six types. Integers and floats are both numbers.
-/

import Reshape.Json.Basic

namespace Reshape.Json

/-- The type of a value, regardless of what is in it. -/
inductive Kind where
  | string
  | number
  | boolean
  | null
  | object
  | array
  deriving DecidableEq, Repr

/-- The name of a type. -/
def Kind.name : Kind → String
  | .string => "string"
  | .number => "number"
  | .boolean => "boolean"
  | .null => "null"
  | .object => "object"
  | .array => "array"

/-- **The type of a value.** -/
def kind : Json → Kind
  | .null => .null
  | .bool _ => .boolean
  | .num _ => .number
  | .str _ => .string
  | .arr _ => .array
  | .obj _ => .object

end Reshape.Json
