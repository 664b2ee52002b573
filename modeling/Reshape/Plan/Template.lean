/-
# Reshape.Plan.Template -- the fields of the output

A template declares the fields of the output as a flat list. The tree among them is in their paths:
a field lies below another when its path goes on, after the other's path, with a point or a bracket.
-/

import Reshape.Text.Search
import Reshape.Wire.Record

namespace Reshape.Plan

open Wire

/-- The declared type of a field. -/
inductive FieldType where
  | string
  | number
  | boolean
  | object
  | array
  | any
  deriving DecidableEq, Repr

/-- The name of a type. -/
def FieldType.name : FieldType → String
  | .string => "string"
  | .number => "number"
  | .boolean => "boolean"
  | .object => "object"
  | .array => "array"
  | .any => "any"

/-- The JSON form of a type. -/
def FieldType.codec : Codec FieldType :=
  .oneOf [("string", .string), ("number", .number), ("boolean", .boolean), ("object", .object),
    ("array", .array), ("any", .any)] FieldType.name

/-- **A field of the output.** -/
structure OutputField where
  path : String := ""
  type : FieldType := .any
  required : Bool := false
  defaultValue : Option Json := none
  description : Option String := none

/-- The JSON form of a field. -/
def OutputField.shape : Shape OutputField where
  name := "OutputField"
  blank := {}
  fields :=
    [.needed "path" .string (·.path) (fun v r => { r with path := v }),
      .defaulted "type" FieldType.codec (·.type) (fun v r => { r with type := v }),
      .flag "required" (·.required) (fun v r => { r with required := v }),
      .present "defaultValue" (·.defaultValue) (fun v r => { r with defaultValue := v }),
      .maybe "description" .string (·.description) (fun v r => { r with description := v })]

/-- **One path lies strictly below another.** -/
def isBelow (ancestor path : String) : Bool :=
  match Text.dropStart? ancestor.toList path.toList with
  | some (c :: _) => c = '.' || c = '['
  | _ => false

/-- The other field lies below this one. -/
def OutputField.contains (f other : OutputField) : Bool :=
  isBelow f.path other.path

/-- **The declared fields.** -/
structure Template where
  fields : List OutputField := []

/-- The JSON form of a template. -/
def Template.shape : Shape Template where
  name := "OutputTemplate"
  blank := {}
  fields :=
    [.defaulted "fields" (.list OutputField.shape.codec) (·.fields)
      (fun v r => { r with fields := v })]

namespace Template

/-- The first field with a path. -/
def find? (t : Template) (path : String) : Option OutputField :=
  t.fields.find? fun f => f.path == path

/-- The fields below a path. -/
def descendants (t : Template) (path : String) : List OutputField :=
  t.fields.filter fun f => isBelow path f.path

/-- Nothing is declared below the field. -/
def isLeaf (t : Template) (f : OutputField) : Bool :=
  (t.descendants f.path).isEmpty

/-- **The fields with nothing below them.** -/
def leaves (t : Template) : List OutputField :=
  t.fields.filter t.isLeaf

end Template

end Reshape.Plan
