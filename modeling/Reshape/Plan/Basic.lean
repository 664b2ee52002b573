/-
# Reshape.Plan.Basic -- plans

A plan says how documents are mapped: the sources, the fields of the output, the rules, the
transformations that rules refer to by id, and an envelope. Plans are values; an edit makes a new
one.
-/

import Reshape.Plan.Source
import Reshape.Plan.Template
import Reshape.Plan.Rule
import Reshape.Plan.Envelope
import Reshape.Transform.Basic
import Reshape.Wire.Text

namespace Reshape

namespace Plan

open Wire

/-! ## Named transformations -/

/-- **A transformation that rules can refer to.** -/
structure NamedTransform where
  id : String
  name : String
  transform : Transform

/-- A named transformation as it is written. -/
structure WrittenTransform where
  id : String := ""
  name : String := ""
  kind : String := ""
  config : Json := .null

/-- The JSON form of a named transformation as it is written. -/
def WrittenTransform.shape : Shape WrittenTransform where
  name := "RawTransformation"
  blank := {}
  fields :=
    [.needed "id" .string (·.id) (fun v r => { r with id := v }),
      .defaulted "name" .string (·.name) (fun v r => { r with name := v }),
      .needed "type" .string (·.kind) (fun v r => { r with kind := v }),
      .defaulted "config" .json (·.config) (fun v r => { r with config := v })]

namespace NamedTransform

/-- A transformation as it was written; one that cannot be read is kept. -/
def ofWritten (w : WrittenTransform) : NamedTransform :=
  ⟨w.id, w.name, .keep w.kind w.config⟩

/-- A transformation as it is written. -/
def toWritten (t : NamedTransform) : WrittenTransform :=
  ⟨t.id, t.name, t.transform.kind, t.transform.config⟩

/-- The JSON form of a named transformation. -/
def codec : Codec NamedTransform where
  read o d := (WrittenTransform.shape.decode o d).map ofWritten
  write t := WrittenTransform.shape.encode t.toWritten

end NamedTransform

end Plan

/-! ## Plans -/

/-- **A plan.** -/
structure Plan where
  selection : Plan.Selection := {}
  template : Plan.Template := {}
  rules : List Plan.Rule := []
  transforms : List Plan.NamedTransform := []
  envelope : Option Plan.Envelope := none

namespace Plan

open Wire

/-- **The JSON form of a plan.** -/
def shape : Shape Plan where
  name := "MappingConfig"
  blank := {}
  fields :=
    [.defaulted "sourceSelection" Selection.shape.codec (·.selection)
        (fun v r => { r with selection := v }),
      .defaulted "outputTemplate" Template.shape.codec (·.template)
        (fun v r => { r with template := v }),
      .defaulted "fieldMappings" (.list Rule.shape.codec) (·.rules)
        (fun v r => { r with rules := v }),
      .defaulted "transformations" (.list NamedTransform.codec) (·.transforms)
        (fun v r => { r with transforms := v }),
      .maybe "outputWrapper" Envelope.shape.codec (·.envelope)
        (fun v r => { r with envelope := v })]

/-- **The plan in a text.** -/
def ofText (text : String) : Except Wire.Flaw Plan :=
  shape.ofText (Wire.Text.read text)

/-- Plans are equal when they are written alike, up to the order of members. -/
instance : BEq Plan where
  beq a b := (shape.encode a).same (shape.encode b)

/-- The first rule with an id. -/
def findRule? (p : Plan) (id : String) : Option Rule :=
  p.rules.find? fun r => r.id == id

/-- The first transformation with an id. -/
def findTransform? (p : Plan) (id : String) : Option NamedTransform :=
  p.transforms.find? fun t => t.id == id

/-- The rules that write to a path, from whatever source. -/
def rulesFor (p : Plan) (target : String) : List Rule :=
  p.rules.filter fun r => r.targetPath == target

end Plan

end Reshape
