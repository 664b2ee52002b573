/-
# Reshape.Survey.Basic -- the fields of a document

A survey lists the fields that a sample document offers: for each one a path at which documents of
its kind have a value, and the type of the value. Arrays of containers are entered through their
first element as `[*]`, and on demand through single elements as `[n]`; the suffixes of one segment
are never of both kinds. Everything else is a field by itself, also what lies deeper than a limit.
-/

import Reshape.Json.Kind
import Reshape.Path.Basic
import Reshape.Path.Read
import Reshape.Wire.Record

namespace Reshape.Survey

open Wire

/-! ## Options -/

/-- **How far a survey goes.** -/
structure Options where
  maxDepth : Nat := 10
  includeWildcards : Bool := true
  includeFixedIndices : Bool := false
  maxArrayIndices : Nat := 3
  includeValues : Bool := false
  deriving DecidableEq, Repr, Inhabited

/-- The JSON form of the options. -/
def Options.shape : Shape Options where
  name := "ExtractOptions"
  blank := {}
  fields :=
    [.defaulted "maxDepth" .size (·.maxDepth) (fun v r => { r with maxDepth := v }),
      .defaulted "includeWildcards" .bool (·.includeWildcards)
        (fun v r => { r with includeWildcards := v }),
      .defaulted "includeFixedIndices" .bool (·.includeFixedIndices)
        (fun v r => { r with includeFixedIndices := v }),
      .defaulted "maxArrayIndices" .size (·.maxArrayIndices)
        (fun v r => { r with maxArrayIndices := v }),
      .defaulted "includeValues" .bool (·.includeValues) (fun v r => { r with includeValues := v })]

/-! ## Fields -/

/-- **A field of a document**, perhaps with the value that the sample has. -/
structure Field where
  path : String
  kind : Json.Kind
  value : Option Json

/-- A field in JSON. -/
def Field.encode (f : Field) : Json :=
  .obj ([("path", .str f.path), ("type", .str f.kind.name)] ++
    (f.value.map fun v => ("value", v)).toList)

/-! ## The walk -/

/-- A value as a field. -/
def field (o : Options) (path : String) (value : Json) : Field :=
  ⟨path, value.kind, if o.includeValues then some value else none⟩

/-- The path ends in a suffix for every element. -/
def underWildcard (path : String) : Bool :=
  Text.endsWith Path.everyText.toList path.toList

/-- The path ends in a suffix for one element. -/
def underIndex (path : String) : Bool :=
  Text.endsWith [']'] path.toList && !underWildcard path

mutual

/-- **The fields at and below a value** that stands at a path; `depth` more containers may be
entered. -/
def walk (o : Options) (path : String) (depth : Nat) : Json → List Field
  | .obj ms =>
    if ms.isEmpty || depth = 0 then
      if path = "" then [] else [field o path (.obj ms)]
    else walkMembers o path (depth - 1) ms
  | .arr xs =>
    if !xs.any Json.isContainer || depth = 0 then [field o path (.arr xs)]
    else
      let every :=
        if o.includeWildcards && !underIndex path then
          walkFirst o (path ++ Path.everyText) (depth - 1) xs
        else []
      let single :=
        if o.includeFixedIndices && !underWildcard path then
          walkItems o path (depth - 1) 0 o.maxArrayIndices xs
        else []
      if every.isEmpty && single.isEmpty then [field o path (.arr xs)] else every ++ single
  | value => [field o path value]

/-- The fields below the members of an object. -/
def walkMembers (o : Options) (path : String) (depth : Nat) : List (String × Json) → List Field
  | [] => []
  | (key, value) :: ms => walk o (Path.below path key) depth value ++ walkMembers o path depth ms

/-- The fields below the first element of an array. -/
def walkFirst (o : Options) (path : String) (depth : Nat) : List Json → List Field
  | [] => []
  | value :: _ => walk o path depth value

/-- The fields below single elements of an array, `left` of them at most, counted from `index`. -/
def walkItems (o : Options) (path : String) (depth : Nat) :
    (index left : Nat) → List Json → List Field
  | _, _, [] => []
  | _, 0, _ => []
  | index, left + 1, value :: xs =>
    walk o (path ++ Path.indexText index) depth value ++ walkItems o path depth (index + 1) left xs

end

/-- **The fields of a value**, with paths that start at `base`. -/
def fields (o : Options) (base : String) (value : Json) : List Field :=
  walk o base o.maxDepth value

/-- A path from an array's elements on. -/
def fromElement (path : String) : String :=
  match Text.dropStart? (Path.everyText ++ ".").toList path.toList with
  | some rest => String.ofList rest
  | none => if path = Path.everyText then "" else path

/-- **The fields of the records of a document**, which are found at a primary path. Where an array
is found, paths start at its elements. -/
def recordFields (o : Options) (primaryPath : String) (document : Json) : List Field :=
  match document.get? primaryPath with
  | none => []
  | some root =>
    let fs := fields o "" root
    if root.isArray then fs.map fun f => { f with path := fromElement f.path } else fs

end Reshape.Survey
