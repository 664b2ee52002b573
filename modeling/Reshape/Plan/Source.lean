/-
# Reshape.Plan.Source -- sources and their selection

A source is a document by name. A selection lists the sources in use; the first one is primary, its
records are what is mapped. The primary path says where in the document they are: the selection's
own if it has one, else that of the primary source.
-/

import Reshape.Wire.Record

namespace Reshape.Plan

open Wire

/-- What is at the primary path: many records, or one. -/
inductive RootKind where
  | array
  | object
  deriving DecidableEq, Repr

/-- The JSON form of the kind of a root. -/
def RootKind.codec : Codec RootKind :=
  .oneOf [("array", .array), ("object", .object)] fun
    | .array => "array"
    | .object => "object"

/-- Whether sources other than the primary one are read. -/
inductive MergeMode where
  | single
  | merge
  deriving DecidableEq, Repr

/-- The JSON form of the merge mode. -/
def MergeMode.codec : Codec MergeMode :=
  .oneOf [("single", .single), ("merge", .merge)] fun
    | .single => "single"
    | .merge => "merge"

/-- **A source.** -/
structure Source where
  id : String := ""
  name : String := ""
  kind : RootKind := .object
  category : Option String := none
  primaryPath : String := ""
  deriving DecidableEq, Repr

/-- The JSON form of a source. -/
def Source.shape : Shape Source where
  name := "SourceDescriptor"
  blank := {}
  fields :=
    [.needed "id" .string (·.id) (fun v r => { r with id := v }),
      .needed "name" .string (·.name) (fun v r => { r with name := v }),
      .defaulted "type" RootKind.codec (·.kind) (fun v r => { r with kind := v }),
      .maybe "category" .string (·.category) (fun v r => { r with category := v }),
      .defaulted "primaryPath" .string (·.primaryPath) (fun v r => { r with primaryPath := v })]

/-- **The sources in use.** A result of one record may be unwrapped from its array. -/
structure Selection where
  kind : RootKind := .object
  sources : List Source := []
  primaryPath : Option String := none
  mergeMode : MergeMode := .single
  unwrapSingleItems : Bool := false
  deriving DecidableEq, Repr

/-- The JSON form of a selection. -/
def Selection.shape : Shape Selection where
  name := "SourceSelection"
  blank := {}
  fields :=
    [.defaulted "type" RootKind.codec (·.kind) (fun v r => { r with kind := v }),
      .defaulted "sources" (.list Source.shape.codec) (·.sources)
        (fun v r => { r with sources := v }),
      .maybe "primaryPath" .string (·.primaryPath) (fun v r => { r with primaryPath := v }),
      .defaulted "mergeMode" MergeMode.codec (·.mergeMode) (fun v r => { r with mergeMode := v }),
      .defaulted "unwrapSingleItems" .bool (·.unwrapSingleItems)
        (fun v r => { r with unwrapSingleItems := v })]

namespace Selection

/-- The source whose records are mapped. -/
def primary? (s : Selection) : Option Source :=
  s.sources.head?

/-- The first source with an id. -/
def find? (s : Selection) (id : String) : Option Source :=
  s.sources.find? fun source => source.id == id

/-- **Where the records are.** -/
def effectivePrimaryPath (s : Selection) : String :=
  match s.primaryPath with
  | some path => path
  | none => (s.primary?.map (·.primaryPath)).getD ""

end Selection

end Reshape.Plan
