/-
# Reshape.Plan.Pins -- positions in the arrays of a path

A path that goes through arrays, taken apart: `template` has every array suffix as a wildcard,
`indices` has the positions to which array fields are pinned. Putting them back gives the path
again. A field is known by its key, so a path may go through each array field once only, and through
one level of it.
-/

import Reshape.Path.Basic
import Reshape.Wire.Record

namespace Reshape.Plan

open Wire

/-- Whether the result is an array of every match, or a single value. -/
inductive PinMode where
  | array
  | index
  deriving DecidableEq, Repr

/-- The JSON form of the mode. -/
def PinMode.codec : Codec PinMode :=
  .oneOf [("array", .array), ("index", .index)] fun
    | .array => "array"
    | .index => "index"

/-- Positions by array field, in the order of the fields' names. -/
abbrev Indices := List (String × Nat)

namespace Indices

/-- Pin a field to a position. -/
def insert (field : String) (index : Nat) : Indices → Indices
  | [] => [(field, index)]
  | (f, i) :: rest =>
    if f = field then (field, index) :: rest
    else if field < f then (field, index) :: (f, i) :: rest
    else (f, i) :: insert field index rest

/-- The position of a field. -/
def get? (is : Indices) (field : String) : Option Nat :=
  List.lookup field is

/-- Release a field. -/
def erase (is : Indices) (field : String) : Indices :=
  is.filter fun e => e.1 != field

/-- Read positions in document order; the last one of a field counts. -/
def readMembers (o : Origin) : List (Option String × Draft) → Indices → Except Wire.Flaw Indices
  | [], is => .ok is
  | (none, _) :: _, _ => .error .malformed
  | (some field, d) :: ms, is => do
    let n ← Codec.size.read o d
    readMembers o ms (is.insert field n)

/-- The JSON form of positions. -/
def codec : Codec Indices where
  read o d := match d with
    | .obj ms closed => do
      let inner ← o.enter
      let is ← readMembers inner ms []
      Draft.ending closed
      return is
    | d => d.refuse "a map"
  write is := .obj (is.map fun e => (e.1, Json.nat e.2))

end Indices

/-- **A path through arrays, taken apart.** -/
structure Pins where
  fields : List String := []
  indices : Indices := []
  templatePath : String := ""
  mode : PinMode := .array
  deriving DecidableEq, Repr

/-- The JSON form of pins. -/
def Pins.shape : Shape Pins where
  name := "ArrayIndexConfig"
  blank := {}
  fields :=
    [.needed "fields" (.list .string) (·.fields) (fun v r => { r with fields := v }),
      .defaulted "indices" Indices.codec (·.indices) (fun v r => { r with indices := v }),
      .needed "templatePath" .string (·.templatePath) (fun v r => { r with templatePath := v }),
      .needed "mappingMode" PinMode.codec (·.mode) (fun v r => { r with mode := v })]

namespace Pins

/-! ## Taking a path apart -/

/-- The array field of a segment and its position; `none` for a segment that is no array. A segment
with more than one suffix is refused. -/
def fieldOf (path : String) (s : Path.Segment) :
    Except Path.Refusal (Option (String × Option Nat)) :=
  match s.access with
  | .plain => .ok none
  | .wildcard 1 => .ok (some (s.key, none))
  | .indices [n] => .ok (some (s.key, some n))
  | _ => .error (.invalid path (.manySuffixes s.text))

/-- The array fields of segments with their positions; `seen` are the fields before. -/
def fieldsOf (path : String) : (seen : List String) → List Path.Segment →
    Except Path.Refusal (List (String × Option Nat))
  | _, [] => .ok []
  | seen, s :: ss => do
    match ← fieldOf path s with
    | none => fieldsOf path seen ss
    | some (field, position) =>
      if seen.contains field then .error (.invalid path (.repeatedField field))
      else
        let rest ← fieldsOf path (seen ++ [field]) ss
        return (field, position) :: rest

/-- The segment with its array suffix as a wildcard. -/
def released (s : Path.Segment) : Path.Segment :=
  if s.isArray then { s with access := .wildcard 1 } else s

/-- **Take a path apart**; there is nothing to take apart when it goes through no array. -/
def ofPath (path : String) : Except Path.Refusal (Option Pins) := do
  let segments ← Path.parse path
  let found ← fieldsOf path [] segments
  if found.isEmpty then return none
  else
    return some
      { fields := found.map Prod.fst
        indices := found.foldl (fun is e => match e.2 with
          | some n => is.insert e.1 n
          | none => is) []
        templatePath := Path.text (segments.map released)
        mode := if found.all fun e => e.2.isSome then .index else .array }

/-! ## Putting it together again -/

/-- The segment with the position of its field. -/
def pinned (is : Indices) (s : Path.Segment) : Path.Segment :=
  match s.access with
  | .wildcard 1 =>
    match is.get? s.key with
    | some n => { s with access := .indices [n] }
    | none => s
  | _ => s

/-- **The path that pins stand for.** -/
def resolve (p : Pins) : Except Path.Refusal String := do
  let segments ← Path.parse p.templatePath
  return Path.text (segments.map (pinned p.indices))

/-- The pins stand for this very path. -/
def roundTrips (p : Pins) (path : String) : Bool :=
  match p.resolve with
  | .ok resolved => resolved == path
  | .error _ => false

/-! ## Changes -/

/-- **Pin a field to a position.** With every field pinned the result is a single value. -/
def pin (p : Pins) (field : String) (index : Nat) : Except Path.Refusal Pins :=
  if !p.fields.contains field then .error (.invalid p.templatePath (.unknownField field))
  else
    let indices := p.indices.insert field index
    .ok { p with
      indices := indices
      mode := if p.fields.all fun f => (indices.get? f).isSome then .index else p.mode }

/-- **Release a field.** -/
def release (p : Pins) (field : String) : Pins :=
  if (p.indices.get? field).isSome then { p with indices := p.indices.erase field, mode := .array }
  else p

end Pins

end Reshape.Plan
