/-
# Reshape.Path.Write -- writing at a path

`Json.set` stores a value at a path and makes the objects that are missing on the way. Segments are
taken as they are written: brackets are part of a key. Only an element of an existing array is
entered by its position, and not by the last segment; whatever else is in the way of an object is
replaced by one. A path that cannot be read changes nothing, and the empty path replaces the
document.
-/

import Reshape.Path.Read

namespace Reshape.Json

/-- The members of an object; anything else has none. -/
def membersOrNone : Json → Members
  | .obj ms => ms
  | _ => []

/-- The value if it holds further values, else an empty object. -/
def containerOr : Option Json → Json
  | some (.obj ms) => .obj ms
  | some (.arr xs) => .arr xs
  | _ => .obj []

/-- The position in an array of `length` elements that a key spells. -/
def positionIn? (length : Nat) (key : List Char) : Option Nat :=
  match Decimal.unsigned? key with
  | some n => if n < length then some n else none
  | none => none

/-- Store a value below a node, by segments as they are written. -/
def put (value : Json) : List (List Char) → Json → Json
  | [], _ => value
  | [key], node => .obj ((membersOrNone node).insert (String.ofList key) value)
  | key :: keys, .arr xs =>
    match positionIn? xs.length key with
    | some n => .arr (xs.set n (put value keys ((xs[n]?).getD .null)))
    | none => .obj [(String.ofList key, put value keys (.obj []))]
  | key :: keys, node =>
    let ms := membersOrNone node
    let name := String.ofList key
    .obj (ms.insert name (put value keys (containerOr (ms.get? name))))

/-- **Store a value at a path.** -/
def set (root : Json) (path : String) (value : Json) : Json :=
  if path = "" then value
  else if Path.valid path then put value (Path.raws path) root
  else root

end Reshape.Json
