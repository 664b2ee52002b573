/-
# Reshape.Path.Read -- values at a path

Two ways to read a document. `Json.get?` finds one value. A segment that is literally a key of the
object at hand means that key, brackets and all; otherwise `name[2]` goes through the array under
`name`, and a number alone is a position in the array at hand. Wildcards have no single value.

`Json.getAll` finds every value of a path, with each `[*]` ranging over the elements of the array at
hand in order. It goes by segments only: a key with brackets is no key.
-/

import Reshape.Json.Basic
import Reshape.Path.Basic

namespace Reshape.Json

/-- The elements of an array. -/
def items? : Json → Option (List Json)
  | .arr xs => some xs
  | _ => none

/-- The element of an array at a position. -/
def item? (position : Nat) : Json → Option Json
  | .arr xs => xs[position]?
  | _ => none

/-- Through nested arrays, outermost position first. -/
def itemAt? (positions : List Nat) (node : Json) : Option Json :=
  positions.foldl (fun current n => current.bind (item? n)) (some node)

/-- The value under a key: a member of an object, or the element at the position that the key
spells. The empty key is the value itself. -/
def child? (key : String) (node : Json) : Option Json :=
  if key = "" then some node
  else
    match node with
    | .obj ms => Members.get? ms key
    | .arr xs => (Decimal.unsigned? key.toList).bind fun n => xs[n]?
    | _ => none

/-- What a segment with positions addresses, read off its text. -/
def indexed? (raw : List Char) (node : Json) : Option Json :=
  match Path.parseSegment (String.ofList raw) raw with
  | .ok ⟨key, .indices ns⟩ => (child? key node).bind (itemAt? ns)
  | _ => none

/-- One step along a path, by a segment as it is written. -/
def step? (raw : List Char) (node : Json) : Option Json :=
  match node with
  | .obj ms =>
    match Members.get? ms (String.ofList raw) with
    | some v => some v
    | none => indexed? raw node
  | .arr xs =>
    match Decimal.unsigned? raw with
    | some n => xs[n]?
    | none => indexed? raw node
  | _ => none

/-- Follow segments as they are written. -/
def follow? : List (List Char) → Json → Option Json
  | [], node => some node
  | raw :: raws, node => (step? raw node).bind (follow? raws)

/-- **The value at a path.** -/
def get? (root : Json) (path : String) : Option Json :=
  if path = "" then some root else follow? (Path.raws path) root

/-- Through `count` levels of arrays, every element of each. -/
def everyItem : (count : Nat) → List Json → List Json
  | 0, nodes => nodes
  | count + 1, nodes => everyItem count (nodes.flatMap fun n => n.items?.getD [])

/-- The values that a segment leads to. -/
def expand (segment : Path.Segment) (node : Json) : List Json :=
  match child? segment.key node with
  | none => []
  | some base =>
    match segment.access with
    | .plain => [base]
    | .indices ns => (itemAt? ns base).toList
    | .wildcard n => everyItem n [base]

/-- The values that segments lead to, one after the other. -/
def expandAll (segments : List Path.Segment) (nodes : List Json) : List Json :=
  segments.foldl (fun found segment => found.flatMap (expand segment)) nodes

/-- **Every value of a path**, in the order of positions. A path that cannot be read has none. -/
def getAll (root : Json) (path : String) : List Json :=
  match Path.parse path with
  | .ok segments => expandAll segments [root]
  | .error _ => []

end Reshape.Json
