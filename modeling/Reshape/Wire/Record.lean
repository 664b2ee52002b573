/-
# Reshape.Wire.Record -- records and their JSON form

A record's JSON form is given once, as a `Shape`: the name under which messages know it, the record
before anything was read, and its fields in order. A `Field` says how it is read and how it is
written, so decoding and encoding cannot drift apart.

A record is read from an object in document order, or from an array whose items are the fields in
order. Keys that no field knows are passed over. What is reported is the first flaw in document
order; required fields that never came are reported after all members, in the order of the fields.
-/

import Reshape.Wire.Draft

namespace Reshape.Wire

/-! ## Values of one type -/

/-- How values of a type are read from a draft and written as JSON. -/
structure Codec (α : Type) where
  read : Origin → Draft → Except Flaw α
  write : α → Json

namespace Draft

/-- What a draft holds, for a message; a fault is a flaw of its own. -/
def found : Draft → Except Flaw Found
  | .null => .ok .null
  | .bool b => .ok (.bool b)
  | .num (.int n) => .ok (.int n)
  | .num (.float x) => .ok (.float x)
  | .str s => .ok (.string s)
  | .arr _ _ => .ok .sequence
  | .obj _ _ => .ok .map
  | .valueless => .error .malformed
  | .fault => .error .malformed

/-- Refuse a draft because it holds something else than wanted. -/
def refuse {α : Type} (d : Draft) (wanted : String) : Except Flaw α := do
  let f ← d.found
  .error (.wrongType f wanted)

/-- The items of an array, each read in turn. -/
def readItems {α : Type} (read : Origin → Draft → Except Flaw α) (o : Origin) :
    List Draft → Except Flaw (List α)
  | [] => .ok []
  | d :: ds => do
    let x ← read o d
    let xs ← readItems read o ds
    return x :: xs

end Draft

namespace Codec

/-- Strings. -/
def string : Codec String where
  read _ d := match d with
    | .str s => .ok s
    | d => d.refuse "a string"
  write s := .str s

/-- Truth values. -/
def bool : Codec Bool where
  read _ d := match d with
    | .bool b => .ok b
    | d => d.refuse "a boolean"
  write b := .bool b

/-- Any value at all. -/
def json : Codec Json where
  read o d := d.toJson o
  write v := v

/-- Integers from `low` to `high`, known to messages as `wanted`. -/
def intIn (low high : Int) (wanted : String) : Codec Int where
  read _ d := match d with
    | .num (.int n) => if low ≤ n ∧ n ≤ high then .ok n else .error (.wrongValue (.int n) wanted)
    | d => d.refuse wanted
  write n := .num (.int n)

/-- Signed 64-bit integers. -/
def int64 : Codec Int :=
  intIn (-Decimal.twoTo 63) (Decimal.twoTo 63 - 1) "i64"

/-- Naturals up to `high`. -/
def natUpTo (high : Nat) (wanted : String) : Codec Nat where
  read o d := ((intIn 0 high wanted).read o d).map Int.toNat
  write n := Json.nat n

/-- Sizes and positions, of 64 bits. -/
def size : Codec Nat :=
  natUpTo (Decimal.twoTo 64 - 1) "usize"

/-- Naturals of 32 bits. -/
def nat32 : Codec Nat :=
  natUpTo (Decimal.twoTo 32 - 1) "u32"

/-- Floats; an integer is taken as the nearest one. -/
def float : Codec Float where
  read _ d := match d with
    | .num n => .ok n.toFloat
    | d => d.refuse "f64"
  write x := if x.isFinite then .num (.float x) else .null

/-- Arrays. -/
def list {α : Type} (c : Codec α) : Codec (List α) where
  read o d := match d with
    | .arr items closed => do
      let inner ← o.enter
      let xs ← Draft.readItems c.read inner items
      Draft.ending closed
      return xs
    | d => d.refuse "a sequence"
  write xs := .arr (xs.map c.write)

/-- Objects with any keys. -/
def members : Codec Members where
  read o d := match d with
    | .obj ms closed => do
      let inner ← o.enter
      let xs ← Draft.toMembers inner ms []
      Draft.ending closed
      return xs
    | d => d.refuse "a map"
  write ms := .obj ms

/-- The value that a name stands for. -/
def variant {α : Type} (known : List (String × α)) (name : String) : Except Flaw α :=
  match known.lookup name with
  | some a => .ok a
  | none => .error (.unknownVariant name (known.map Prod.fst))

/-- The null that follows the name of a variant in an object. -/
def readUnit : Draft → Except Flaw Unit
  | .null => .ok ()
  | d => d.refuse "unit"

/-- One of several names. The name stands alone, or as the one key of an object whose value is null.
Text that holds neither form is malformed. -/
def oneOf {α : Type} (known : List (String × α)) (name : α → String) : Codec α where
  read o d := match d with
    | .str s => variant known s
    | .obj ms closed =>
      match o, ms with
      | .value, [(some key, d)] => do
        let a ← variant known key
        readUnit d
        return a
      | .value, _ => .error (.wrongValue .map "map with a single key")
      | .text _, (some key, d) :: ms => do
        let _ ← o.enter
        let a ← variant known key
        readUnit d
        Draft.ending (closed && ms.isEmpty)
        return a
      | .text _, _ => .error .malformed
    | d => if o.isText then .error .malformed else d.refuse "string or map"
  write a := .str (name a)

end Codec

/-! ## Fields -/

/-- **A field of a record `ρ`**: its key, whether it must be there, and its two directions. Writing
gives nothing when the field is left out. -/
structure Field (ρ : Type) where
  key : String
  other : Option String := none
  required : Bool := false
  read : Origin → Draft → Except Flaw (ρ → ρ)
  write : ρ → Option Json

namespace Field

variable {ρ α : Type}

/-- A field that must be there. -/
def needed (key : String) (c : Codec α) (get : ρ → α) (set : α → ρ → ρ) : Field ρ where
  key := key
  required := true
  read o d := (c.read o d).map set
  write r := some (c.write (get r))

/-- A field that stays as it is in the blank record when it is missing, and is always written. -/
def defaulted (key : String) (c : Codec α) (get : ρ → α) (set : α → ρ → ρ) : Field ρ where
  key := key
  read o d := (c.read o d).map set
  write r := some (c.write (get r))

/-- A field that may be missing or null, and is written only when it is there. -/
def maybe (key : String) (c : Codec α) (get : ρ → Option α) (set : Option α → ρ → ρ) : Field ρ where
  key := key
  read o d := match d with
    | .null => .ok (set none)
    | d => (c.read o d).map fun a => set (some a)
  write r := (get r).map c.write

/-- A value that may be missing; null is a value like any other. -/
def present (key : String) (get : ρ → Option Json) (set : Option Json → ρ → ρ) : Field ρ where
  key := key
  read o d := (d.toJson o).map fun v => set (some v)
  write r := get r

/-- A truth value that is written only when it is true. -/
def flag (key : String) (get : ρ → Bool) (set : Bool → ρ → ρ) : Field ρ where
  key := key
  read o d := (Codec.bool.read o d).map set
  write r := if get r then some (.bool true) else none

/-- Let the field go by a second key, too. -/
def orKey (f : Field ρ) (key : String) : Field ρ :=
  { f with other := some key }

/-- The field goes by this key. -/
def answersTo (f : Field ρ) (key : String) : Bool :=
  f.key == key || f.other == some key

end Field

/-! ## Records -/

/-- **The JSON form of a record.** -/
structure Shape (ρ : Type) where
  name : String
  blank : ρ
  fields : List (Field ρ)

namespace Shape

variable {ρ : Type} (s : Shape ρ)

/-- Read the members of an object in order; `seen` lists the fields that came, by their first
keys. -/
def readMembers (o : Origin) : List (Option String × Draft) → ρ → List String →
    Except Flaw (ρ × List String)
  | [], r, seen => .ok (r, seen)
  | (none, _) :: _, _, _ => .error .malformed
  | (some key, d) :: ms, r, seen =>
    match s.fields.find? (·.answersTo key) with
    | none => do
      d.skip
      readMembers o ms r seen
    | some f =>
      if seen.contains f.key then .error (.duplicate f.key)
      else do
        let update ← f.read o d
        readMembers o ms (update r) (f.key :: seen)

/-- Read the items of an array as fields in order. Fields that may be missing may be missing at the
end. -/
def readItems (o : Origin) (closed : Bool) : (index : Nat) → List (Field ρ) → List Draft → ρ →
    Except Flaw (ρ × List Draft)
  | _, [], ds, r => .ok (r, ds)
  | index, f :: fs, [], r =>
    if !closed then .error .malformed
    else if f.required then .error (.tooShort index s.name s.fields.length)
    else readItems o closed (index + 1) fs [] r
  | index, f :: fs, d :: ds, r => do
    let update ← f.read o d
    readItems o closed (index + 1) fs ds (update r)

/-- The first required field that never came. -/
def firstMissing (seen : List String) : Option String :=
  (s.fields.find? fun f => f.required && !seen.contains f.key).map (·.key)

/-- **Decode a record.** -/
def decode (o : Origin) : Draft → Except Flaw ρ
  | .obj ms closed => do
    let inner ← o.enter
    let (r, seen) ← s.readMembers inner ms s.blank []
    Draft.ending closed
    match s.firstMissing seen with
    | some field => .error (.missing field)
    | none => .ok r
  | .arr items closed => do
    let inner ← o.enter
    let (r, spare) ← s.readItems inner closed 0 s.fields items s.blank
    if spare.isEmpty then
      Draft.ending closed
      return r
    else if o.isText then .error .malformed
    else .error (.tooLong items.length)
  | d => d.refuse ("struct " ++ s.name)

/-- **Encode a record.** -/
def encode (r : ρ) : Json :=
  .obj (s.fields.filterMap fun f => (f.write r).map fun v => (f.key, v))

/-- A record as part of others. -/
def codec : Codec ρ where
  read o d := s.decode o d
  write r := s.encode r

/-- Decode a record from a value. -/
def ofJson (value : Json) : Except Flaw ρ :=
  s.decode .value (.ofJson value)

/-- Decode a record from text. -/
def ofText (read : Draft × Bool) : Except Flaw ρ := do
  let r ← s.decode .wholeText read.1
  Draft.ending read.2
  return r

end Shape

end Reshape.Wire
