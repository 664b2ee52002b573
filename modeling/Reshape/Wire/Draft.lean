/-
# Reshape.Wire.Draft -- a document read as far as it goes

A `Draft` is a JSON document in the form in which decoding meets it, front to back. It is either
taken from a value or read from text. Text can be at fault; then the draft holds everything before
the fault and ends there, so that whoever walks it in order meets a wrong shape or the fault,
whichever comes first. Repeated keys are still apart.

Some text is well-formed but stands for no value: a number beyond the range of floats, a string with
half of a surrogate pair. It is `valueless`, at fault where a value is wanted and harmless where it
is passed over.
-/

import Reshape.Wire.Flaw

namespace Reshape.Wire

/-- **A document read as far as it goes.** An array or object that is not `closed` broke off after
its last entry. A key without a value of its own is `none`. -/
inductive Draft where
  | null
  | bool (value : Bool)
  | num (value : Number)
  | str (value : String)
  | arr (items : List Draft) (closed : Bool)
  | obj (members : List (Option String × Draft)) (closed : Bool)
  | valueless
  | fault
  deriving Inhabited

/-- Where a draft comes from. Text limits how many containers may enclose a value: `room` more can
be entered. -/
inductive Origin where
  | value
  | text (room : Nat)
  deriving DecidableEq

namespace Origin

/-- Text may nest containers this deep. -/
def wholeText : Origin := .text 127

/-- Step into a container. -/
def enter : Origin → Except Flaw Origin
  | .value => .ok .value
  | .text 0 => .error .malformed
  | .text (room + 1) => .ok (.text room)

/-- The origin is text. -/
def isText : Origin → Bool
  | .value => false
  | .text _ => true

end Origin

namespace Draft

/-! ## From values -/

mutual

/-- The draft of a value. -/
def ofJson : Json → Draft
  | .null => .null
  | .bool b => .bool b
  | .num n => .num n
  | .str s => .str s
  | .arr items => .arr (ofItems items) true
  | .obj members => .obj (ofMembers members) true

def ofItems : List Json → List Draft
  | [] => []
  | x :: xs => ofJson x :: ofItems xs

def ofMembers : List (String × Json) → List (Option String × Draft)
  | [] => []
  | (key, x) :: ms => (some key, ofJson x) :: ofMembers ms

end

/-! ## To values -/

/-- Go on only when an array or object was closed. -/
def ending (closed : Bool) : Except Flaw Unit :=
  if closed then .ok () else .error .malformed

mutual

/-- **The value of a draft.** A repeated key keeps its first place and its last value. -/
def toJson (o : Origin) : Draft → Except Flaw Json
  | .null => .ok .null
  | .bool b => .ok (.bool b)
  | .num n => .ok (.num n)
  | .str s => .ok (.str s)
  | .arr items closed => do
    let inner ← o.enter
    let xs ← toItems inner items
    ending closed
    return .arr xs
  | .obj members closed => do
    let inner ← o.enter
    let ms ← toMembers inner members []
    ending closed
    return .obj ms
  | .valueless => .error .malformed
  | .fault => .error .malformed

def toItems (o : Origin) : List Draft → Except Flaw (List Json)
  | [] => .ok []
  | d :: ds => do
    let x ← toJson o d
    let xs ← toItems o ds
    return x :: xs

def toMembers (o : Origin) : List (Option String × Draft) → Members → Except Flaw Members
  | [], acc => .ok acc
  | (none, _) :: _, _ => .error .malformed
  | (some key, d) :: ds, acc => do
    let x ← toJson o d
    toMembers o ds (acc.insert key x)

end

/-! ## Passing over -/

mutual

/-- The draft holds no fault, at whatever depth. -/
def isSound : Draft → Bool
  | .arr items closed => soundItems items && closed
  | .obj members closed => soundMembers members && closed
  | .fault => false
  | _ => true

def soundItems : List Draft → Bool
  | [] => true
  | d :: ds => d.isSound && soundItems ds

def soundMembers : List (Option String × Draft) → Bool
  | [] => true
  | (_, d) :: ds => d.isSound && soundMembers ds

end

/-- Pass over a part that nobody reads. -/
def skip (d : Draft) : Except Flaw Unit :=
  if d.isSound then .ok () else .error .malformed

end Draft

end Reshape.Wire
