/-
# Reshape.Json.Basic -- JSON values

A JSON value as a document holds it. Numbers come in two classes that never mix: integers, kept
exactly, and floats; `3` and `3.0` are different values with different texts. An object is a list of
members in the order in which they were written, and the operations below keep its keys distinct.

`Json.same` is the equality of *values*: the order of an object's members does not count, and the
two zeros of a float are one. It is coarser than equality of documents.
-/

namespace Reshape

/-! ## Numbers -/

/-- A JSON number: an integer or a float. -/
inductive Number where
  | int (value : Int)
  | float (value : Float)
  deriving DecidableEq, Inhabited

namespace Number

/-- Equality of values: integers exactly, floats as numbers, and never one with the other. -/
def same : Number → Number → Bool
  | .int a, .int b => a == b
  | .float a, .float b => a == b
  | _, _ => false

/-- The float nearest to a number. -/
def toFloat : Number → Float
  | .int n => Float.ofInt n
  | .float x => x

end Number

/-! ## Values -/

/-- **A JSON value.** -/
inductive Json where
  | null
  | bool (value : Bool)
  | num (value : Number)
  | str (value : String)
  | arr (items : List Json)
  | obj (members : List (String × Json))
  deriving Inhabited

/-- The members of an object, in order. -/
abbrev Members := List (String × Json)

namespace Members

/-- The value stored under `key`. -/
def get? (ms : Members) (key : String) : Option Json :=
  List.lookup key ms

/-- Store `value` under `key`: an existing key keeps its place, a new one goes last. -/
def insert (key : String) (value : Json) : Members → Members
  | [] => [(key, value)]
  | (k, v) :: ms => if k = key then (k, value) :: ms else (k, v) :: insert key value ms

/-- The members of a list of assignments, read from left to right. -/
def ofList (ms : List (String × Json)) : Members :=
  ms.foldl (fun acc m => insert m.1 m.2 acc) []

/-- The keys, in order. -/
def keys (ms : Members) : List String :=
  ms.map Prod.fst

@[simp] theorem get?_nil (key : String) : get? [] key = none := rfl

theorem get?_insert_self (ms : Members) (key : String) (value : Json) :
    (insert key value ms).get? key = some value := by
  induction ms with
  | nil => simp [insert, get?]
  | cons m ms ih =>
    obtain ⟨k, v⟩ := m
    by_cases h : k = key
    · simp [insert, h, get?]
    · have h' : (key == k) = false := by simpa using Ne.symm h
      simpa [insert, h, get?, List.lookup_cons, h'] using ih

theorem get?_insert_of_ne (ms : Members) {key other : String} (value : Json) (h : other ≠ key) :
    (insert key value ms).get? other = ms.get? other := by
  induction ms with
  | nil =>
    have h' : (other == key) = false := by simpa using h
    simp [insert, get?, List.lookup_cons, h']
  | cons m ms ih =>
    obtain ⟨k, v⟩ := m
    by_cases hk : k = key
    · subst hk
      have h' : (other == k) = false := by simpa using h
      simp [insert, get?, List.lookup_cons, h']
    · by_cases ho : other = k
      · subst ho
        simp [insert, hk, get?]
      · have h' : (other == k) = false := by simpa using ho
        simpa [insert, hk, get?, List.lookup_cons, h'] using ih

end Members

namespace Json

/-- A natural number as a JSON integer. -/
def nat (n : Nat) : Json :=
  .num (.int n)

/-- An array of strings. -/
def strings (items : List String) : Json :=
  .arr (items.map .str)

def isNull : Json → Bool
  | .null => true
  | _ => false

def isArray : Json → Bool
  | .arr _ => true
  | _ => false

/-- Arrays and objects hold further values. -/
def isContainer : Json → Bool
  | .arr _ => true
  | .obj _ => true
  | _ => false

/-! ## Equality of values -/

mutual

/-- **Equality of values**: members are compared by key, floats as numbers. -/
def same : Json → Json → Bool
  | .null, .null => true
  | .bool a, .bool b => a == b
  | .num a, .num b => a.same b
  | .str a, .str b => a == b
  | .arr xs, .arr ys => sameItems xs ys
  | .obj ms, .obj ns => ms.length == ns.length && sameMembers ms ns
  | _, _ => false

def sameItems : List Json → List Json → Bool
  | [], [] => true
  | x :: xs, y :: ys => x.same y && sameItems xs ys
  | _, _ => false

/-- Every member of the first list has an equal one in the second. -/
def sameMembers : List (String × Json) → List (String × Json) → Bool
  | [], _ => true
  | (key, x) :: ms, ns =>
    (match Members.get? ns key with
      | some y => x.same y
      | none => false) && sameMembers ms ns

end

end Json

end Reshape
