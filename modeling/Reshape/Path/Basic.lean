/-
# Reshape.Path.Basic -- path expressions

A path is a text of segments between dots. A segment is a key with array suffixes: `items[*]` stands
for every element of the array under `items`, `items[2]` for one. A segment may repeat suffixes but
not mix the two kinds. The key may be empty when a suffix follows; then the segment speaks of the
value it is applied to. The empty text has no segments and addresses the root.

`parse` reads a text and `text` writes segments back.
-/

import Reshape.Text.Search
import Reshape.Decimal.Reader
import Reshape.Decimal.Notation

namespace Reshape.Path

/-! ## Segments -/

/-- The array suffixes of a segment. -/
inductive Access where
  | plain
  | wildcard (count : Nat)
  | indices (positions : List Nat)
  deriving DecidableEq, Repr

/-- **A segment of a path.** -/
structure Segment where
  key : String
  access : Access
  deriving DecidableEq, Repr

/-- The suffix that stands for every element. -/
def everyText : String := "[*]"

/-- The suffix that stands for one element. -/
def indexText (n : Nat) : String := "[" ++ Decimal.natText n ++ "]"

/-- The suffixes as text. -/
def Access.text : Access → String
  | .plain => ""
  | .wildcard n => "".intercalate (List.replicate n everyText)
  | .indices ns => "".intercalate (ns.map indexText)

/-- The segment as text. -/
def Segment.text (s : Segment) : String :=
  s.key ++ s.access.text

/-- The segment has a suffix. -/
def Segment.isArray (s : Segment) : Bool :=
  s.access != .plain

/-- **Segments as a path.** -/
def text (segments : List Segment) : String :=
  ".".intercalate (segments.map Segment.text)

/-! ## Flaws -/

/-- Why a path, or what was to be done with it, is refused. -/
inductive Flaw where
  | emptySegment
  | unbalanced
  | unterminated
  | trailing
  | badIndex (text : String)
  | manySuffixes (segment : String)
  | repeatedField (field : String)
  | unknownField (field : String)
  | noArray
  deriving DecidableEq, Repr

/-- The message of a flaw. -/
def Flaw.message : Flaw → String
  | .emptySegment => "empty segment"
  | .unbalanced => "unbalanced `]`"
  | .unterminated => "unterminated `[`"
  | .trailing => "unexpected characters after `]`"
  | .badIndex text => "invalid array index `" ++ text ++ "`"
  | .manySuffixes segment => "segment `" ++ segment ++ "` has more than one array suffix"
  | .repeatedField field => "array field `" ++ field ++ "` appears more than once"
  | .unknownField field => "`" ++ field ++ "` is not an array field of this path"
  | .noArray => "path does not traverse an array"

/-- A refusal, with the path it is about. -/
inductive Refusal where
  | invalid (path : String) (flaw : Flaw)
  | mixed (path segment : String)
  deriving DecidableEq, Repr

/-- The message of a refusal. -/
def Refusal.message : Refusal → String
  | .invalid path flaw => "Invalid path `" ++ path ++ "`: " ++ flaw.message
  | .mixed path segment =>
    "Path `" ++ path ++ "` mixes wildcard and fixed-index access in segment `" ++ segment ++ "`"

/-- The path that was refused. -/
def Refusal.path : Refusal → String
  | .invalid path _ => path
  | .mixed path _ => path

/-! ## Reading -/

/-- One array suffix. -/
inductive Suffix where
  | every
  | at (position : Nat)
  deriving DecidableEq, Repr

/-- What stands between two brackets. -/
def Suffix.ofInner (inner : List Char) : Except Flaw Suffix :=
  if inner = ['*'] then .ok .every
  else
    match Decimal.unsigned? inner with
    | some n => .ok (.at n)
    | none => .error (.badIndex (String.ofList inner))

/-- The suffixes of a segment. `inner` holds what was read since an open bracket, last character
first. -/
def suffixes : (inner : Option (List Char)) → List Char → Except Flaw (List Suffix)
  | none, [] => .ok []
  | none, c :: cs => if c = '[' then suffixes (some []) cs else .error .trailing
  | some _, [] => .error .unterminated
  | some inner, c :: cs =>
    if c = ']' then do
      let s ← Suffix.ofInner inner.reverse
      let ss ← suffixes none cs
      return s :: ss
    else suffixes (some (c :: inner)) cs

/-- The positions among suffixes. -/
def positions (ss : List Suffix) : List Nat :=
  ss.filterMap fun
    | .every => none
    | .at n => some n

/-- The access that suffixes make up, unless they are of both kinds. -/
def accessOf (ss : List Suffix) : Option Access :=
  let wildcards := ss.count .every
  let ns := positions ss
  if wildcards = 0 then some (if ns.isEmpty then .plain else .indices ns)
  else if ns.isEmpty then some (.wildcard wildcards)
  else none

/-- Read one segment of `path`. -/
def parseSegment (path : String) (raw : List Char) : Except Refusal Segment :=
  if raw.isEmpty then .error (.invalid path .emptySegment)
  else
    let key := raw.takeWhile (· ≠ '[')
    if key.contains ']' then .error (.invalid path .unbalanced)
    else
      match suffixes none (raw.dropWhile (· ≠ '[')) with
      | .error flaw => .error (.invalid path flaw)
      | .ok ss =>
        match accessOf ss with
        | some access => .ok ⟨String.ofList key, access⟩
        | none => .error (.mixed path (String.ofList raw))

/-- Read segments in turn; the first refusal counts. -/
def parseSegments (path : String) : List (List Char) → Except Refusal (List Segment)
  | [] => .ok []
  | raw :: raws => do
    let s ← parseSegment path raw
    let ss ← parseSegments path raws
    return s :: ss

/-- The segments of a path as they are written. -/
def raws (path : String) : List (List Char) :=
  Text.splitChar '.' path.toList

/-- **Read a path.** -/
def parse (path : String) : Except Refusal (List Segment) :=
  if path = "" then .ok [] else parseSegments path (raws path)

/-- The path can be read. -/
def valid (path : String) : Bool :=
  (parse path).isOk

/-! ## Paths as texts -/

/-- Remove every `[*]`. -/
def stripWildcards (path : String) : String :=
  String.ofList (Text.replaceAll everyText.toList [] path.toList)

/-- The path has a `[*]`. -/
def hasWildcard (path : String) : Bool :=
  Text.contains everyText.toList path.toList

/-- A key below a path. -/
def below (base key : String) : String :=
  if base = "" then key else base ++ "." ++ key

end Reshape.Path
