/-
# Reshape.Pattern.Program -- patterns as programs

A program is a list of instructions, each at a place. `one` reads a character of a set and goes on
at the next place; `look` goes on when a claim holds; `mark` notes the position; `jump` and `fork`
go elsewhere, `fork` to its first place by preference; `accept` ends a match.

`Node.code` lays a tree out. Repetitions are written out copy by copy. An unlimited repetition of a
tree that can match the empty text is laid out as one or more of it, made optional as a whole: so
the preference among empty matches is the one of the tree. What can only match the empty text is
never repeated more than once.

Before anything is laid out `Node.size` says how much memory the program would take.
-/

import Reshape.Pattern.Reading

namespace Reshape.Pattern

/-- An instruction. -/
inductive Instruction where
  | one (set : CharSet)
  | look (l : Look)
  | mark (slot : Nat)
  | jump (place : Nat)
  | fork (first second : Nat)
  | accept
  deriving Repr, Inhabited

/-- A part of a program, from the place where it will stand. -/
abbrev Code := Nat → List Instruction

namespace Code

/-- One part after another. -/
def andThen (a b : Code) : Code := fun start =>
  let front := a start
  front ++ b (start + front.length)

/-- A fork that prefers to go on, or to leave. -/
def choose (greedy : Bool) (inside outside : Nat) : Instruction :=
  if greedy then .fork inside outside else .fork outside inside

/-- Several copies. -/
def copies (a : Code) : (count : Nat) → Code
  | 0 => fun _ => []
  | count + 1 => a.andThen (copies a count)

/-- Several copies, each of which may end it. -/
def optional (greedy : Bool) (a : Code) : (count : Nat) → (stop : Nat) → Code
  | 0, _ => fun _ => []
  | count + 1, stop => fun start =>
    choose greedy (start + 1) stop :: (a.andThen (optional greedy a count stop)) (start + 1)

/-- Up to so many copies. -/
def upTo (greedy : Bool) (a : Code) (count : Nat) : Code := fun start =>
  optional greedy a count (start + count * ((a 0).length + 1)) start

/-- At least one copy. -/
def plus (greedy : Bool) (a : Code) : Code := fun start =>
  let inner := a start
  inner ++ [choose greedy start (start + inner.length + 1)]

/-- Any number of copies. -/
def star (greedy mayBeEmpty : Bool) (a : Code) : Code :=
  if mayBeEmpty then upTo greedy (plus greedy a) 1
  else fun start =>
    let inner := a (start + 1)
    choose greedy (start + 1) (start + inner.length + 2) :: inner ++ [.jump start]

/-- A repetition within bounds. -/
def times (least : Nat) (most : Option Nat) (greedy mayBeEmpty : Bool) (a : Code) : Code :=
  match least, most with
  | 0, none => star greedy mayBeEmpty a
  | least + 1, none => (copies a least).andThen (plus greedy a)
  | least, some most => (copies a least).andThen (upTo greedy a (most - least))

/-- One part or the other. -/
def either (a b : Code) : Code := fun start =>
  let first := a (start + 1)
  let second := start + first.length + 2
  let other := b second
  .fork (start + 1) second :: first ++ .jump (second + other.length) :: other

end Code

namespace Node

/-- The bounds of a repetition; more than one copy of the empty text is one. -/
def bounds (least : Nat) (most : Option Nat) (body : Node) : Nat × Option Nat :=
  if body.isAlwaysEmpty then (min least 1, some (min (most.getD 1) 1)) else (least, most)

mutual

/-- **The program of a tree.** -/
def code : Node → Code
  | .empty => fun _ => []
  | .one set => fun _ => [.one set]
  | .look l => fun _ => [.look l]
  | .times least most greedy body =>
    let (low, high) := bounds least most body
    Code.times low high greedy (body.minLength == 0) (code body)
  | .group none body => code body
  | .group (some i) body => fun start =>
    .mark (2 * i) :: (Code.andThen (code body) fun _ => [.mark (2 * i + 1)]) (start + 1)
  | .seq parts => codes parts
  | .alt choices => choiceCodes choices

/-- The program of trees after one another. -/
def codes : List Node → Code
  | [] => fun _ => []
  | n :: ns => Code.andThen (code n) (codes ns)

/-- The program of trees to choose from. -/
def choiceCodes : List Node → Code
  | [] => fun _ => []
  | [n] => code n
  | n :: ns => Code.either (code n) (choiceCodes ns)

end

/-! ## Size -/

/-- The memory of one instruction, in bytes. -/
def instructionSize : Nat := 32

/-- About how much memory a set of characters takes: an instruction a byte for a single character,
and a share for each range. -/
def setSize (s : CharSet) : Nat :=
  match s with
  | .ranges [(a, b)] =>
    if a = b then instructionSize * (Char.ofNat a).utf8Size else 2 * instructionSize
  | s => 2 * instructionSize + (if s.isAscii then 8 else 60) * s.weight

mutual

/-- **About how much memory the program of a tree takes.** -/
def size : Node → Nat
  | .empty => instructionSize
  | .one set => setSize set
  | .look _ => instructionSize
  | .times least most _ body =>
    let (low, high) := bounds least most body
    let copy := body.size
    match high with
    | none => max low 1 * copy + 2 * instructionSize
    | some high => low * copy + (high - low) * (copy + instructionSize + 8) + instructionSize
  | .group none body => body.size
  | .group (some _) body => body.size + 2 * instructionSize
  | .seq parts => sizes parts
  | .alt choices => sizes choices + (choices.length * 4 + 2 * instructionSize)

def sizes : List Node → Nat
  | [] => 0
  | n :: ns => n.size + sizes ns

end

end Node

end Reshape.Pattern

namespace Reshape

/-! ## Patterns -/

/-- **A pattern**, ready to be searched for: its program, the number of its groups, and their names.
Group 0 is the whole match. -/
structure Pattern where
  program : Array Pattern.Instruction
  groups : Nat
  names : List (String × Nat)

/-- **The pattern of a text.** -/
def Pattern.ofText (m : Modes) (text : String) : Except Fault Pattern := do
  let (tree, s) ← Node.ofText m text
  if maxSize < tree.size then .error .tooLarge
  else
    let whole : Node := .group (some 0) tree
    return ⟨(whole.code 0 ++ [Instruction.accept]).toArray, s.groups, s.names⟩

end Reshape
