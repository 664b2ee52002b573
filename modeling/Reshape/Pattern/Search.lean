/-
# Reshape.Pattern.Search -- finding a pattern in a text

All ways of reading the text go on side by side, one character at a time, in the order of
preference. A way is a thread: its place in the program, and the positions that it has marked. Two
threads at one place have the same future, so the less preferred one is dropped; that bounds the
work. When a thread accepts, the less preferred ones end, the others may still do better. A new
thread starts at every position until a match is found; so the match found is the leftmost one, and
of those the most preferred.

Positions count characters. `occurrences` lists the matches of a text from left to right; they do
not overlap, and an empty match never touches the match before it.
-/

import Reshape.Pattern.Program

namespace Reshape.Pattern

/-- The marked positions, by slot: two for each group, its start and its end. -/
abbrev Marks := Array (Option Nat)

/-- **A way of reading the text so far.** -/
structure Thread where
  place : Nat
  marks : Marks

/-- Where in the text the threads are: the position, and the characters on both sides. -/
structure Here where
  position : Nat
  before : Option Char
  after : Option Char

/-- **Follow jumps, forks, marks and claims** from the threads of a stack, the first thread first,
until they read a character or accept. Every place is entered once. -/
def follow (p : Array Instruction) (h : Here) :
    (bound : Nat) → (stack : List Thread) → (seen : Array Bool) → (settled : List Thread) →
      List Thread
  | 0, _, _, settled => settled.reverse
  | _ + 1, [], _, settled => settled.reverse
  | bound + 1, t :: stack, seen, settled =>
    if seen.getD t.place true then follow p h bound stack seen settled
    else
      let seen := seen.setIfInBounds t.place true
      match p[t.place]? with
      | some (.jump n) => follow p h bound ({ t with place := n } :: stack) seen settled
      | some (.fork m n) =>
        follow p h bound ({ t with place := m } :: { t with place := n } :: stack) seen settled
      | some (.mark slot) =>
        let marks := t.marks.setIfInBounds slot (some h.position)
        follow p h bound (⟨t.place + 1, marks⟩ :: stack) seen settled
      | some (.look l) =>
        if l.holds h.before h.after then
          follow p h bound ({ t with place := t.place + 1 } :: stack) seen settled
        else follow p h bound stack seen settled
      | _ => follow p h bound stack seen (t :: settled)

/-- Read one character: the threads that go on, and the marks of the first thread that accepted.
Threads after that one end. -/
def advance (p : Array Instruction) (after : Option Char) : List Thread → List Thread × Option Marks
  | [] => ([], none)
  | t :: ts =>
    match p[t.place]? with
    | some .accept => ([], some t.marks)
    | some (.one set) =>
      let (next, found) := advance p after ts
      if after.any fun c => set.has c then ({ t with place := t.place + 1 } :: next, found)
      else (next, found)
    | _ => advance p after ts

/-- Go on through the text with the threads at hand; `found` is the best match so far. -/
def run (p : Pattern) : (position : Nat) → (before : Option Char) → (threads : List Thread) →
    (found : Option Marks) → List Char → Option Marks
  | position, before, threads, found, cs =>
    let fresh : List Thread :=
      if found.isNone then [⟨0, Array.replicate (2 * (p.groups + 1)) none⟩] else []
    let stack := threads ++ fresh
    let size := p.program.size
    let settled := follow p.program ⟨position, before, cs.head?⟩ (2 * size + stack.length + 1) stack
      (Array.replicate size false) []
    let (next, accepted) := advance p.program cs.head? settled
    let found := accepted.or found
    match cs with
    | [] => found
    | c :: cs =>
      if next.isEmpty && found.isSome then found else run p (position + 1) (some c) next found cs

/-- **The first match** in what follows a position; `before` is the character before it. -/
def find? (p : Pattern) (position : Nat) (before : Option Char) (cs : List Char) : Option Marks :=
  run p position before [] none cs

/-- The two ends of a group in a match. -/
def ends? (marks : Marks) (group : Nat) : Option (Nat × Nat) := do
  let start ← (marks[2 * group]?).join
  let stop ← (marks[2 * group + 1]?).join
  return (start, stop)

/-- The matches after a position, from left to right; `last` is the end of the match before. -/
def occurrencesFrom (p : Pattern) (text : List Char) :
    (bound : Nat) → (position : Nat) → (last : Option Nat) → List Marks
  | 0, _, _ => []
  | bound + 1, position, last =>
    if text.length < position then []
    else
      let before := if position = 0 then none else text[position - 1]?
      match find? p position before (text.drop position) with
      | none => []
      | some marks =>
        match ends? marks 0 with
        | none => []
        | some (start, stop) =>
          if start = stop ∧ last = some stop then occurrencesFrom p text bound (position + 1) none
          else marks :: occurrencesFrom p text bound stop (some stop)

/-- **The matches of a text.** -/
def occurrences (p : Pattern) (text : List Char) : List Marks :=
  occurrencesFrom p text (2 * text.length + 3) 0 none

end Reshape.Pattern
