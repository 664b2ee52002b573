/-
# Reshape.Plan.Timeline -- undoing and redoing

A timeline has a current value, the values before it and the values that were undone. It remembers a
limited number of steps back; the oldest ones are forgotten.
-/

namespace Reshape.Plan

/-- **A timeline.** The nearest value comes first in both directions. -/
structure Timeline (α : Type) where
  current : α
  past : List α
  future : List α
  capacity : Nat

namespace Timeline

/-- The number of steps that are remembered if nothing else is said. -/
def defaultCapacity : Nat := 50

/-- A timeline at its beginning. It remembers one step at least. -/
def start {α : Type} (capacity : Nat) (initial : α) : Timeline α :=
  { current := initial, past := [], future := [], capacity := max capacity 1 }

/-- **Go on to a value.** What was undone is lost, and the oldest value if there is one too many.
Going on to an equal value is no step. -/
def push {α : Type} [BEq α] (t : Timeline α) (next : α) : Timeline α :=
  if next == t.current then t
  else
    let past := t.current :: t.past
    { t with
      current := next
      past := if t.capacity < past.length then past.dropLast else past
      future := [] }

/-- **Go a step back.** -/
def undo? {α : Type} (t : Timeline α) : Option (Timeline α) :=
  match t.past with
  | [] => none
  | previous :: past =>
    some { t with current := previous, past := past, future := t.current :: t.future }

/-- **Take a step again that was undone.** -/
def redo? {α : Type} (t : Timeline α) : Option (Timeline α) :=
  match t.future with
  | [] => none
  | next :: future => some { t with current := next, past := t.current :: t.past, future := future }

/-- There is a step to undo. -/
def canUndo {α : Type} (t : Timeline α) : Bool :=
  !t.past.isEmpty

/-- There is a step to redo. -/
def canRedo {α : Type} (t : Timeline α) : Bool :=
  !t.future.isEmpty

/-- Go on to what an edit makes of the current value. A refused edit is no step. -/
def edit {α ε : Type} [BEq α] (t : Timeline α) (change : α → Except ε α) : Except ε (Timeline α) :=
  (change t.current).map t.push

end Timeline

end Reshape.Plan
