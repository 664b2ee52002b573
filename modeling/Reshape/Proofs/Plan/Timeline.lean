/-
# Reshape.Proofs.Plan.Timeline -- what every run of a timeline keeps

A timeline is moved by pushing a value, by applying an edit, by undoing and by redoing. A move that
does not succeed leaves the timeline as it is (`step`).

`redo?` puts a snapshot back without asking for room, so the limit on the snapshots behind the
current one is no invariant by itself. What every move keeps is the limit on the snapshots in both
directions together, along with the fact that neighbours differ (`Ordered`). A push is the only move
that brings in a new value, and it refuses one that equals the current value.

Undoing and redoing are inverse to each other wherever they succeed, also many steps in a row
(`times_inverse`).
-/

import Mathlib.Data.List.Chain
import Reshape.Plan.Timeline

namespace Reshape.Plan.Timeline

variable {α ε : Type}

/-! ## Moves -/

/-- **What can be done to a timeline.** -/
inductive Move (α ε : Type) where
  | push (next : α)
  | edit (change : α → Except ε α)
  | undo
  | redo

/-- **The timeline after a move**; one that does not succeed changes nothing. -/
def step [BEq α] (t : Timeline α) : Move α ε → Timeline α
  | .push next => t.push next
  | .edit change =>
    match t.edit change with
    | .ok moved => moved
    | .error _ => t
  | .undo => t.undo?.getD t
  | .redo => t.redo?.getD t

/-- The timeline after several moves. -/
def run [BEq α] (t : Timeline α) (moves : List (Move α ε)) : Timeline α :=
  moves.foldl step t

/-- **All snapshots, oldest first**: what can be undone to, the current value, and what can be
redone to. -/
def snapshots (t : Timeline α) : List α :=
  t.past.reverse ++ t.current :: t.future

/-- A later snapshot differs from the one before it, by the comparison that a push makes. -/
def Differs [BEq α] (older newer : α) : Prop :=
  (newer == older) = false

/-! ## The invariant -/

/-- **What every timeline keeps**: room for one step, no more snapshots than there is room for, and
differing neighbours in both directions from the current value. -/
structure Ordered [BEq α] (t : Timeline α) : Prop where
  room : 1 ≤ t.capacity
  bounded : t.past.length + t.future.length ≤ t.capacity
  past : (t.current :: t.past).IsChain fun newer older => Differs older newer
  future : (t.current :: t.future).IsChain Differs

variable [BEq α] {t t' : Timeline α}

theorem ordered_start (capacity : Nat) (initial : α) : (start capacity initial).Ordered where
  room := Nat.le_max_right capacity 1
  bounded := Nat.zero_le _
  past := .singleton initial
  future := .singleton initial

theorem Ordered.push (h : t.Ordered) (next : α) : (t.push next).Ordered := by
  rw [Timeline.push]
  split
  case isTrue => exact h
  case isFalse hne =>
    have hdiffers : Differs t.current next := eq_false_of_ne_true hne
    have hchain : (next :: t.current :: t.past).IsChain fun newer older => Differs older newer :=
      .cons_cons hdiffers h.past
    have hbounded := h.bounded
    refine ⟨h.room, ?_, ?_, .singleton next⟩
    · -- Only one value is given up, so it matters that there was no more than one too many.
      simp only [List.length_nil, Nat.add_zero]
      split
      case isTrue =>
        rw [List.length_dropLast, List.length_cons]
        omega
      case isFalse hfits => exact Nat.le_of_not_lt hfits
    · dsimp only
      split
      case isTrue =>
        rw [← List.dropLast_cons_of_ne_nil (List.cons_ne_nil t.current t.past)]
        exact hchain.dropLast
      case isFalse => exact hchain

theorem Ordered.undo? (h : t.Ordered) (ht : t.undo? = some t') : t'.Ordered := by
  unfold Timeline.undo? at ht
  split at ht
  case h_1 => cases ht
  case h_2 previous past hpast =>
    cases ht
    have hbounded := h.bounded
    have hchain := h.past
    rw [hpast] at hbounded hchain
    obtain ⟨hdiffers, hchain⟩ := List.isChain_cons_cons.mp hchain
    refine ⟨h.room, ?_, hchain, .cons_cons hdiffers h.future⟩
    simp only [List.length_cons] at hbounded ⊢
    omega

theorem Ordered.redo? (h : t.Ordered) (ht : t.redo? = some t') : t'.Ordered := by
  unfold Timeline.redo? at ht
  split at ht
  case h_1 => cases ht
  case h_2 next future hfuture =>
    cases ht
    have hbounded := h.bounded
    have hchain := h.future
    rw [hfuture] at hbounded hchain
    obtain ⟨hdiffers, hchain⟩ := List.isChain_cons_cons.mp hchain
    refine ⟨h.room, ?_, .cons_cons hdiffers h.past, hchain⟩
    simp only [List.length_cons] at hbounded ⊢
    omega

/-- **Every move keeps the invariant.** -/
theorem Ordered.step (h : t.Ordered) (m : Move α ε) : (t.step m).Ordered := by
  cases m with
  | push next => exact h.push next
  | edit change =>
    rw [Timeline.step, Timeline.edit]
    cases change t.current with
    | ok next => exact h.push next
    | error e => exact h
  | undo =>
    rw [Timeline.step]
    cases hu : t.undo? with
    | none => exact h
    | some t' => exact h.undo? hu
  | redo =>
    rw [Timeline.step]
    cases hr : t.redo? with
    | none => exact h
    | some t' => exact h.redo? hr

theorem Ordered.run (h : t.Ordered) (moves : List (Move α ε)) : (t.run moves).Ordered := by
  induction moves generalizing t with
  | nil => exact h
  | cons m moves ih => exact ih (h.step m)

theorem Ordered.snapshots (h : t.Ordered) : t.snapshots.IsChain Differs := by
  have hpast : (t.past.reverse ++ [t.current]).IsChain Differs := by
    rw [← List.reverse_cons]
    exact List.isChain_reverse.mpr h.past
  exact List.isChain_split.mpr ⟨hpast, h.future⟩

/-! ## The room -/

theorem capacity_step (t : Timeline α) (m : Move α ε) : (t.step m).capacity = t.capacity := by
  have hpush : ∀ next : α, (t.push next).capacity = t.capacity := by
    intro next
    rw [Timeline.push]
    split <;> rfl
  cases m with
  | push next => exact hpush next
  | edit change =>
    rw [Timeline.step, Timeline.edit]
    cases change t.current with
    | ok next => exact hpush next
    | error e => rfl
  | undo =>
    rw [Timeline.step, Timeline.undo?]
    split <;> rfl
  | redo =>
    rw [Timeline.step, Timeline.redo?]
    split <;> rfl

theorem capacity_run (t : Timeline α) (moves : List (Move α ε)) :
    (t.run moves).capacity = t.capacity := by
  induction moves generalizing t with
  | nil => rfl
  | cons m moves ih => exact (ih (t.step m)).trans (capacity_step t m)

/-! ## Back and forth -/

omit [BEq α]

/-- A move made several times in a row, if it succeeds every time. -/
def times (move : Timeline α → Option (Timeline α)) : Nat → Timeline α → Option (Timeline α)
  | 0, t => some t
  | k + 1, t => (move t).bind (times move k)

theorem times_succ (move : Timeline α → Option (Timeline α)) (k : Nat) (t : Timeline α) :
    times move (k + 1) t = (times move k t).bind move := by
  induction k generalizing t with
  | zero => simp only [times, Option.bind_some, Option.bind_fun_some]
  | succ k ih =>
    rw [times, times, Option.bind_assoc]
    congr 1
    funext u
    exact ih u

/-- **Going back takes back what went forth**, step by step, and so many steps in a row. -/
theorem times_inverse {forth back : Timeline α → Option (Timeline α)}
    (hback : ∀ t t', forth t = some t' → back t' = some t) {k : Nat} {t t' : Timeline α}
    (h : times forth k t = some t') : times back k t' = some t := by
  induction k generalizing t with
  | zero =>
    cases h
    rfl
  | succ k ih =>
    obtain ⟨u, hu, h⟩ := Option.bind_eq_some_iff.mp h
    rw [times_succ, ih h]
    exact hback t u hu

theorem redo?_of_undo? {t t' : Timeline α} (h : t.undo? = some t') : t'.redo? = some t := by
  obtain ⟨current, past, future, capacity⟩ := t
  cases past with
  | nil => cases h
  | cons previous past =>
    cases h
    rfl

theorem undo?_of_redo? {t t' : Timeline α} (h : t.redo? = some t') : t'.undo? = some t := by
  obtain ⟨current, past, future, capacity⟩ := t
  cases future with
  | nil => cases h
  | cons next future =>
    cases h
    rfl

/-! ## Every run -/

/-- **A timeline is bounded, and a cursor in it moves without loss.** After every run, there are no
more snapshots beside the current one than there is room for, neighbours among all snapshots differ,
moves that do not succeed change nothing, and so many steps back are taken back by as many steps
forth, and the other way round. -/
theorem bounded_and_ordered_run [BEq α] (initial : α) (capacity : Nat) (moves : List (Move α ε)) :
    let t := (start capacity initial).run moves
    t.past.length + t.future.length ≤ max capacity 1 ∧
      t.snapshots.IsChain (fun older newer => (newer == older) = false) ∧
      ((∀ (change : α → Except ε α) (e : ε), change t.current = .error e →
          t.step (.edit change) = t) ∧
        (∀ next : α, (next == t.current) = true → t.step (.push next : Move α ε) = t) ∧
        (t.undo? = none → t.step (.undo : Move α ε) = t) ∧
        (t.redo? = none → t.step (.redo : Move α ε) = t)) ∧
      ∀ (k : Nat) (t' : Timeline α),
        (times undo? k t = some t' → times redo? k t' = some t) ∧
          (times redo? k t = some t' → times undo? k t' = some t) := by
  intro t
  have hordered : t.Ordered := (ordered_start capacity initial).run moves
  have hcapacity : t.capacity = max capacity 1 := capacity_run _ moves
  refine ⟨hcapacity ▸ hordered.bounded, hordered.snapshots, ⟨?_, ?_, ?_, ?_⟩, ?_⟩
  · intro change e he
    rw [step, edit, he]
    rfl
  · intro next hnext
    rw [step, push, if_pos hnext]
  · intro hnone
    rw [step, hnone]
    rfl
  · intro hnone
    rw [step, hnone]
    rfl
  · intro k t'
    exact ⟨times_inverse fun _ _ => redo?_of_undo?, times_inverse fun _ _ => undo?_of_redo?⟩

end Reshape.Plan.Timeline
