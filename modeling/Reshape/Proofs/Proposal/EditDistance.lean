/-
# Reshape.Proofs.Proposal.EditDistance -- the distance of two texts is the least number of edits

An edit inserts one character into a text, deletes one or replaces one, at any place. The main
result (`isLeast_distance`) is that the number computed row by row is the length of a shortest
sequence of edits from the one text to the other. Edits need not go from left to right, and they may
undo each other: all sequences are in the comparison.

`least` stands between the two sides. It follows the first characters of both texts, and it is a
number of edits that is enough (`edits_least`). A single edit of the second text changes it by at
most one (`Edit.least_le`), so no sequence is shorter. The rows go over the texts from the other
end: the entry for a start of each text is `least` of the two starts read backwards (`lastRow_eq`).
-/

import Mathlib.Order.Bounds.Basic
import Reshape.Proposal.Similarity

namespace Reshape.Proposal

/-! ## Edits -/

/-- **One edit**: a character is inserted, deleted or replaced. -/
inductive Edit : List Char → List Char → Prop
  | insert (before after : List Char) (c : Char) : Edit (before ++ after) (before ++ c :: after)
  | delete (before after : List Char) (c : Char) : Edit (before ++ c :: after) (before ++ after)
  | replace (before after : List Char) (c d : Char) :
      Edit (before ++ c :: after) (before ++ d :: after)

/-- **Edits in sequence**, as many as the number says. -/
inductive Edits : Nat → List Char → List Char → Prop
  | none (xs : List Char) : Edits 0 xs xs
  | snoc {n : Nat} {xs ys zs : List Char} (first : Edits n xs ys) (last : Edit ys zs) :
      Edits (n + 1) xs zs

variable {xs ys zs : List Char} {n : Nat}

/-- An edit can as well be made behind a character that stays. -/
theorem Edit.cons (x : Char) (h : Edit xs ys) : Edit (x :: xs) (x :: ys) := by
  cases h with
  | insert before after c => exact .insert (x :: before) after c
  | delete before after c => exact .delete (x :: before) after c
  | replace before after c d => exact .replace (x :: before) after c d

theorem Edits.cons (x : Char) (h : Edits n xs ys) : Edits n (x :: xs) (x :: ys) := by
  induction h with
  | none xs => exact .none (x :: xs)
  | snoc _ hlast ih => exact .snoc ih (hlast.cons x)

theorem Edits.head (hfirst : Edit xs ys) (h : Edits n ys zs) : Edits (n + 1) xs zs := by
  induction h with
  | none ys => exact .snoc (.none xs) hfirst
  | snoc _ hlast ih => exact .snoc (ih hfirst) hlast

theorem Edits.min {m : Nat} (h : Edits m xs ys) (h' : Edits n xs ys) : Edits (min m n) xs ys := by
  rcases Nat.le_total m n with hle | hle
  · rwa [Nat.min_eq_left hle]
  · rwa [Nat.min_eq_right hle]

/-- Texts read backwards are edited alike. -/
theorem Edit.reverse (h : Edit xs ys) : Edit xs.reverse ys.reverse := by
  cases h with
  | insert before after c =>
    simpa using Edit.insert after.reverse before.reverse c
  | delete before after c =>
    simpa using Edit.delete after.reverse before.reverse c
  | replace before after c d =>
    simpa using Edit.replace after.reverse before.reverse c d

theorem Edits.reverse (h : Edits n xs ys) : Edits n xs.reverse ys.reverse := by
  induction h with
  | none xs => exact .none xs.reverse
  | snoc _ hlast ih => exact .snoc ih hlast.reverse

/-! ## The least number of edits, from the front -/

/-- **The least number of edits**: the first characters are matched, or one of them is left out. -/
def least : List Char → List Char → Nat
  | [], ys => ys.length
  | x :: xs, [] => (x :: xs).length
  | x :: xs, y :: ys =>
    min (min (least xs (y :: ys) + 1) (least (x :: xs) ys + 1))
      (least xs ys + if x = y then 0 else 1)
  termination_by xs ys => xs.length + ys.length

@[simp] theorem least_nil_left (ys : List Char) : least [] ys = ys.length := by
  rw [least]

@[simp] theorem least_nil_right (xs : List Char) : least xs [] = xs.length := by
  cases xs <;> rw [least]

theorem least_cons_cons (x : Char) (xs : List Char) (y : Char) (ys : List Char) :
    least (x :: xs) (y :: ys) =
      min (min (least xs (y :: ys) + 1) (least (x :: xs) ys + 1))
        (least xs ys + if x = y then 0 else 1) := by
  rw [least]

theorem least_self (xs : List Char) : least xs xs = 0 := by
  induction xs with
  | nil => rw [least_nil_left, List.length_nil]
  | cons x xs ih => rw [least_cons_cons, ih, if_pos rfl, Nat.add_zero, Nat.min_zero]

theorem least_le_max (xs ys : List Char) : least xs ys ≤ max xs.length ys.length := by
  fun_induction least xs ys with
  | case1 ys => exact Nat.le_max_right _ _
  | case2 x xs => exact Nat.le_max_left _ _
  | case3 x xs y ys _ _ ih =>
    simp only [List.length_cons]
    have hcost : (if x = y then 0 else 1) ≤ 1 := by split <;> omega
    omega

theorem edits_insert (ys : List Char) : Edits ys.length [] ys := by
  induction ys with
  | nil => exact .none []
  | cons y ys ih => exact .snoc ih (.insert [] ys y)

theorem edits_delete (xs : List Char) : Edits xs.length xs [] := by
  induction xs with
  | nil => exact .none []
  | cons x xs ih => exact .head (.delete [] xs x) ih

/-- **So many edits are enough.** -/
theorem edits_least (xs ys : List Char) : Edits (least xs ys) xs ys := by
  fun_induction least xs ys with
  | case1 ys => exact edits_insert ys
  | case2 x xs => exact edits_delete (x :: xs)
  | case3 x xs y ys hdelete hinsert hmatch =>
    have hdelete : Edits (least xs (y :: ys) + 1) (x :: xs) (y :: ys) :=
      .head (.delete [] xs x) hdelete
    have hinsert : Edits (least (x :: xs) ys + 1) (x :: xs) (y :: ys) :=
      .snoc hinsert (.insert [] ys y)
    have hmatch : Edits (least xs ys + if x = y then 0 else 1) (x :: xs) (y :: ys) := by
      split
      case isTrue heq =>
        subst heq
        exact hmatch.cons x
      case isFalse => exact .snoc (hmatch.cons x) (.replace [] ys x y)
    exact (hdelete.min hinsert).min hmatch

/-! ## An edit changes it by at most one -/

theorem least_insert_le (xs ys : List Char) (c : Char) : least xs (c :: ys) ≤ least xs ys + 1 := by
  cases xs with
  | nil => simp
  | cons x xs =>
    rw [least_cons_cons]
    omega

theorem least_delete_le (xs ys : List Char) (c : Char) : least xs ys ≤ least xs (c :: ys) + 1 := by
  induction xs with
  | nil =>
    simp only [least_nil_left, List.length_cons]
    omega
  | cons x xs ih =>
    -- leaving out `x` as well takes one edit more than the texts behind it
    have hskip : least (x :: xs) ys ≤ least xs ys + 1 := by
      cases ys with
      | nil => simp
      | cons y ys =>
        rw [least_cons_cons]
        omega
    rw [least_cons_cons]
    omega

theorem least_replace_le (xs ys : List Char) (c d : Char) :
    least xs (d :: ys) ≤ least xs (c :: ys) + 1 := by
  induction xs with
  | nil => simp
  | cons x xs ih =>
    have hcost : (if x = d then 0 else 1) ≤ 1 := by split <;> omega
    rw [least_cons_cons, least_cons_cons x xs c]
    omega

theorem least_cons_le (c : Char) (h : ∀ xs, least xs zs ≤ least xs ys + 1) (xs : List Char) :
    least xs (c :: zs) ≤ least xs (c :: ys) + 1 := by
  induction xs with
  | nil =>
    have hnil := h []
    simp only [least_nil_left] at hnil
    simp only [least_nil_left, List.length_cons]
    omega
  | cons x xs ih =>
    have hskip := h (x :: xs)
    have hmatch := h xs
    rw [least_cons_cons, least_cons_cons x xs c ys]
    omega

theorem least_append_le (before : List Char) (h : ∀ xs, least xs zs ≤ least xs ys + 1) :
    ∀ xs, least xs (before ++ zs) ≤ least xs (before ++ ys) + 1 := by
  induction before with
  | nil => exact h
  | cons c before ih => exact least_cons_le c ih

/-- **One edit** of the second text takes one edit more at most. -/
theorem Edit.least_le (h : Edit ys zs) (xs : List Char) : least xs zs ≤ least xs ys + 1 := by
  cases h with
  | insert before after c =>
    exact least_append_le before (fun xs => least_insert_le xs after c) xs
  | delete before after c =>
    exact least_append_le before (fun xs => least_delete_le xs after c) xs
  | replace before after c d =>
    exact least_append_le before (fun xs => least_replace_le xs after c d) xs

/-- **No sequence of edits is shorter.** -/
theorem Edits.least_le (h : Edits n xs ys) : least xs ys ≤ n := by
  induction h with
  | none xs => exact Nat.le_of_eq (least_self xs)
  | snoc _ hlast ih => exact (hlast.least_le _).trans (Nat.add_le_add_right ih 1)

/-! ## Rows -/

/-- The numbers of edits from `xs` to `ys`, and to `ys` with one character more in front of it each
time. -/
def entries (xs : List Char) : (ys : List Char) → List Char → List Nat
  | ys, [] => [least xs ys]
  | ys, c :: cs => least xs ys :: entries xs (c :: ys) cs

theorem entries_eq_cons (xs ys cs : List Char) :
    entries xs ys cs = least xs ys :: (entries xs ys cs).tail := by
  cases cs <;> rfl

/-- The entries of a row after its first one, from the row above it. -/
theorem sweep_entries (x : Char) (xs ys cs : List Char) :
    sweep x (least (x :: xs) ys) cs (entries xs ys cs) = (entries (x :: xs) ys cs).tail := by
  induction cs generalizing ys with
  | nil => rfl
  | cons c cs ih =>
    rw [entries, entries_eq_cons xs (c :: ys), sweep, ← entries_eq_cons, ← least_cons_cons, ih,
      ← entries_eq_cons, entries, List.tail_cons]

/-- **One character more** of the first text is one row more. -/
theorem nextRow_entries (x : Char) (xs cs : List Char) :
    nextRow cs (entries xs [] cs) x = entries (x :: xs) [] cs := by
  have hfirst : least (x :: xs) [] = least xs [] + 1 := by simp
  rw [entries_eq_cons xs, nextRow, ← entries_eq_cons, ← hfirst, sweep_entries, ← entries_eq_cons]

/-- The row above all others counts insertions. -/
theorem entries_nil (ys cs : List Char) :
    entries [] ys cs = List.range' ys.length (cs.length + 1) := by
  induction cs generalizing ys with
  | nil => simp [entries]
  | cons c cs ih =>
    rw [entries, ih, least_nil_left, List.length_cons]
    rfl

/-- **All rows**: the first text is read forwards, and so stands backwards in its row. -/
theorem foldl_nextRow_entries (xs before cs : List Char) :
    xs.foldl (nextRow cs) (entries before [] cs) = entries (xs.reverse ++ before) [] cs := by
  induction xs generalizing before with
  | nil => rfl
  | cons x xs ih =>
    rw [List.foldl_cons, nextRow_entries, ih, List.reverse_cons, List.append_assoc,
      List.singleton_append]

theorem lastRow_eq (xs ys : List Char) : lastRow xs ys = entries xs.reverse [] ys := by
  have hstart : List.range (ys.length + 1) = entries [] [] ys := by
    rw [entries_nil, List.length_nil, List.range_eq_range']
  rw [lastRow, hstart, foldl_nextRow_entries, List.append_nil]

theorem getLast?_entries (xs ys cs : List Char) :
    (entries xs ys cs).getLast? = some (least xs (cs.reverse ++ ys)) := by
  induction cs generalizing ys with
  | nil => rfl
  | cons c cs ih =>
    rw [entries, entries_eq_cons, List.getLast?_cons_cons, ← entries_eq_cons, ih, List.reverse_cons,
      List.append_assoc, List.singleton_append]

theorem distance_eq (xs ys : List Char) : distance xs ys = least xs.reverse ys.reverse := by
  rw [distance, lastRow_eq, getLast?_entries, List.append_nil, Option.getD_some]

/-- A text is at no distance from itself. -/
theorem distance_self (xs : List Char) : distance xs xs = 0 := by
  rw [distance_eq, least_self]

theorem distance_le_max (xs ys : List Char) : distance xs ys ≤ max xs.length ys.length := by
  have hmax := least_le_max xs.reverse ys.reverse
  rwa [List.length_reverse, List.length_reverse, ← distance_eq] at hmax

/-- **The distance of two texts is the length of a shortest sequence of edits**: so many edits make
the one of the other, and fewer never do. -/
theorem isLeast_distance (xs ys : List Char) : IsLeast {n | Edits n xs ys} (distance xs ys) := by
  rw [distance_eq]
  constructor
  · have hedits := (edits_least xs.reverse ys.reverse).reverse
    rwa [List.reverse_reverse, List.reverse_reverse] at hedits
  · intro n hn
    exact (Edits.reverse hn).least_le

end Reshape.Proposal
