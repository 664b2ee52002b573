/-
# Reshape.Proofs.Json.Alike -- equality up to the order of members

Two values are alike when they differ in nothing but the order of the members of objects, at any
depth. Unlike `Json.same` it keeps the two zeros of a float apart.

Everything that is done to a document respects this: reading at a path (`Alike.follow?`) and writing
at a path (`Alike.put`), for segments of every kind. And two writes whose keys diverge, and spell no
number, may be exchanged (`put_comm`): they part in an object, and an object gets the same members
in either order, though perhaps not in the same places.
-/

import Reshape.Proofs.Json.Members
import Reshape.Proofs.Path.Place

namespace Reshape

namespace Json

/-- **Equality up to the order of members**, at any depth. -/
inductive Alike : Json → Json → Prop
  | refl (value : Json) : Alike value value
  | arr {xs ys : List Json} (hlength : xs.length = ys.length)
      (hitems : ∀ (i : Nat) (x y : Json), xs[i]? = some x → ys[i]? = some y → Alike x y) :
      Alike (.arr xs) (.arr ys)
  | obj {ms ns : Members} (hkeys : ms.keys.Perm ns.keys)
      (hvalues : ∀ (k : String) (x y : Json), ms.get? k = some x → ns.get? k = some y → Alike x y) :
      Alike (.obj ms) (.obj ns)

/-- Nothing, or values that are alike. -/
abbrev AlikeOption : Option Json → Option Json → Prop :=
  Option.Rel Alike

variable {a b : Json} {xs ys : List Json} {ms ns : Members}

theorem AlikeOption.refl (x? : Option Json) : AlikeOption x? x? := by
  cases x? with
  | none => exact .none
  | some x => exact .some (.refl x)

theorem AlikeOption.isNone {x? y? : Option Json} (h : AlikeOption x? y?) :
    x?.isNone = y?.isNone := by
  cases h <;> rfl

theorem AlikeOption.bind {x? y? : Option Json} {f g : Json → Option Json} (h : AlikeOption x? y?)
    (hfg : ∀ x y, Alike x y → AlikeOption (f x) (g y)) : AlikeOption (x?.bind f) (y?.bind g) := by
  cases h with
  | none => exact .none
  | some hxy => exact hfg _ _ hxy

theorem AlikeOption.getD {x? y? : Option Json} (h : AlikeOption x? y?) (other : Json) :
    Alike (x?.getD other) (y?.getD other) := by
  cases h with
  | none => exact .refl other
  | some hxy => exact hxy

/-! ## What is alike in arrays and objects -/

theorem Alike.length (h : Alike (.arr xs) (.arr ys)) : xs.length = ys.length := by
  cases h with
  | refl => rfl
  | arr hlength _ => exact hlength

theorem Alike.getElem? (h : Alike (.arr xs) (.arr ys)) (i : Nat) : AlikeOption xs[i]? ys[i]? := by
  cases h with
  | refl => exact .refl _
  | arr hlength hitems =>
    by_cases hi : i < xs.length
    · have hx := List.getElem?_eq_getElem hi
      have hy := List.getElem?_eq_getElem (hlength ▸ hi)
      rw [hx, hy]
      exact .some (hitems i _ _ hx hy)
    · have hx := List.getElem?_eq_none (Nat.le_of_not_lt hi)
      have hy := List.getElem?_eq_none (hlength ▸ Nat.le_of_not_lt hi)
      rw [hx, hy]
      exact .none

theorem alike_arr (hlength : xs.length = ys.length) (h : ∀ i : Nat, AlikeOption xs[i]? ys[i]?) :
    Alike (.arr xs) (.arr ys) := by
  refine .arr hlength fun i x y hx hy => ?_
  have hi := h i
  rw [hx, hy] at hi
  cases hi with
  | some hxy => exact hxy

theorem Alike.keys (h : Alike (.obj ms) (.obj ns)) : ms.keys.Perm ns.keys := by
  cases h with
  | refl => exact .refl _
  | obj hkeys _ => exact hkeys

theorem Alike.get? (h : Alike (.obj ms) (.obj ns)) (k : String) :
    AlikeOption (ms.get? k) (ns.get? k) := by
  cases h with
  | refl => exact .refl _
  | obj hkeys hvalues =>
    -- both objects have the same keys, so the key is in both of them or in none
    have hsome : (ms.get? k).isSome = true ↔ (ns.get? k).isSome = true := by
      rw [Members.isSome_get?_iff, Members.isSome_get?_iff, hkeys.mem_iff]
    cases hx : ms.get? k with
    | none =>
      rw [hx] at hsome
      cases hy : ns.get? k with
      | none => exact .none
      | some y => simp [hy] at hsome
    | some x =>
      rw [hx] at hsome
      cases hy : ns.get? k with
      | none => simp [hy] at hsome
      | some y => exact .some (hvalues k x y hx hy)

theorem alike_obj (hkeys : ms.keys.Perm ns.keys)
    (h : ∀ k : String, AlikeOption (ms.get? k) (ns.get? k)) : Alike (.obj ms) (.obj ns) := by
  refine .obj hkeys fun k x y hx hy => ?_
  have hk := h k
  rw [hx, hy] at hk
  cases hk with
  | some hxy => exact hxy

theorem Alike.symm (h : Alike a b) : Alike b a := by
  induction h with
  | refl v => exact .refl v
  | arr hlength _ ih => exact .arr hlength.symm fun i y x hy hx => ih i x y hx hy
  | obj hkeys _ ih => exact .obj hkeys.symm fun k y x hy hx => ih k x y hx hy

theorem Alike.trans {c : Json} (h : Alike a b) (h' : Alike b c) : Alike a c := by
  induction h generalizing c with
  | refl v => exact h'
  | @arr xs ys hlength hitems ih =>
    cases h' with
    | refl => exact .arr hlength hitems
    | @arr _ zs hlength' hitems' =>
      refine .arr (hlength.trans hlength') fun i x z hx hz => ?_
      -- the array between the two has an item at this place, too
      have hi : i < ys.length := by
        rw [hlength']
        exact (List.getElem?_eq_some_iff.mp hz).1
      have hy := List.getElem?_eq_getElem hi
      exact ih i x _ hx hy (hitems' i _ z hy hz)
  | @obj ms ns hkeys hvalues ih =>
    cases h' with
    | refl => exact .obj hkeys hvalues
    | @obj _ os hkeys' hvalues' =>
      refine .obj (hkeys.trans hkeys') fun k x z hx hz => ?_
      have hk : k ∈ ns.keys := by
        rw [hkeys'.mem_iff, ← Members.isSome_get?_iff, hz]
        rfl
      obtain ⟨y, hy⟩ := Option.isSome_iff_exists.mp ((Members.isSome_get?_iff ns k).mpr hk)
      exact ih k x y hx hy (hvalues' k y z hy hz)

/-- Storing alike values under one key. -/
theorem Alike.insert (h : Alike (.obj ms) (.obj ns)) (key : String) (hab : Alike a b) :
    Alike (.obj (ms.insert key a)) (.obj (ns.insert key b)) := by
  refine alike_obj ?_ fun k => ?_
  · rw [Members.keys_insert, Members.keys_insert]
    by_cases hkey : key ∈ ms.keys
    · rw [if_pos hkey, if_pos (h.keys.mem_iff.mp hkey)]
      exact h.keys
    · rw [if_neg hkey, if_neg fun hmem => hkey (h.keys.mem_iff.mpr hmem)]
      exact h.keys.append_right [key]
  · rw [Members.get?_insert, Members.get?_insert]
    split
    · exact .some hab
    · exact h.get? k

/-- Storing under two keys, in either order. -/
theorem alike_insert_comm (ms : Members) {k l : String} (hkl : k ≠ l) (a b : Json) :
    Alike (.obj ((ms.insert l b).insert k a)) (.obj ((ms.insert k a).insert l b)) := by
  refine alike_obj ?_ fun f => ?_
  · simp only [Members.keys_insert]
    by_cases hk : k ∈ ms.keys <;> by_cases hl : l ∈ ms.keys <;> simp [hk, hl, hkl, hkl.symm]
    exact (List.Perm.swap k l []).append_left ms.keys
  · simp only [Members.get?_insert]
    by_cases hf : f = k
    · have hfl : f ≠ l := fun he => hkl (hf.symm.trans he)
      rw [if_pos hf, if_neg hfl, if_pos hf]
      exact .refl _
    · rw [if_neg hf, if_neg hf]
      exact .refl _

/-! ## Reading -/

theorem Alike.child? (h : Alike a b) (key : String) : AlikeOption (child? key a) (child? key b) := by
  unfold Json.child?
  split
  · exact .some h
  · cases h with
    | refl => exact .refl _
    | arr hlength hitems =>
      cases Decimal.unsigned? key.toList with
      | none => exact .none
      | some n => exact (Alike.arr hlength hitems).getElem? n
    | obj hkeys hvalues => exact (Alike.obj hkeys hvalues).get? key

theorem Alike.item? (h : Alike a b) (position : Nat) :
    AlikeOption (item? position a) (item? position b) := by
  cases h with
  | refl => exact .refl _
  | arr hlength hitems => exact (Alike.arr hlength hitems).getElem? position
  | obj => exact .none

theorem Alike.itemAt? (h : Alike a b) (positions : List Nat) :
    AlikeOption (itemAt? positions a) (itemAt? positions b) := by
  unfold Json.itemAt?
  -- the steps go on from whatever was found so far, or from nothing
  suffices hfold : ∀ x? y? : Option Json, AlikeOption x? y? →
      AlikeOption (positions.foldl (fun current n => current.bind (Json.item? n)) x?)
        (positions.foldl (fun current n => current.bind (Json.item? n)) y?) from
    hfold _ _ (.some h)
  induction positions with
  | nil => exact fun _ _ hxy => hxy
  | cons n positions ih =>
    intro x? y? hxy
    exact ih _ _ (hxy.bind fun x y hxy => hxy.item? n)

theorem Alike.indexed? (h : Alike a b) (raw : List Char) :
    AlikeOption (indexed? raw a) (indexed? raw b) := by
  unfold Json.indexed?
  split
  · exact (h.child? _).bind fun x y hxy => hxy.itemAt? _
  · exact .none

theorem Alike.step? (h : Alike a b) (raw : List Char) :
    AlikeOption (step? raw a) (step? raw b) := by
  have hindexed := h.indexed? raw
  cases h with
  | refl => exact .refl _
  | arr hlength hitems =>
    unfold Json.step?
    dsimp only
    cases Decimal.unsigned? raw with
    | none => exact hindexed
    | some n => exact (Alike.arr hlength hitems).getElem? n
  | @obj ms ns hkeys hvalues =>
    have hget := (Alike.obj hkeys hvalues).get? (String.ofList raw)
    unfold Json.step?
    dsimp only
    generalize ms.get? (String.ofList raw) = x? at hget
    generalize ns.get? (String.ofList raw) = y? at hget
    cases hget with
    | none => exact hindexed
    | some hxy => exact .some hxy

/-- **Reading finds alike values in alike documents.** -/
theorem Alike.follow? (h : Alike a b) (keys : List (List Char)) :
    AlikeOption (follow? keys a) (follow? keys b) := by
  induction keys generalizing a b with
  | nil => exact .some h
  | cons key keys ih => exact (h.step? key).bind fun x y hxy => ih hxy

/-! ## Writing -/

theorem alike_containerOr {x? y? : Option Json} (h : AlikeOption x? y?) :
    Alike (containerOr x?) (containerOr y?) := by
  cases h with
  | none => exact .refl _
  | some hxy =>
    cases hxy with
    | refl => exact .refl _
    | arr hlength hitems => exact .arr hlength hitems
    | obj hkeys hvalues => exact .obj hkeys hvalues

/-- **Writing gives alike documents from alike documents.** -/
theorem Alike.put (h : Alike a b) (value : Json) (keys : List (List Char)) :
    Alike (put value keys a) (put value keys b) := by
  induction keys generalizing a b with
  | nil => exact .refl value
  | cons key keys ih =>
    cases h with
    | refl => exact .refl _
    | @arr xs ys hlength hitems =>
      cases keys with
      | nil => exact .refl _
      | cons k ks =>
        have hne : k :: ks ≠ [] := List.cons_ne_nil k ks
        have h := Alike.arr hlength hitems
        cases hn : positionIn? xs.length key with
        | none =>
          have hn' : positionIn? ys.length key = none := hlength ▸ hn
          simp only [Json.put, hn, hn']
          exact .refl _
        | some n =>
          rw [put_cons_arr value hne hn, put_cons_arr value hne (hlength ▸ hn)]
          -- the elements beside the one that is entered stay as they are
          refine alike_arr (by rw [List.length_set, List.length_set, hlength]) fun i => ?_
          rw [List.getElem?_set, List.getElem?_set, hlength]
          split
          · split
            · exact .some (ih ((h.getElem? n).getD .null))
            · exact .none
          · exact h.getElem? i
    | @obj ms ns hkeys hvalues =>
      have h := Alike.obj hkeys hvalues
      cases keys with
      | nil => exact h.insert _ (.refl value)
      | cons k ks =>
        have hne : k :: ks ≠ [] := List.cons_ne_nil k ks
        rw [put_cons_obj value key hne, put_cons_obj value key hne]
        exact h.insert _ (ih (alike_containerOr (h.get? _)))

theorem Alike.set (h : Alike a b) (path : String) (value : Json) :
    Alike (a.set path value) (b.set path value) := by
  cases hv : Path.valid path with
  | false =>
    rw [set_of_not_valid a value hv, set_of_not_valid b value hv]
    exact h
  | true =>
    rw [set_of_valid a value hv, set_of_valid b value hv]
    exact h.put value _

/-! ## Exchanging writes -/

/-- A key that spells no number is stored in an object, which replaces whatever else there was. -/
theorem put_of_unsigned?_eq_none {key : List Char} (hkey : Decimal.unsigned? key = none)
    (keys : List (List Char)) (value node : Json) :
    put value (key :: keys) node =
      .obj ((membersOrNone node).insert (String.ofList key)
        (put value keys (containerOr ((membersOrNone node).get? (String.ofList key))))) :=
  put_cons_of_not_entered (fun _ _ => .inr (by rw [positionIn?, hkey])) value

/-- **Writes that diverge may be exchanged.** -/
theorem put_comm {ks ls : List (List Char)} (hdiv : Path.Diverge ks ls)
    (hks : ∀ k ∈ ks, Decimal.unsigned? k = none) (hls : ∀ l ∈ ls, Decimal.unsigned? l = none)
    (a b node : Json) : Alike (put a ks (put b ls node)) (put b ls (put a ks node)) := by
  induction ks generalizing ls node with
  | nil => exact absurd List.nil_prefix hdiv.1
  | cons k ks ih =>
    cases ls with
    | nil => exact absurd List.nil_prefix hdiv.2
    | cons l ls =>
      obtain ⟨hk, hks'⟩ := List.forall_mem_cons.mp hks
      obtain ⟨hl, hls'⟩ := List.forall_mem_cons.mp hls
      simp only [put_of_unsigned?_eq_none hk, put_of_unsigned?_eq_none hl, membersOrNone]
      by_cases hkl : k = l
      · subst hkl
        have hdiv : Path.Diverge ks ls := hdiv.of_cons
        have hksne : ks ≠ [] := fun he => hdiv.1 (he ▸ List.nil_prefix)
        have hlsne : ls ≠ [] := fun he => hdiv.2 (he ▸ List.nil_prefix)
        -- both write below the same member, which is replaced twice
        rw [Members.get?_insert_self, Members.get?_insert_self, containerOr_put hlsne,
          containerOr_put hksne, Members.insert_insert, Members.insert_insert]
        exact (Alike.refl _).insert _ (ih hdiv hks' hls' _)
      · have hne : String.ofList k ≠ String.ofList l := ofList_ne hkl
        rw [Members.get?_insert_of_ne _ _ hne, Members.get?_insert_of_ne _ _ hne.symm]
        exact alike_insert_comm _ hne _ _

end Json

end Reshape
