/-
# Reshape.Proofs.Transform.Rounding -- rounding an integer

Numbers are transformed as floats, so an integer comes back as the one that is nearest to it among
those with 53 binary digits. Rounding it down, up or to no decimals leaves it alone exactly when it
is one of them (`tryApply_int_eq_self_iff`), and integers of up to 53 digits are.

Left out are the least integer of 64 bits, and rounding an odd integer that has all of the 53
digits, because none is left for the half that is added.
-/

import Reshape.Proofs.Decimal.Integers
import Reshape.Transform.Apply

namespace Reshape

open Float.Model.UnpackedFloat (Sign)

namespace Decimal

/-- **A float that is a whole number becomes an integer** if it is below `2 ^ 63`. -/
theorem Measures.ofFloat?_eq {x : Float} {s : Sign} {n : Nat} (h : Measures x s (n * 2 ^ 53)) :
    Json.ofFloat? x = some (.num (if n < 2 ^ 63 then .int (s.apply n) else .float x)) := by
  obtain ⟨p, hp, hsign, hdown, hwhole⟩ := h.exists_parts
  rw [Nat.mul_div_cancel _ (by decide)] at hdown
  have hall : p.isWhole = true := hwhole.mpr (Nat.dvd_mul_left _ n)
  have hinteger : p.toInt = s.apply n := by
    rw [Parts.toInt, hsign, hdown]
    cases s <;> rfl
  have hbound : (decide (p.down < twoTo 63) = true) ↔ n < 2 ^ 63 := by
    rw [hdown]
    exact decide_eq_true_iff
  simp only [Json.ofFloat?, hp]
  rw [hall, Bool.true_and, hinteger]
  simp only [hbound]
  split_ifs <;> rfl

theorem ofFloat?_zero : Json.ofFloat? (Float.ofNat 0) = some (.num (.int 0)) := by
  simp only [Json.ofFloat?, parts?_zero]
  rw [Parts.isWhole_zero, Parts.toInt, Parts.down_zero]
  rfl

end Decimal

namespace Transform

open Decimal

section Integers

variable {f : Float → Float} {n : Int}
  (hf : Measures (f (Float.ofInt n)) (signOf n) (rounded n.natAbs * 2 ^ 53))
include hf

/-- **What leaves the float of an integer alone** gives the integer that the float stands for. -/
theorem mapNumber_int_eq : mapNumber f (.num (.int n)) = .num (if rounded n.natAbs < 2 ^ 63 then
    .int ((signOf n).apply (rounded n.natAbs)) else .float (f (Float.ofInt n))) := by
  change (Json.ofFloat? (f (Float.ofInt n))).getD _ = _
  rw [hf.ofFloat?_eq]
  rfl

theorem mapNumber_int_eq_self_iff (hlow : -2 ^ 63 < n) (hhigh : n < 2 ^ 63) :
    mapNumber f (.num (.int n)) = .num (.int n) ↔ Held n.natAbs := by
  rw [mapNumber_int_eq hf, ← rounded_eq_self_iff]
  constructor
  · intro h
    split_ifs at h
    · injection h with h
      injection h with h
      exact apply_inj.mp (h.trans (apply_signOf n).symm)
    · injection h with h
      cases h
  · intro h
    rw [h, if_pos (by omega), apply_signOf]

end Integers

theorem mapNumber_zero {f : Float → Float} (hf : f (Float.ofNat 0) = Float.ofNat 0) :
    mapNumber f (.num (.int 0)) = .num (.int 0) := by
  change (Json.ofFloat? (f (Float.ofNat 0))).getD _ = _
  rw [hf, ofFloat?_zero]
  rfl

/-! ## Rounding to an integer -/

section Bounded

variable {n : Int} (hlow : -2 ^ 63 < n) (hhigh : n < 2 ^ 63)
include hlow hhigh

theorem mapNumber_ceiling_int_eq_self_iff :
    mapNumber ceiling (.num (.int n)) = .num (.int n) ↔ Held n.natAbs := by
  rcases eq_or_ne n 0 with rfl | hn
  · exact iff_of_true (mapNumber_zero ceiling_zero) (held_of_lt (by decide))
  · have hx := measures_ofInt hn (by omega)
    refine mapNumber_int_eq_self_iff ?_ hlow hhigh
    rw [hx.ceiling_whole]
    exact hx

theorem mapNumber_floor_int_eq_self_iff :
    mapNumber Decimal.floor (.num (.int n)) = .num (.int n) ↔ Held n.natAbs := by
  rcases eq_or_ne n 0 with rfl | hn
  · exact iff_of_true (mapNumber_zero floor_zero) (held_of_lt (by decide))
  · have hx := measures_ofInt hn (by omega)
    refine mapNumber_int_eq_self_iff ?_ hlow hhigh
    rw [hx.floor_whole]
    exact hx

/-- What is rounded has no more digits than before, so it is odd with all of them only if the
integer was. -/
theorem mapNumber_roundTo_int_eq_self_iff
    (heven : 2 ^ 52 < n.natAbs → n.natAbs < 2 ^ 53 → n % 2 = 0) :
    mapNumber (roundTo 0) (.num (.int n)) = .num (.int n) ↔ Held n.natAbs := by
  rcases eq_or_ne n 0 with rfl | hn
  · exact iff_of_true (mapNumber_zero floor_half) (held_of_lt (by decide))
  · have hx := (measures_ofInt hn (by omega)).mul_one
    have hpos : 0 < rounded n.natAbs := rounded_pos (by omega)
    have heven' : 2 ^ 52 < rounded n.natAbs → rounded n.natAbs < 2 ^ 53 →
        rounded n.natAbs % 2 = 0 := by
      intro hlong hshort
      have hlt : n.natAbs < 2 ^ 53 := by
        by_contra hge
        have hle := le_rounded (Nat.not_lt.mp hge)
        omega
      rw [rounded_of_held (held_of_lt hlt)] at hlong ⊢
      have hmod := heven hlong hlt
      omega
    have hfloor := hx.floor_add_half hpos (rounded_lt (by omega)) (held_rounded _) heven'
    exact mapNumber_int_eq_self_iff hfloor.div_one hlow hhigh

end Bounded

/-- **Rounding an integer leaves it alone** exactly when 53 binary digits hold it. -/
theorem tryApply_int_eq_self_iff {n : Int} (hlow : -2 ^ 63 < n) (hhigh : n < 2 ^ 63) :
    (tryApply .ceil (.num (.int n)) = .ok (.num (.int n)) ↔ Held n.natAbs) ∧
    (tryApply .floor (.num (.int n)) = .ok (.num (.int n)) ↔ Held n.natAbs) ∧
    ((2 ^ 52 < n.natAbs → n.natAbs < 2 ^ 53 → n % 2 = 0) →
      (tryApply (.round 0) (.num (.int n)) = .ok (.num (.int n)) ↔ Held n.natAbs)) := by
  simp only [tryApply, Except.ok.injEq]
  exact ⟨mapNumber_ceiling_int_eq_self_iff hlow hhigh, mapNumber_floor_int_eq_self_iff hlow hhigh,
    mapNumber_roundTo_int_eq_self_iff hlow hhigh⟩

/-- Of two neighbours with 54 digits the even one is left alone, rounded in any way. -/
theorem tryApply_int_eq_self_iff_neighbours :
    (tryApply .ceil (.num (.int (2 ^ 53 + 2))) = .ok (.num (.int (2 ^ 53 + 2))) ∧
      tryApply (.round 0) (.num (.int (2 ^ 53 + 2))) = .ok (.num (.int (2 ^ 53 + 2)))) ∧
    tryApply .floor (.num (.int (2 ^ 53 + 1))) ≠ .ok (.num (.int (2 ^ 53 + 1))) := by
  have heven := tryApply_int_eq_self_iff (n := 2 ^ 53 + 2) (by decide) (by decide)
  have hodd := tryApply_int_eq_self_iff (n := 2 ^ 53 + 1) (by decide) (by decide)
  have hheld : Held (2 ^ 53 + 2 : Int).natAbs := ⟨2 ^ 52 + 1, 1, by decide, by decide⟩
  exact ⟨⟨heven.1.mpr hheld, (heven.2.2 (by decide)).mpr hheld⟩, fun h =>
    not_held_two_pow_succ (hodd.2.1.mp h)⟩

/-- Not every integer of 64 bits is left alone. -/
theorem not_forall_tryApply_int_eq_self :
    ¬ ∀ n : Int, -2 ^ 63 ≤ n → n < 2 ^ 63 →
      tryApply .ceil (.num (.int n)) = .ok (.num (.int n)) ∧
      tryApply .floor (.num (.int n)) = .ok (.num (.int n)) ∧
      tryApply (.round 0) (.num (.int n)) = .ok (.num (.int n)) := by
  intro h
  have hceil := (h (2 ^ 53 + 1) (by decide) (by decide)).1
  rw [tryApply, Except.ok.injEq,
    mapNumber_ceiling_int_eq_self_iff (by decide) (by decide)] at hceil
  exact not_held_two_pow_succ hceil

end Transform

end Reshape
