/-
# Reshape.Proofs.Decimal.Counts -- counts and positions as floats

A count is kept as a float. Below `2 ^ 53` that is exact: the float is a whole number that is not
negative, and taken as a count again it is the number that it was made of (`toCount_ofNat`). So it
can tell that nothing was found by a negative number (`ofNat_ne_neg_one`).
-/

import Reshape.Proofs.Decimal.Integers
import Reshape.Proofs.Decimal.Numbers

namespace Reshape.Decimal

open Float.Model.UnpackedFloat (Sign)

variable {x : Float} {s t : Sign} {m n : Nat}

/-- The sign of a multiple of the unit is determined by the float. -/
theorem Measures.sign_eq (h : Measures x s m) (h' : Measures x t n) : s = t := by
  obtain ⟨_, _, _, hx, -, -⟩ := h
  obtain ⟨_, _, _, hx', -, -⟩ := h'
  exact (Float.Model.UnpackedFloat.finite.inj (hx.symm.trans hx')).1

/-- A number of 53 digits is the float. -/
theorem measures_ofNat_of_lt (hn : 0 < n) (hlt : n < 2 ^ 53) :
    Measures (Float.ofNat n) .positive (n * 2 ^ 53) := by
  have h := measures_ofNat hn (by omega)
  rwa [rounded_of_held (held_of_lt hlt)] at h

/-- **A count below `2 ^ 53` in parts.** -/
theorem parts?_ofNat (hlt : n < 2 ^ 53) :
    ∃ p, parts? (Float.ofNat n) = some p ∧ p.toInt = n ∧ p.isWhole = true := by
  rcases Nat.eq_zero_or_pos n with rfl | hn
  · exact ⟨_, parts?_zero, by rw [Parts.toInt, Parts.down_zero]; rfl, Parts.isWhole_zero _ _⟩
  · obtain ⟨p, hp, hsign, hdown, hwhole⟩ := (measures_ofNat_of_lt hn hlt).exists_parts
    refine ⟨p, hp, ?_, hwhole.mpr (Nat.dvd_mul_left _ n)⟩
    rw [Parts.toInt, hsign, hdown, Nat.mul_div_cancel _ (by decide)]
    rfl

theorem truncate_ofNat (hlt : n < 2 ^ 53) : truncate (Float.ofNat n) = Float.ofNat n := by
  obtain ⟨p, hp, -, hwhole⟩ := parts?_ofNat hlt
  simp only [truncate, hp]
  rw [if_pos hwhole]

/-- **A count survives being kept as a float.** -/
theorem toCount_ofNat (hlt : n < 2 ^ 53) : toCount (Float.ofNat n) = n := by
  obtain ⟨p, hp, hvalue, -⟩ := parts?_ofNat hlt
  have hmax : (maxUnsigned : Int) = 2 ^ 64 - 1 := rfl
  simp only [toCount, clampToInt, toInt?, hp, Option.map_some, hvalue]
  omega

/-- A count is a number that is not negative. -/
theorem exists_place_ofNat (hlt : n < 2 ^ 53) :
    ∃ a, place (Float.ofNat n).toModel.unpack = some a ∧ ¬ a < toLex (0, toLex (0, 0)) := by
  rcases Nat.eq_zero_or_pos n with rfl | hn
  · exact ⟨_, rfl, lt_irrefl _⟩
  · obtain ⟨m, j, hm, hx, -, -⟩ := measures_ofNat_of_lt hn hlt
    refine ⟨toLex (1, toLex ((j : Int) - 53, (m : Int))), by rw [hx]; rfl, ?_⟩
    rw [Prod.Lex.toLex_lt_toLex]
    omega

theorem isNaN_ofNat (hlt : n < 2 ^ 53) : (Float.ofNat n).isNaN = false := by
  obtain ⟨a, ha, -⟩ := exists_place_ofNat hlt
  exact (isNaN_eq_false_iff _).mpr ⟨a, ha⟩

theorem ofNat_not_lt_zero (hlt : n < 2 ^ 53) : ¬ Float.ofNat n < 0 := by
  obtain ⟨a, ha, hnot⟩ := exists_place_ofNat hlt
  rw [float_lt_iff]
  rintro ⟨b, z, hb, hz, hlt⟩
  cases hb.symm.trans ha
  cases hz
  exact hnot hlt

theorem ofNat_ne_neg_one (hlt : n < 2 ^ 53) : Float.ofNat n ≠ -1 := by
  have hone : Measures (-1) .negative (1 * 2 ^ 53) :=
    (measures_ofNat_of_lt Nat.one_pos (by decide)).neg
  rcases Nat.eq_zero_or_pos n with rfl | hn
  · decide
  · intro h
    have hpos := measures_ofNat_of_lt hn hlt
    rw [h] at hpos
    cases hpos.sign_eq hone

end Reshape.Decimal
