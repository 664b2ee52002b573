/-
# Reshape.Proofs.Decimal.Numbers -- floats that are numbers

Only not-a-number has no place among the floats, so the comparison is a linear order of all others
(`float_not_lt_iff`). Packing makes no such float of another one (`isNaN_unpack_pack`), whatever is
rounded or too large. So the quotient of two whole numbers of 64 bits, the second of them not zero,
taken from one, is a number (`isNaN_one_sub_div`).
-/

import Reshape.Proofs.Decimal.Finite

namespace Reshape.Decimal

open Float.Model (Format UnpackedFloat)
open Float.Model.UnpackedFloat

/-! ## Order -/

theorem isNaN_eq_false_iff (x : Float) :
    x.isNaN = false ↔ ∃ a, place x.toModel.unpack = some a := by
  show x.toModel.unpack.isNaN = false ↔ _
  cases x.toModel.unpack with
  | notANumber => exact iff_of_false (fun h => nomatch h) (fun ⟨_, h⟩ => nomatch h)
  | infinity s => cases s <;> exact iff_of_true rfl ⟨_, rfl⟩
  | zero s => exact iff_of_true rfl ⟨_, rfl⟩
  | finite s m e h => cases s <;> exact iff_of_true rfl ⟨_, rfl⟩

variable {x y z : Float}

theorem float_le_of_lt (h : x < y) : x ≤ y := by
  obtain ⟨a, b, ha, hb, hab⟩ := (float_lt_iff x y).mp h
  exact (float_le_iff x y).mpr ⟨a, b, ha, hb, hab.le⟩

theorem float_le_trans (h : x ≤ y) (h' : y ≤ z) : x ≤ z := by
  obtain ⟨a, b, ha, hb, hab⟩ := (float_le_iff x y).mp h
  obtain ⟨b', c, hb', hc, hbc⟩ := (float_le_iff y z).mp h'
  cases hb.symm.trans hb'
  exact (float_le_iff x z).mpr ⟨a, c, ha, hc, hab.trans hbc⟩

theorem float_lt_of_le_of_lt (h : x ≤ y) (h' : y < z) : x < z := by
  obtain ⟨a, b, ha, hb, hab⟩ := (float_le_iff x y).mp h
  obtain ⟨b', c, hb', hc, hbc⟩ := (float_lt_iff y z).mp h'
  cases hb.symm.trans hb'
  exact (float_lt_iff x z).mpr ⟨a, c, ha, hc, hab.trans_lt hbc⟩

/-- **Numbers are in a linear order.** -/
theorem float_not_lt_iff (hx : x.isNaN = false) (hy : y.isNaN = false) : ¬ x < y ↔ y ≤ x := by
  obtain ⟨a, ha⟩ := (isNaN_eq_false_iff x).mp hx
  obtain ⟨b, hb⟩ := (isNaN_eq_false_iff y).mp hy
  rw [float_lt_iff, float_le_iff, ha, hb]
  simp

theorem float_le_refl (hx : x.isNaN = false) : x ≤ x := by
  obtain ⟨a, ha⟩ := (isNaN_eq_false_iff x).mp hx
  exact (float_le_iff x x).mpr ⟨a, a, ha, ha, le_refl a⟩

/-! ## Operations -/

theorem isNaN_unpack_components (s : Sign) {x : BitVec Format.binary64.exponentBits}
    {m : BitVec Format.binary64.mantissaBitsWithoutImplicit} (h : x = -1#_ → m = 0#_) :
    (unpack Format.binary64 (packComponents Format.binary64 s x m)).isNaN = false := by
  simp only [unpack, unpackExponent_packComponents, unpackMantissa_packComponents]
  split
  case isTrue hx =>
    rw [if_pos (h hx)]
    rfl
  case isFalse =>
    split
    · split <;> rfl
    · rfl

/-- **Packing keeps numbers**: what is too large becomes an infinity. -/
theorem isNaN_unpack_pack {u : UnpackedFloat} (h : u.isNaN = false) :
    (Float.Model.pack u).unpack.isNaN = false := by
  show (unpack Format.binary64 (pack Format.binary64 u)).isNaN = false
  cases u with
  | notANumber => cases h
  | infinity s => exact isNaN_unpack_components s fun _ => rfl
  | zero s => exact isNaN_unpack_components s fun _ => rfl
  | finite s m e hm =>
    rw [pack]
    dsimp only
    split
    case isTrue => exact isNaN_unpack_components s fun _ => rfl
    case isFalse hexp =>
      split
      case isTrue =>
        refine isNaN_unpack_components s fun hall => absurd ?_ hexp
        generalize (e + Format.binary64.exponentBias +
          Format.binary64.mantissaBitsWithoutImplicit).toNat = exponent at hexp hall ⊢
        have hlt : exponent + 1 < 2 ^ 11 := Nat.lt_of_not_le hexp
        have hone : -1#11 = BitVec.ofNat 11 2047 := rfl
        have hnat := ofNat_inj_of_lt (by omega) (by decide) (hall.trans hone)
        omega
      case isFalse =>
        have hzero : (0#11 : BitVec 11) ≠ -1#11 := by decide
        exact isNaN_unpack_components s fun hall => absurd hall hzero

theorem isNaN_roundWithAccuracy (s : Sign) (m : Nat) (e : Int) (a : Accuracy) :
    (roundWithAccuracy Format.binary64 s m e a).isNaN = false := by
  rw [roundWithAccuracy]
  dsimp only
  split <;> rfl

theorem isNaN_normalize (m e : Int) (s : Sign) :
    (UnpackedFloat.normalize Format.binary64 m e s).isNaN = false := by
  rw [UnpackedFloat.normalize]
  split
  · exact isNaN_roundWithAccuracy _ _ _ _
  · rfl
  · exact isNaN_roundWithAccuracy _ _ _ _

/-- What is finite, divided by what is neither zero nor not-a-number, is a number. -/
theorem isNaN_div (hx : x.isFinite = true) (hy : Nonzero y.toModel.unpack) :
    (x / y).isNaN = false := by
  refine isNaN_unpack_pack ?_
  replace hx : x.toModel.unpack.isFinite = true := hx
  cases hu : x.toModel.unpack with
  | notANumber => rw [hu] at hx; cases hx
  | infinity s => rw [hu] at hx; cases hx
  | zero s =>
    cases hv : y.toModel.unpack with
    | notANumber => rw [hv] at hy; cases hy
    | zero t => rw [hv] at hy; cases hy
    | infinity t => rfl
    | finite t n f k => rfl
  | finite s m e h =>
    cases hv : y.toModel.unpack with
    | notANumber => rw [hv] at hy; cases hy
    | zero t => rw [hv] at hy; cases hy
    | infinity t => rfl
    | finite t n f k => exact isNaN_roundWithAccuracy _ _ _ _

/-- A number taken from one is a number. -/
theorem isNaN_one_sub (hx : x.isNaN = false) : (1.0 - x).isNaN = false := by
  refine isNaN_unpack_pack ?_
  replace hx : x.toModel.unpack.isNaN = false := hx
  obtain ⟨s, m, e, h, hone⟩ : ∃ s m e h, (1.0 : Float).toModel.unpack = .finite s m e h :=
    ⟨_, _, _, _, rfl⟩
  rw [hone]
  cases hu : x.toModel.unpack with
  | notANumber => rw [hu] at hx; cases hx
  | infinity t => rfl
  | zero t => rfl
  | finite t n f k => exact isNaN_normalize _ _ _

/-- **A share taken from one is a number.** -/
theorem isNaN_one_sub_div {d n : Nat} (hd : d < 2 ^ 64) (hn : 0 < n) :
    (1.0 - Float.ofNat d / Float.ofNat n).isNaN = false :=
  isNaN_one_sub (isNaN_div (atMost_ofNat hd).isFinite (nonzero_ofNat hn))

end Reshape.Decimal
