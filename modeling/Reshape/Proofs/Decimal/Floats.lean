/-
# Reshape.Proofs.Decimal.Floats -- comparing floats, and taking nothing from one

Two things that are needed of floats, proved for all of them from their encoding.

* Floats are compared by their places (`place`), which are in a linear order; not-a-number has none.
  So chains of comparisons can be followed as long as every link holds (`float_lt_trans`,
  `float_lt_of_lt_of_le`).
* A positive whole number is converted to a float that is not zero (`nonzero_ofNat`), however large
  it is: rounding never gets below the smallest float (`shift_bounds`), and what does not fit
  becomes an infinity. Zero divided by it is zero, and one less that is one (`one_sub_zero_div`).
-/

import Mathlib

namespace Reshape.Decimal

open Float.Model (Format UnpackedFloat totalExponent)
open Float.Model.UnpackedFloat

/-! ## Comparison -/

/-- **The place of a float** in the order of all floats: infinities outermost, then by exponent and
mantissa, zero in the middle. -/
def place : UnpackedFloat → Option (ℤ ×ₗ ℤ ×ₗ ℤ)
  | .notANumber => none
  | .infinity .negative => some (toLex (-2, toLex (0, 0)))
  | .finite .negative m e _ => some (toLex (-1, toLex (-e, -m)))
  | .zero _ => some (toLex (0, toLex (0, 0)))
  | .finite .positive m e _ => some (toLex (1, toLex (e, m)))
  | .infinity .positive => some (toLex (2, toLex (0, 0)))

theorem compare_natCast (m n : Nat) : compare (m : ℤ) (n : ℤ) = compare m n := by
  rw [← cmp_eq_compare, ← cmp_eq_compare]
  exact Nat.strictMono_cast.cmp_map_eq m n

theorem compare_neg_neg (a b : ℤ) : compare (-a) (-b) = (compare a b).swap := by
  have hneg : StrictAnti fun n : ℤ => -n := fun _ _ => neg_lt_neg
  rw [← cmp_eq_compare, ← cmp_eq_compare, cmp_swap]
  exact hneg.cmp_map_eq a b

theorem compare_eq (u v : UnpackedFloat) :
    u.compare v = (place u).bind fun a => (place v).map fun b => compare a b := by
  rcases u with s | _ | s | ⟨s, m, e, h⟩ <;> rcases v with t | _ | t | ⟨t, n, f, k⟩ <;>
    (try cases s) <;> (try cases t) <;> first | rfl | skip
  -- floats of different kinds are compared by their kinds alone
  case finite.finite.negative.negative =>
    change some _ = some ((compare (-e) (-f)).then (compare (-(m : ℤ)) (-(n : ℤ))))
    rw [compare_neg_neg, compare_neg_neg, compare_natCast, Ordering.swap_then]
  case finite.finite.positive.positive =>
    change some _ = some ((compare e f).then (compare (m : ℤ) (n : ℤ)))
    rw [compare_natCast]

theorem float_lt_iff (x y : Float) :
    x < y ↔ ∃ a b, place x.toModel.unpack = some a ∧ place y.toModel.unpack = some b ∧ a < b := by
  change (decide (x.toModel.unpack.lt y.toModel.unpack = true)) = true ↔ _
  rw [decide_eq_true_iff, UnpackedFloat.lt, compare_eq]
  cases place x.toModel.unpack with
  | none => simp
  | some a =>
    cases place y.toModel.unpack with
    | none => simp
    | some b => simp [compare_lt_iff_lt]

theorem float_le_iff (x y : Float) :
    x ≤ y ↔ ∃ a b, place x.toModel.unpack = some a ∧ place y.toModel.unpack = some b ∧ a ≤ b := by
  change (decide (x.toModel.unpack.le y.toModel.unpack = true)) = true ↔ _
  rw [decide_eq_true_iff, UnpackedFloat.le, compare_eq]
  cases place x.toModel.unpack with
  | none => simp
  | some a =>
    cases place y.toModel.unpack with
    | none => simp
    | some b => simp [Ordering.isLE_iff_ne_gt, compare_le_iff_le]

theorem float_lt_trans {x y z : Float} (h : x < y) (h' : y < z) : x < z := by
  obtain ⟨a, b, ha, hb, hab⟩ := (float_lt_iff x y).mp h
  obtain ⟨b', c, hb', hc, hbc⟩ := (float_lt_iff y z).mp h'
  cases hb.symm.trans hb'
  exact (float_lt_iff x z).mpr ⟨a, c, ha, hc, hab.trans hbc⟩

theorem float_lt_of_lt_of_le {x y z : Float} (h : x < y) (h' : y ≤ z) : x < z := by
  obtain ⟨a, b, ha, hb, hab⟩ := (float_lt_iff x y).mp h
  obtain ⟨b', c, hb', hc, hbc⟩ := (float_le_iff y z).mp h'
  cases hb.symm.trans hb'
  exact (float_lt_iff x z).mpr ⟨a, c, ha, hc, hab.trans_le hbc⟩

/-! ## Rounding -/

/-- A number other than zero, or an infinity. -/
def Nonzero : UnpackedFloat → Prop
  | .finite _ _ _ _ => True
  | .infinity _ => True
  | _ => False

theorem targetExponent_binary64 (t : Int) :
    Format.binary64.targetExponent t = max (t - 53) (-1074) := rfl

theorem mantissa_shiftRight (m : ExtendedMantissa) (k : Nat) :
    (m >>> k).mantissa = m.mantissa / 2 ^ k := by
  induction k with
  | zero => exact (Nat.div_one _).symm
  | succ k ih =>
    change ((m >>> k).shiftRightOne).mantissa = _
    rw [ExtendedMantissa.shiftRightOne, ih, Nat.div_div_eq_div_mul, Nat.pow_succ]

theorem mantissa_ofMantissaAndAccuracy (m : Nat) (a : Accuracy) :
    (ExtendedMantissa.ofMantissaAndAccuracy m a).mantissa = m := by
  cases a with
  | exact => rfl
  | inexact o => cases o <;> rfl

theorem le_roundedMantissa (m : ExtendedMantissa) : m.mantissa ≤ m.roundedMantissa := by
  rw [ExtendedMantissa.roundedMantissa]
  cases m.accuracy with
  | exact => exact Nat.le_refl _
  | inexact o => cases o <;> simp [Accuracy.roundToNearestEven]

/-- How far rounding shifts a mantissa to the right. -/
def roundingShift (m : Nat) (e : Int) : Nat :=
  (Format.binary64.targetExponent (totalExponent m e) - e).toNat

theorem roundingShift_eq (m : Nat) (e : Int) :
    roundingShift m e = max (m.log2 - 52) (-1074 - e).toNat := by
  rw [roundingShift, targetExponent_binary64, totalExponent]
  omega

/-- **Rounding keeps a number** that is no smaller than the smallest float, and makes it fit. -/
theorem shift_bounds {m : Nat} {e : Int} (h : 2 ^ (-1074 - e).toNat ≤ m) :
    0 < m / 2 ^ roundingShift m e ∧ m / 2 ^ roundingShift m e < 2 ^ 53 ∧
      -1074 ≤ e + roundingShift m e := by
  have hm : m ≠ 0 := Nat.ne_of_gt ((Nat.two_pow_pos _).trans_le h)
  rw [roundingShift_eq]
  refine ⟨Nat.div_pos ?_ (Nat.two_pow_pos _), Nat.div_lt_of_lt_mul ?_, by omega⟩
  · have hlog : 2 ^ (m.log2 - 52) ≤ m :=
      (Nat.pow_le_pow_right (by decide) (Nat.sub_le _ _)).trans (Nat.log2_self_le hm)
    rcases Nat.le_total (m.log2 - 52) (-1074 - e).toNat with hle | hle
    · rwa [Nat.max_eq_right hle]
    · rwa [Nat.max_eq_left hle]
  · calc m < 2 ^ (m.log2 + 1) := Nat.lt_log2_self
      _ ≤ 2 ^ (max (m.log2 - 52) (-1074 - e).toNat + 53) :=
        Nat.pow_le_pow_right (by decide) (by omega)
      _ = _ := Nat.pow_add _ _ _

theorem mantissa_shiftToTargetExponent (m : Nat) (e : Int) (a : Accuracy) :
    (shiftToTargetExponent Format.binary64 m e a).1.mantissa = m / 2 ^ roundingShift m e := by
  rw [shiftToTargetExponent, shiftToExponent]
  dsimp only
  rw [mantissa_shiftRight, mantissa_ofMantissaAndAccuracy, roundingShift]

theorem roundedMantissa_le (m : ExtendedMantissa) : m.roundedMantissa ≤ m.mantissa + 1 := by
  rw [ExtendedMantissa.roundedMantissa]
  cases m.accuracy with
  | exact => exact Nat.le_succ _
  | inexact o =>
    cases o with
    | lt => exact Nat.le_succ _
    | eq => exact Nat.add_le_add_left (Nat.lt_succ_iff.mp (Nat.mod_lt _ (by decide))) _
    | gt => exact Nat.le_refl _

/-- **What is rounded stays a number.** It is shifted once, rounded up or not, and shifted again, by
one place at most, if rounding has made the mantissa too long. -/
theorem exists_roundWithAccuracy (s : Sign) {m : Nat} {e : Int} (a : Accuracy)
    (h : 2 ^ (-1074 - e).toNat ≤ m) :
    ∃ (n : Nat) (f : Int) (hn : 0 < n),
      roundWithAccuracy Format.binary64 s m e a = .finite s n f hn ∧ n < 2 ^ 53 ∧ -1074 ≤ f ∧
        f ≤ e + roundingShift m e + 1 := by
  obtain ⟨hpos, hlt, hexp⟩ := shift_bounds h
  have heq : (shiftToTargetExponent Format.binary64 m e a).2 = e + roundingShift m e := rfl
  rw [← mantissa_shiftToTargetExponent m e a] at hpos hlt
  rw [roundWithAccuracy]
  generalize shiftToTargetExponent Format.binary64 m e a = first at hpos hlt heq
  obtain ⟨mantissa, exponent⟩ := first
  dsimp only at hpos hlt heq ⊢
  rw [← heq] at hexp ⊢
  have hbelow : (-1074 - exponent).toNat = 0 := by omega
  have hsmall : 2 ^ (-1074 - exponent).toNat ≤ mantissa.roundedMantissa := by
    rw [hbelow]
    exact hpos.trans_le (le_roundedMantissa mantissa)
  have hshift : roundingShift mantissa.roundedMantissa exponent ≤ 1 := by
    have hne : mantissa.roundedMantissa ≠ 0 :=
      Nat.ne_of_gt (hpos.trans_le (le_roundedMantissa mantissa))
    have hlog : mantissa.roundedMantissa.log2 < 54 := by
      rw [Nat.log2_lt hne]
      exact ((roundedMantissa_le mantissa).trans hlt).trans_lt (by decide)
    rw [roundingShift_eq, hbelow]
    omega
  obtain ⟨hpos', hlt', hexp'⟩ := shift_bounds hsmall
  rw [← mantissa_shiftToTargetExponent _ _ .exact] at hpos' hlt'
  refine ⟨_, _, hpos', dif_neg (Nat.ne_of_gt hpos'), hlt', hexp', ?_⟩
  change exponent + (roundingShift mantissa.roundedMantissa exponent : Int) ≤ exponent + 1
  omega

/-! ## Packing -/

/-- What is read off an exponent and a mantissa is not zero, unless both of them are. -/
theorem nonzero_unpack_components (s : Sign) {x : BitVec Format.binary64.exponentBits}
    {m : BitVec Format.binary64.mantissaBitsWithoutImplicit}
    (h : x = -1#_ ∧ m = 0#_ ∨ x ≠ -1#_ ∧ (x ≠ 0#_ ∨ m ≠ 0#_)) :
    Nonzero (unpack Format.binary64 (packComponents Format.binary64 s x m)) := by
  simp only [unpack, unpackExponent_packComponents, unpackMantissa_packComponents]
  rcases h with ⟨hx, hm⟩ | ⟨hx, h⟩
  · rw [if_pos hx, if_pos hm]
    trivial
  · rw [if_neg hx]
    by_cases hzero : x = 0#_
    · rw [if_pos hzero, dif_neg (h.resolve_left (not_not_intro hzero))]
      trivial
    · rw [if_neg hzero]
      trivial

theorem ofNat_inj_of_lt {w m n : Nat} (hm : m < 2 ^ w) (hn : n < 2 ^ w)
    (h : BitVec.ofNat w m = BitVec.ofNat w n) : m = n := by
  have hnat := congrArg BitVec.toNat h
  rwa [BitVec.toNat_ofNat, BitVec.toNat_ofNat, Nat.mod_eq_of_lt hm, Nat.mod_eq_of_lt hn] at hnat

/-- **A number is packed as a number**, or as an infinity when it is too large. -/
theorem nonzero_unpack_pack (s : Sign) {m : Nat} {e : Int} (hpos : 0 < m) (hm : m < 2 ^ 53)
    (he : -1074 ≤ e) :
    Nonzero (unpack Format.binary64 (pack Format.binary64 (.finite s m e hpos))) := by
  have hbias : (e + Format.binary64.exponentBias + Format.binary64.mantissaBitsWithoutImplicit) =
      e + 1075 := by
    change e + 1023 + 52 = e + 1075
    omega
  rw [pack, hbias]
  dsimp only
  split
  case isTrue => exact nonzero_unpack_components s (.inl ⟨rfl, rfl⟩)
  case isFalse hexp =>
    have hexp : ¬ 2 ^ 11 ≤ (e + 1075).toNat + 1 := hexp
    split
    case isTrue =>
      refine nonzero_unpack_components s (.inr ⟨fun hx => ?_, .inl fun hx => ?_⟩)
      · have hone : -1#11 = BitVec.ofNat 11 2047 := rfl
        have hall := ofNat_inj_of_lt (by omega) (by decide) (hx.trans hone)
        omega
      · have hnone := ofNat_inj_of_lt (by omega) (by decide) hx
        omega
    case isFalse hlog =>
      -- the mantissa is shorter than it could be, so all of it is stored
      have hlog : m.log2 + 1 ≠ 53 := hlog
      have hne := Nat.ne_of_gt hpos
      have hlt : m.log2 < 53 := (Nat.log2_lt hne).mpr hm
      have hsmall : m < 2 ^ 52 := (Nat.log2_lt hne).mp (by omega)
      refine nonzero_unpack_components s (.inr ⟨by decide, .inr fun hx => hne ?_⟩)
      exact ofNat_inj_of_lt hsmall (by decide) hx

theorem le_exponent_unpack {b : BitVec Format.binary64.numBits} {s : Sign} {m : Nat} {e : Int}
    {h : 0 < m} (hu : unpack Format.binary64 b = .finite s m e h) : -1074 ≤ e := by
  have hbias : ((Format.binary64.exponentBias : Int) +
      Format.binary64.mantissaBitsWithoutImplicit) = 1075 := rfl
  rw [unpack, hbias] at hu
  dsimp only at hu
  split at hu
  case isTrue => split at hu <;> cases hu
  case isFalse =>
    split at hu
    case isTrue hzero =>
      split at hu
      case isTrue => cases hu
      case isFalse =>
        cases hu
        omega
    case isFalse hzero =>
      have hne : (unpackExponent b).toNat ≠ 0 := fun e => hzero (BitVec.eq_of_toNat_eq e)
      cases hu
      omega

theorem nonzero_round {s : Sign} {m : Nat} {e : Int} {a : Accuracy}
    (h : 2 ^ (-1074 - e).toNat ≤ m) :
    Nonzero (Float.Model.pack (roundWithAccuracy Format.binary64 s m e a)).unpack := by
  obtain ⟨n, f, hn, heq, hlt, hle, -⟩ := exists_roundWithAccuracy s a h
  rw [heq]
  exact nonzero_unpack_pack s hn hlt hle

/-! ## Whole numbers -/

/-- The factor of a whole number that needs no power of ten. -/
theorem unpack_one : (Float.exactlyRepresentablePowersOfTen[0]).toModel.unpack =
    .finite .positive (2 ^ 52) (-52) (by decide) := rfl

theorem nonzero_mul_one {x : Float} (hx : Nonzero x.toModel.unpack) :
    Nonzero (x * Float.exactlyRepresentablePowersOfTen[0]).toModel.unpack := by
  change Nonzero (Float.Model.pack (mul Format.binary64 x.toModel.unpack
    (Float.exactlyRepresentablePowersOfTen[0]).toModel.unpack)).unpack
  rw [unpack_one]
  cases hu : x.toModel.unpack with
  | notANumber => rw [hu] at hx; cases hx
  | zero s => rw [hu] at hx; cases hx
  | infinity s => cases s <;> trivial
  | finite s m e h =>
    have he := le_exponent_unpack hu
    apply nonzero_round
    calc 2 ^ (-1074 - (e + -52)).toNat ≤ 2 ^ 52 := Nat.pow_le_pow_right (by decide) (by omega)
      _ ≤ m * 2 ^ 52 := Nat.le_mul_of_pos_left _ h

theorem nonzero_ofUInt64 {n : UInt64} (hn : 0 < n.toNat) : Nonzero n.toFloat.toModel.unpack := by
  change Nonzero (Float.Model.pack
    (UnpackedFloat.normalize Format.binary64 (n.toNat : Int) 0 .positive)).unpack
  have hgt : compare (n.toNat : Int) 0 = .gt := compare_gt_iff_gt.mpr (Int.natCast_pos.mpr hn)
  rw [UnpackedFloat.normalize, hgt]
  dsimp only
  rw [UnpackedFloat.round, decreaseExponent, Int.toNat_natCast, targetExponent_binary64]
  apply nonzero_round
  generalize totalExponent n.toNat 0 = t
  have hzero : (-1074 - (0 - ((0 - max (t - 53) (-1074)).toNat : Int))).toNat = 0 := by omega
  rw [hzero]
  exact Nat.shiftLeft_pos_iff.mpr hn

theorem ofScientific_zero {n : Nat} (hn : 0 < n) :
    UnpackedFloat.ofScientific Format.binary64 n 0 =
      roundWithAccuracy Format.binary64 .positive ((n <<< 53) * 1) (-53 + 0) .exact := by
  rw [UnpackedFloat.ofScientific, dif_neg (Nat.ne_of_gt hn), if_neg, if_neg, if_pos]
  · rfl
  · exact Int.le_refl 0
  · have hpow : (0 : Int) ≤ 2 ^ Format.binary64.exponentBits := by decide
    omega
  · decide

/-- **A positive whole number is not zero as a float.** Small numbers are converted as words, large
ones as decimals. -/
theorem nonzero_ofNat {n : Nat} (hn : 0 < n) : Nonzero (Float.ofNat n).toModel.unpack := by
  change Nonzero (Float.ofScientific n false 0).toModel.unpack
  rw [Float.ofScientific]
  split
  case isTrue h =>
    have hsize : n % 2 ^ 64 = n := Nat.mod_eq_of_lt (h.1.trans (by decide))
    refine nonzero_mul_one (nonzero_ofUInt64 ?_)
    change 0 < n % 2 ^ 64
    rw [hsize]
    exact hn
  case isFalse h =>
    change Nonzero (Float.Model.pack (UnpackedFloat.ofScientific Format.binary64 n 0)).unpack
    rw [ofScientific_zero hn]
    apply nonzero_round
    rw [Nat.mul_one]
    exact Nat.shiftLeft_pos_iff.mpr hn

/-- **Nothing of something**, taken from one, leaves one. -/
theorem one_sub_zero_div {n : Nat} (hn : 0 < n) : 1.0 - Float.ofNat 0 / Float.ofNat n = 1.0 := by
  have hx := nonzero_ofNat hn
  change Float.ofModel (.pack (sub Format.binary64 (1.0 : Float).toModel.unpack
    (Float.Model.pack (div Format.binary64 (Float.ofNat 0).toModel.unpack
      (Float.ofNat n).toModel.unpack)).unpack)) = 1.0
  have hzero : (Float.ofNat 0).toModel.unpack = .zero .positive := rfl
  rw [hzero]
  cases hu : (Float.ofNat n).toModel.unpack with
  | notANumber => rw [hu] at hx; cases hx
  | zero s => rw [hu] at hx; cases hx
  | infinity s => cases s <;> rfl
  | finite s m e h =>
    rw [div]
    cases s <;> rfl

end Reshape.Decimal
