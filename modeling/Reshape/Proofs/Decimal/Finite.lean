/-
# Reshape.Proofs.Decimal.Finite -- which floats are finite

A float is finite exactly when it has parts (`parts?_eq_none_iff`). An integer of 64 bits is
converted to a finite float (`isFinite_ofInt`): the exponent of what is rounded is at most one above
that of what was shifted, so it stays far below the largest one.
-/

import Reshape.Decimal.Double
import Reshape.Proofs.Decimal.Floats

namespace Reshape.Decimal

open Float.Model (Format UnpackedFloat totalExponent)
open Float.Model.UnpackedFloat

/-! ## The parts of a float -/

theorem toNat_unpackExponent (x : Float) :
    (@unpackExponent Format.binary64 x.toBits.toBitVec).toNat = exponentField x := by
  rw [unpackExponent, BitVec.toNat_cast, BitVec.extractLsb_toNat, Nat.shiftRight_eq_div_pow,
    exponentField]
  rfl

/-- The largest exponent is kept for infinities and not-a-number. -/
theorem isFinite_eq_false_iff (x : Float) : x.isFinite = false ↔ exponentField x = 2047 := by
  have hall : @unpackExponent Format.binary64 x.toBits.toBitVec = -1#11 ↔
      exponentField x = 2047 := by
    rw [← toNat_unpackExponent, ← BitVec.toNat_inj]
    rfl
  rw [← hall]
  change (UnpackedFloat.unpack Format.binary64 x.toBits.toBitVec).isFinite = false ↔ _
  rw [UnpackedFloat.unpack]
  dsimp only
  split
  case isTrue h =>
    refine iff_of_true ?_ h
    split <;> rfl
  case isFalse h =>
    refine iff_of_false ?_ h
    split
    · split <;> exact fun hf => nomatch hf
    · exact fun hf => nomatch hf

/-- **A float has parts exactly when it is finite.** -/
theorem parts?_eq_none_iff (x : Float) : parts? x = none ↔ x.isFinite = false := by
  rw [isFinite_eq_false_iff]
  simp only [parts?]
  split
  · next h => exact iff_of_true rfl h
  · next h =>
    refine iff_of_false ?_ h
    split <;> exact Option.some_ne_none _

theorem toNat_unpackMantissa (x : Float) :
    (@unpackMantissa Format.binary64 x.toBits.toBitVec).toNat = fractionField x := by
  rw [unpackMantissa, BitVec.toNat_cast, BitVec.extractLsb_toNat, Nat.shiftRight_zero,
    fractionField]
  rfl

theorem isNegative_eq (x : Float) : isNegative x =
    (Sign.ofBitVec (@unpackSign Format.binary64 x.toBits.toBitVec) == .negative) := by
  have hbit : (@unpackSign Format.binary64 x.toBits.toBitVec).toNat =
      x.toBits.toNat / twoTo 63 % 2 := by
    rw [unpackSign, BitVec.toNat_cast, BitVec.extractLsb_toNat, Nat.shiftRight_eq_div_pow]
    rfl
  rw [isNegative, ← hbit]
  generalize @unpackSign Format.binary64 x.toBits.toBitVec = b
  revert b
  decide

/-- **The parts of a number** are those of its encoding. -/
theorem parts?_eq_some {x : Float} {s : Sign} {m : Nat} {e : Int} {h : 0 < m}
    (hu : x.toModel.unpack = .finite s m e h) : parts? x = some ⟨s == .negative, m, e⟩ := by
  have hbias : ((Format.binary64.exponentBias : Int) +
      Format.binary64.mantissaBitsWithoutImplicit) = 1075 := rfl
  have hexponent := toNat_unpackExponent x
  have hmantissa := toNat_unpackMantissa x
  have hsign := isNegative_eq x
  change unpack Format.binary64 x.toBits.toBitVec = _ at hu
  rw [unpack, hbias] at hu
  rw [parts?]
  dsimp only at hu ⊢
  rw [← hexponent, ← hmantissa, hsign]
  split at hu
  case isTrue => split at hu <;> cases hu
  case isFalse hall =>
    have hne : (@unpackExponent Format.binary64 x.toBits.toBitVec).toNat ≠ 2047 :=
      fun e => hall (BitVec.eq_of_toNat_eq e)
    rw [if_neg hne]
    split at hu
    case isTrue hzero =>
      have hnat : (@unpackExponent Format.binary64 x.toBits.toBitVec).toNat = 0 :=
        congrArg BitVec.toNat hzero
      rw [if_pos hnat]
      split at hu
      case isTrue => cases hu
      case isFalse =>
        cases hu
        rw [hnat]
        rfl
    case isFalse hzero =>
      have hnat : (@unpackExponent Format.binary64 x.toBits.toBitVec).toNat ≠ 0 :=
        fun e => hzero (BitVec.eq_of_toNat_eq e)
      rw [if_neg hnat]
      cases hu
      have hlt : fractionField x < 2 ^ 52 := Nat.mod_lt _ (by decide)
      have hcat : (1#1 ++ @unpackMantissa Format.binary64 x.toBits.toBitVec).toNat =
          fractionField x + twoTo 52 := by
        rw [BitVec.toNat_append, ← Nat.shiftLeft_add_eq_or_of_lt (hmantissa ▸ hlt), hmantissa,
          Nat.shiftLeft_eq, Nat.add_comm]
        rfl
      rw [hcat, hmantissa]

/-! ## Integers of 64 bits -/

/-- **A number whose exponent is at most `bound`**; its mantissa fits. -/
def AtMost (bound : Int) : UnpackedFloat → Prop
  | .zero _ => True
  | .finite _ m e _ => m < 2 ^ 53 ∧ -1074 ≤ e ∧ e ≤ bound
  | _ => False

theorem AtMost.isFinite {bound : Int} {u : UnpackedFloat} (h : AtMost bound u) :
    u.isFinite = true := by
  cases u with
  | notANumber => exact h.elim
  | infinity s => exact h.elim
  | zero s => rfl
  | finite s m e hm => rfl

theorem AtMost.mono {low high : Int} {u : UnpackedFloat} (h : AtMost low u) (hle : low ≤ high) :
    AtMost high u := by
  cases u with
  | notANumber => exact h
  | infinity s => exact h
  | zero s => trivial
  | finite s m e hm => exact ⟨h.1, h.2.1, h.2.2.trans hle⟩

/-- What is read off an exponent and a mantissa is a number, unless the exponent is the largest
one. -/
theorem atMost_unpack_components (s : Sign) {x : BitVec Format.binary64.exponentBits}
    (m : BitVec Format.binary64.mantissaBitsWithoutImplicit) {bound : Int} (hx : x ≠ -1#_)
    (hle : (x.toNat : Int) - 1075 ≤ bound) (hbound : -1074 ≤ bound) :
    AtMost bound (unpack Format.binary64 (packComponents Format.binary64 s x m)) := by
  have hbias : ((Format.binary64.exponentBias : Int) +
      Format.binary64.mantissaBitsWithoutImplicit) = 1075 := rfl
  have hm : m.toNat < 2 ^ 52 := m.isLt
  simp only [unpack, unpackExponent_packComponents, unpackMantissa_packComponents, hbias]
  rw [if_neg hx]
  split
  case isTrue hzero =>
    split
    case isTrue => trivial
    case isFalse =>
      have hnat : x.toNat = 0 := congrArg BitVec.toNat hzero
      exact ⟨hm.trans (by decide), by omega, by omega⟩
  case isFalse hzero =>
    have hnat : x.toNat ≠ 0 := fun h => hzero (BitVec.eq_of_toNat_eq h)
    exact ⟨(1#1 ++ m).isLt, by omega, hle⟩

/-- **What is packed stays a number** as long as its exponent is not too large. -/
theorem atMost_unpack_pack (s : Sign) {m : Nat} {e bound : Int} (hpos : 0 < m)
    (he : -1074 ≤ e) (hle : e ≤ bound) (hbound : bound ≤ 970) :
    AtMost bound (unpack Format.binary64 (pack Format.binary64 (.finite s m e hpos))) := by
  have hbias : (e + Format.binary64.exponentBias + Format.binary64.mantissaBitsWithoutImplicit) =
      e + 1075 := by
    change e + 1023 + 52 = e + 1075
    omega
  have hexp : ¬ 2 ^ Format.binary64.exponentBits ≤ (e + 1075).toNat + 1 := by
    change ¬ 2 ^ 11 ≤ (e + 1075).toNat + 1
    omega
  have hlow : -1074 ≤ bound := he.trans hle
  rw [pack, hbias]
  dsimp only
  rw [if_neg hexp]
  split
  case isTrue =>
    have hread : (BitVec.ofNat 11 (e + 1075).toNat).toNat = (e + 1075).toNat := by
      rw [BitVec.toNat_ofNat]
      exact Nat.mod_eq_of_lt (by omega)
    refine atMost_unpack_components s _ (fun hall => ?_) ?_ hlow
    · have hnat : (e + 1075).toNat = 2047 := hread.symm.trans (congrArg BitVec.toNat hall)
      omega
    · change ((BitVec.ofNat 11 (e + 1075).toNat).toNat : Int) - 1075 ≤ bound
      omega
  case isFalse =>
    refine atMost_unpack_components s _ (by decide) ?_ hlow
    change (0 : Int) - 1075 ≤ bound
    omega

/-- **Rounding** moves the exponent by what is shifted, and one place more at most. -/
theorem atMost_round {s : Sign} {m : Nat} {e bound : Int} {a : Accuracy}
    (h : 2 ^ (-1074 - e).toNat ≤ m) (hle : e + roundingShift m e + 1 ≤ bound)
    (hbound : bound ≤ 970) :
    AtMost bound (Float.Model.pack (roundWithAccuracy Format.binary64 s m e a)).unpack := by
  obtain ⟨n, f, hn, heq, -, hlow, hhigh⟩ := exists_roundWithAccuracy s a h
  rw [heq]
  exact atMost_unpack_pack s hn hlow (hhigh.trans hle) hbound

theorem atMost_ofUInt64 {n : UInt64} (hn : 0 < n.toNat) (h : n.toNat < 2 ^ 53) :
    AtMost 1 n.toFloat.toModel.unpack := by
  change AtMost 1 (Float.Model.pack
    (UnpackedFloat.normalize Format.binary64 (n.toNat : Int) 0 .positive)).unpack
  have hgt : compare (n.toNat : Int) 0 = .gt := compare_gt_iff_gt.mpr (Int.natCast_pos.mpr hn)
  rw [UnpackedFloat.normalize, hgt]
  dsimp only
  rw [UnpackedFloat.round, decreaseExponent, Int.toNat_natCast, targetExponent_binary64,
    totalExponent]
  have hne : n.toNat ≠ 0 := Nat.ne_of_gt hn
  have hlog : n.toNat.log2 < 53 := (Nat.log2_lt hne).mpr h
  obtain ⟨k, hk⟩ : ∃ k, (0 - max ((n.toNat.log2 : Int) + 1 + 0 - 53) (-1074)).toNat = k := ⟨_, rfl⟩
  -- the mantissa is shifted to its full length, and no further
  have hfull : n.toNat <<< k < 2 ^ 53 := by
    rw [Nat.shiftLeft_eq]
    calc n.toNat * 2 ^ k < 2 ^ (n.toNat.log2 + 1) * 2 ^ k :=
          Nat.mul_lt_mul_of_pos_right Nat.lt_log2_self (Nat.two_pow_pos k)
      _ = 2 ^ (n.toNat.log2 + 1 + k) := (Nat.pow_add _ _ _).symm
      _ = 2 ^ 53 := by congr 1; omega
  have hpos : 0 < n.toNat <<< k := Nat.shiftLeft_pos_iff.mpr hn
  have hlog' : (n.toNat <<< k).log2 < 53 := (Nat.log2_lt (Nat.ne_of_gt hpos)).mpr hfull
  dsimp only
  rw [hk]
  refine atMost_round ?_ ?_ (by decide)
  · rw [show (-1074 - (0 - (k : Int))).toNat = 0 by omega]
    exact hpos
  · rw [roundingShift_eq]
    omega

theorem atMost_mul_one {x : Float} {bound : Int} (hx : AtMost bound x.toModel.unpack)
    (hbound : bound ≤ 969) :
    AtMost (bound + 1) (x * Float.exactlyRepresentablePowersOfTen[0]).toModel.unpack := by
  change AtMost (bound + 1) (Float.Model.pack (mul Format.binary64 x.toModel.unpack
    (Float.exactlyRepresentablePowersOfTen[0]).toModel.unpack)).unpack
  rw [unpack_one]
  cases hu : x.toModel.unpack with
  | notANumber => rw [hu] at hx; cases hx
  | infinity s => rw [hu] at hx; cases hx
  | zero s => cases s <;> trivial
  | finite s m e h =>
    rw [hu] at hx
    obtain ⟨hm, he, hle⟩ := hx
    have hlog : (m * 2 ^ 52).log2 < 105 := by
      rw [Nat.log2_lt (Nat.ne_of_gt (Nat.mul_pos h (Nat.two_pow_pos 52)))]
      exact (Nat.mul_lt_mul_of_pos_right hm (Nat.two_pow_pos 52)).trans_eq (Nat.pow_add _ _ _).symm
    refine atMost_round ?_ ?_ (by omega)
    · calc 2 ^ (-1074 - (e + -52)).toNat ≤ 2 ^ 52 := Nat.pow_le_pow_right (by decide) (by omega)
        _ ≤ m * 2 ^ 52 := Nat.le_mul_of_pos_left _ h
    · rw [roundingShift_eq]
      omega

/-- A natural number of 64 bits becomes a float far below the largest one. -/
theorem atMost_ofNat {n : Nat} (h : n < 2 ^ 64) : AtMost 12 (Float.ofNat n).toModel.unpack := by
  rcases Nat.eq_zero_or_pos n with rfl | hn
  · trivial
  change AtMost 12 (Float.ofScientific n false 0).toModel.unpack
  rw [Float.ofScientific]
  split
  case isTrue hsmall =>
    have hsize : n.toUInt64.toNat = n := Nat.mod_eq_of_lt h
    have hword : AtMost 1 n.toUInt64.toFloat.toModel.unpack :=
      atMost_ofUInt64 (hsize.symm ▸ hn) (hsize.symm ▸ hsmall.1)
    exact (atMost_mul_one hword (by decide)).mono (by decide)
  case isFalse hlarge =>
    change AtMost 12 (Float.Model.pack (UnpackedFloat.ofScientific Format.binary64 n 0)).unpack
    rw [ofScientific_zero hn, Nat.mul_one]
    have hpos : 0 < n <<< 53 := Nat.shiftLeft_pos_iff.mpr hn
    have hlog : (n <<< 53).log2 < 117 := by
      rw [Nat.log2_lt (Nat.ne_of_gt hpos), Nat.shiftLeft_eq]
      exact (Nat.mul_lt_mul_of_pos_right h (Nat.two_pow_pos 53)).trans_eq (Nat.pow_add _ _ _).symm
    refine atMost_round hpos ?_ (by decide)
    rw [roundingShift_eq]
    omega

theorem isFinite_neg {x : Float} {bound : Int} (hx : AtMost bound x.toModel.unpack)
    (hbound : bound ≤ 970) : (-x).isFinite = true := by
  change (Float.Model.pack x.toModel.unpack.neg).unpack.isFinite = true
  cases hu : x.toModel.unpack with
  | notANumber => rw [hu] at hx; cases hx
  | infinity s => rw [hu] at hx; cases hx
  | zero s => cases s <;> rfl
  | finite s m e h =>
    rw [hu] at hx
    exact (atMost_unpack_pack (-s) h hx.2.1 hx.2.2 hbound).isFinite

/-- **An integer of 64 bits is a finite float.** -/
theorem isFinite_ofInt {n : Int} (h : n.natAbs < 2 ^ 64) : (Float.ofInt n).isFinite = true := by
  cases n with
  | ofNat n => exact (atMost_ofNat h).isFinite
  | negSucc n => exact isFinite_neg (atMost_ofNat h) (by decide)

end Reshape.Decimal
