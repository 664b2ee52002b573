/-
# Reshape.Proofs.Decimal.Normal -- floats with all of their digits

A float with 53 digits has one form, and packing it gives it back (`unpack_pack_normal`). What is
rounded to it is shifted so that 53 digits are left, and then rounded like a quotient
(`roundedMantissa_shift`). So a number whose 53 leading digits are those of `m`, rounded, is packed
as `m` with the exponent that fits (`unpack_round`).
-/

import Reshape.Proofs.Decimal.Finite
import Reshape.Proofs.Decimal.Rounding

namespace Reshape.Decimal

open Float.Model (Format UnpackedFloat totalExponent)
open Float.Model.UnpackedFloat

/-! ## Rounding -/

/-- The two bits behind a shifted mantissa compare what is cut off with the half. -/
theorem bits_shift (m k : Nat) :
    (ExtendedMantissa.ofMantissaAndAccuracy m .exact >>> k).roundBit =
        decide (2 ^ k ≤ 2 * (m % 2 ^ k)) ∧
      (ExtendedMantissa.ofMantissaAndAccuracy m .exact >>> k).stickyBit =
        decide (2 * (m % 2 ^ k) % 2 ^ k ≠ 0) := by
  induction k with
  | zero =>
    rw [Nat.pow_zero, Nat.mod_one]
    exact ⟨rfl, rfl⟩
  | succ k ih =>
    have hsplit : m % 2 ^ (k + 1) = m % 2 ^ k + 2 ^ k * (m / 2 ^ k % 2) := by
      rw [Nat.pow_succ, Nat.mod_mul]
    have hlt : m % 2 ^ k < 2 ^ k := Nat.mod_lt _ (Nat.two_pow_pos k)
    have hmantissa : (ExtendedMantissa.ofMantissaAndAccuracy m .exact >>> k).mantissa =
        m / 2 ^ k := by
      rw [mantissa_shiftRight, mantissa_ofMantissaAndAccuracy]
    change ((ExtendedMantissa.ofMantissaAndAccuracy m .exact >>> k).mantissa % 2 != 0) = _ ∧
      ((ExtendedMantissa.ofMantissaAndAccuracy m .exact >>> k).roundBit ||
        (ExtendedMantissa.ofMantissaAndAccuracy m .exact >>> k).stickyBit) = _
    have hpos := Nat.two_pow_pos k
    have hbit := Nat.mod_two_eq_zero_or_one (m / 2 ^ k)
    rw [hmantissa, ih.1, ih.2, hsplit, Nat.pow_succ]
    generalize m % 2 ^ k = r at hlt ⊢
    generalize m / 2 ^ k % 2 = b at hbit ⊢
    generalize 2 ^ k = p at hlt hpos ⊢
    have htwice : 2 * (r + p * b) % (p * 2) = 2 * r := by
      rw [Nat.mul_comm p 2, Nat.mul_mod_mul_left, Nat.add_mul_mod_self_left, Nat.mod_eq_of_lt hlt]
    constructor
    · rcases hbit with rfl | rfl
      · simp
        omega
      · simp
        omega
    · rw [htwice, ← Bool.decide_or, decide_eq_decide]
      rcases Nat.lt_or_ge (2 * r) p with hsmall | hlarge
      · rw [Nat.mod_eq_of_lt hsmall]
        omega
      · omega

/-- **The rounded mantissa is the rounded quotient.** -/
theorem roundedMantissa_shift (m k : Nat) :
    (ExtendedMantissa.ofMantissaAndAccuracy m .exact >>> k).roundedMantissa =
      roundDiv m (2 ^ k) .even := by
  have hmantissa : (ExtendedMantissa.ofMantissaAndAccuracy m .exact >>> k).mantissa =
      m / 2 ^ k := by
    rw [mantissa_shiftRight, mantissa_ofMantissaAndAccuracy]
  have hbits := bits_shift m k
  have hlt : m % 2 ^ k < 2 ^ k := Nat.mod_lt _ (Nat.two_pow_pos k)
  generalize ExtendedMantissa.ofMantissaAndAccuracy m .exact >>> k = em at hmantissa hbits
  obtain ⟨mantissa, roundBit, stickyBit⟩ := em
  obtain ⟨rfl, rfl⟩ := hbits
  subst hmantissa
  rw [ExtendedMantissa.roundedMantissa]
  unfold roundDiv
  generalize m % 2 ^ k = r at hlt ⊢
  generalize m / 2 ^ k = q
  generalize 2 ^ k = p at hlt ⊢
  dsimp only
  rcases Nat.lt_or_ge (2 * r) p with hsmall | hlarge
  · rw [decide_eq_false (Nat.not_le.mpr hsmall), Nat.mod_eq_of_lt hsmall, if_pos hsmall]
    cases decide (2 * r ≠ 0) <;> rfl
  · have hmod : 2 * r % p = 2 * r - p := by
      rw [Nat.mod_eq_sub_mod hlarge, Nat.mod_eq_of_lt (by omega)]
    rw [decide_eq_true hlarge, hmod, if_neg (Nat.not_lt.mpr hlarge)]
    rcases Nat.eq_or_lt_of_le hlarge with htie | habove
    · rw [decide_eq_false (by omega), if_neg (by omega)]
      show q + q % 2 = if q % 2 = 0 then q else q + 1
      split_ifs <;> omega
    · rw [decide_eq_true (by omega), if_pos habove]
      rfl

/-! ## Packing -/

theorem ofBitVec_unpackSign (s : Sign) (x : BitVec 11) (m : BitVec 52) :
    Sign.ofBitVec (unpackSign (packComponents Format.binary64 s x m)) = s := by
  have hbit : unpackSign (packComponents Format.binary64 s x m) = s.toBitVec := by
    change (s.toBitVec ++ x ++ m).extractLsb' 63 1 = s.toBitVec
    rw [BitVec.extractLsb'_append_eq_of_le (by decide),
      BitVec.extractLsb'_append_eq_of_le (by decide)]
    exact BitVec.extractLsb'_eq_self
  rw [hbit]
  cases s <;> rfl

theorem finite_congr {s s' : Sign} {m m' : Nat} {e e' : Int} {h : 0 < m} {h' : 0 < m'} (hs : s = s')
    (hm : m = m') (he : e = e') : UnpackedFloat.finite s m e h = .finite s' m' e' h' := by
  subst hs hm he
  rfl

/-- **A float with all of its digits is packed as it is.** -/
theorem unpack_pack_normal (s : Sign) {m : Nat} {e : Int} (h : 0 < m) (hm : m.log2 = 52)
    (hlow : -1074 ≤ e) (hhigh : e ≤ 971) :
    (Float.Model.pack (.finite s m e h)).unpack = .finite s m e h := by
  have hne := Nat.ne_of_gt h
  have hsmall : m < 2 ^ 53 := (Nat.log2_lt hne).mp (by omega)
  have hlarge : 2 ^ 52 ≤ m := (Nat.le_log2 hne).mp (by omega)
  have hbias : (e + Format.binary64.exponentBias + Format.binary64.mantissaBitsWithoutImplicit) =
      e + 1075 := by
    change e + 1023 + 52 = e + 1075
    omega
  have hexp : ¬ 2 ^ Format.binary64.exponentBits ≤ (e + 1075).toNat + 1 := by
    change ¬ 2 ^ 11 ≤ (e + 1075).toNat + 1
    omega
  have hdigits : m.log2 + 1 = Format.binary64.mantissaBits := by
    rw [hm]
    rfl
  change unpack Format.binary64 (pack Format.binary64 (.finite s m e h)) = _
  rw [pack, hbias]
  dsimp only
  rw [if_neg hexp, if_pos hdigits]
  have hread : (BitVec.ofNat 11 (e + 1075).toNat).toNat = (e + 1075).toNat :=
    Nat.mod_eq_of_lt (show (e + 1075).toNat < 2 ^ 11 by omega)
  have hall : BitVec.ofNat 11 (e + 1075).toNat ≠ -1#11 := by
    intro heq
    have hnat : (e + 1075).toNat = 2047 := hread.symm.trans (congrArg BitVec.toNat heq)
    omega
  have hnone : BitVec.ofNat 11 (e + 1075).toNat ≠ 0#11 := by
    intro heq
    have hnat : (e + 1075).toNat = 0 := hread.symm.trans (congrArg BitVec.toNat heq)
    omega
  -- the leading digit is not stored and comes back in front of the others
  have hmantissa : (1#1 ++ BitVec.ofNat 52 m).toNat = m := by
    rw [BitVec.toNat_append, ← Nat.shiftLeft_add_eq_or_of_lt (BitVec.ofNat 52 m).isLt,
      BitVec.toNat_ofNat, Nat.shiftLeft_eq]
    change 1 * 2 ^ 52 + m % 2 ^ 52 = m
    omega
  simp only [unpack, unpackExponent_packComponents, unpackMantissa_packComponents]
  rw [if_neg hall, if_neg hnone]
  refine finite_congr (ofBitVec_unpackSign s _ _) hmantissa ?_
  change ((BitVec.ofNat 11 (e + 1075).toNat).toNat : Int) - (1023 + 52) = e
  omega

/-! ## Rounding to all digits -/

/-- **What is rounded is packed with its leading digits.** The second shift is there for the
mantissa that rounding has made one digit longer. -/
theorem unpack_round (s : Sign) {n m j : Nat} {e : Int} (hn : 52 ≤ n.log2) (hm : m.log2 = 52)
    (h : 0 < m) (hrounded : rounded n = m * 2 ^ j) (hlow : -1074 ≤ e + (n.log2 - 52 : Nat))
    (hhigh : e + j ≤ 971) :
    (Float.Model.pack (roundWithAccuracy Format.binary64 s n e .exact)).unpack =
      .finite s m (e + j) h := by
  obtain ⟨k, hk⟩ : ∃ k, n.log2 - 52 = k := ⟨_, rfl⟩
  rw [rounded, hk] at hrounded
  rw [hk] at hlow
  have hshift : roundingShift n e = k := by
    rw [roundingShift_eq]
    omega
  have hfirst : shiftToTargetExponent Format.binary64 n e .exact =
      (ExtendedMantissa.ofMantissaAndAccuracy n .exact >>> k, e + k) := by
    rw [← hshift]
    rfl
  have hge : 2 ^ 52 ≤ n := (Nat.le_log2 (by rintro rfl; cases hn)).mp hn
  have hdigits := (div_lastDigit_bounds hge).1.trans (roundDiv_bounds _ _).1
  rw [hk] at hdigits
  generalize hr : roundDiv n (2 ^ k) .even = r at hrounded hdigits
  have hr_ne : r ≠ 0 := by
    rintro rfl
    exact absurd hdigits (by decide)
  have hlog : 52 ≤ r.log2 := (Nat.le_log2 hr_ne).mpr hdigits
  have hshift' : roundingShift r (e + k) = r.log2 - 52 := by
    rw [roundingShift_eq]
    omega
  -- both sides have as many digits
  have hj : r.log2 - 52 + k = j := by
    have hlogs := congrArg Nat.log2 hrounded
    rw [log2_mul_two_pow hr_ne, log2_mul_two_pow (Nat.ne_of_gt h), hm] at hlogs
    omega
  have hmantissa : r / 2 ^ (r.log2 - 52) = m := by
    rw [← hj, Nat.pow_add, ← Nat.mul_assoc] at hrounded
    have hleft := Nat.eq_of_mul_eq_mul_right (Nat.two_pow_pos k) hrounded
    exact Nat.div_eq_of_eq_mul_left (Nat.two_pow_pos _) hleft
  have hresult : roundWithAccuracy Format.binary64 s n e .exact = .finite s m (e + j) h := by
    rw [roundWithAccuracy, hfirst]
    dsimp only
    rw [roundedMantissa_shift, hr, mantissa_shiftToTargetExponent, hshift', hmantissa,
      dif_neg (Nat.ne_of_gt h)]
    refine finite_congr rfl rfl ?_
    change e + k + (roundingShift r (e + k) : Int) = e + j
    omega
  rw [hresult]
  exact unpack_pack_normal s h hm (by omega) hhigh

end Reshape.Decimal
