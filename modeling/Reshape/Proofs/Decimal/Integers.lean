/-
# Reshape.Proofs.Decimal.Integers -- integers as floats

An integer of 64 bits becomes the float that `rounded` gives for its magnitude. What rounding to an
integer meets on the way are multiples of `2 ^ (-53)`: `Measures x s n` says that the float `x` is
plus or minus `n / 2 ^ 53`. Multiplying and dividing by one keep it, adding a half adds `2 ^ 52` and
rounds, and the parts of the float are the quotient and the remainder by `2 ^ 53`
(`Measures.exists_parts`).

So the floor of an integer with a half added is the integer (`Measures.floor_add_half`), unless it
is odd and has all of the digits, so that none is left for the half.
-/

import Reshape.Decimal.Double
import Reshape.Decimal.Reader
import Reshape.Proofs.Decimal.Normal

namespace Reshape.Decimal

open Float.Model (Format UnpackedFloat totalExponent)
open Float.Model.UnpackedFloat

/-! ## Multiples of the unit -/

/-- **The float is plus or minus `n / 2 ^ 53`**, a number that is at least `1 / 2`. -/
def Measures (x : Float) (s : Sign) (n : Nat) : Prop :=
  ∃ (m j : Nat) (h : 0 < m),
    x.toModel.unpack = .finite s m (j - 53) h ∧ m.log2 = 52 ∧ n = m * 2 ^ j

theorem exponent_unpack_le {b : BitVec Format.binary64.numBits} {s : Sign} {m : Nat} {e : Int}
    {h : 0 < m} (hu : unpack Format.binary64 b = .finite s m e h) : e ≤ 971 := by
  have hbias : ((Format.binary64.exponentBias : Int) +
      Format.binary64.mantissaBitsWithoutImplicit) = 1075 := rfl
  have hlt : (unpackExponent b).toNat < 2 ^ 11 := (unpackExponent b).isLt
  rw [unpack, hbias] at hu
  dsimp only at hu
  split at hu
  case isTrue => split at hu <;> cases hu
  case isFalse hall =>
    split at hu
    case isTrue hzero =>
      have hnat : (unpackExponent b).toNat = 0 := congrArg BitVec.toNat hzero
      split at hu
      case isTrue => cases hu
      case isFalse =>
        cases hu
        omega
    case isFalse =>
      have hne : (unpackExponent b).toNat ≠ 2047 := fun e => hall (BitVec.eq_of_toNat_eq e)
      cases hu
      omega

/-- **What is rounded is a multiple of the unit**, rounded. -/
theorem measures_round {x : Float} {s : Sign} {n : Nat} {e : Int}
    (hx : x.toModel.unpack =
      (Float.Model.pack (roundWithAccuracy Format.binary64 s n e .exact)).unpack)
    (hn : 2 ^ 52 ≤ n) (hlow : -53 ≤ e) (hhigh : n.log2 + e ≤ 1000) :
    Measures x s (rounded n * 2 ^ (e + 53).toNat) := by
  obtain ⟨m, j, hm, hlog, hrounded, hj⟩ := exists_rounded hn
  have hn_log : 52 ≤ n.log2 := le_log2_of_two_pow_le hn
  refine ⟨m, j + (e + 53).toNat, hm, ?_, hlog, ?_⟩
  · rw [hx, unpack_round s hn_log hlog hm hrounded (by omega) (by omega)]
    exact finite_congr rfl rfl (by omega)
  · rw [hrounded, Nat.mul_assoc, Nat.pow_add]

/-- The same for a sum, and for what is converted as a decimal: the exponent is the one of the
unit. -/
theorem measures_round_unit {x : Float} {s : Sign} {n : Nat}
    (hx : x.toModel.unpack =
      (Float.Model.pack (roundWithAccuracy Format.binary64 s n (-53) .exact)).unpack)
    (hn : 2 ^ 52 ≤ n) (hlt : n < 2 ^ 129) : Measures x s (rounded n) := by
  have hlog : n.log2 < 129 := (Nat.log2_lt (ne_zero_of_two_pow_le hn)).mpr hlt
  have hunit : ((-53 : Int) + 53).toNat = 0 := rfl
  have hmeasures := measures_round hx hn (by decide) (by omega)
  rwa [hunit, Nat.pow_zero, Nat.mul_one] at hmeasures

/-! ## Operations -/

theorem unpack_powerOfTen_zero :
    (powerOfTen 0).toModel.unpack = .finite .positive (2 ^ 52) (-52) (by decide) := rfl

theorem unpack_half :
    (0.5 : Float).toModel.unpack = .finite .positive (2 ^ 52) (-53) (by decide) := rfl

/-- A sum is not shifted to the left once its mantissa is long enough. -/
theorem round_eq {s : Sign} {n : Nat} (hn : 2 ^ 52 ≤ n) :
    UnpackedFloat.round Format.binary64 s n (-53) =
      roundWithAccuracy Format.binary64 s n (-53) .exact := by
  have hlog : 52 ≤ n.log2 := le_log2_of_two_pow_le hn
  have hshift : ((-53 : Int) - Format.binary64.targetExponent (totalExponent n (-53))).toNat =
      0 := by
    rw [targetExponent_binary64, totalExponent]
    omega
  rw [UnpackedFloat.round, decreaseExponent]
  dsimp only
  rw [hshift, Nat.shiftLeft_zero]
  rfl

namespace Measures

variable {x : Float} {s : Sign} {n : Nat}

theorem neg (h : Measures x s n) : Measures (-x) (-s) n := by
  obtain ⟨m, j, hm, hx, hlog, hn⟩ := h
  refine ⟨m, j, hm, ?_, hlog, hn⟩
  have hhigh := exponent_unpack_le hx
  change (Float.Model.pack x.toModel.unpack.neg).unpack = _
  rw [hx]
  exact unpack_pack_normal (-s) hm hlog (by omega) hhigh

theorem mul_one (h : Measures x s n) : Measures (x * powerOfTen 0) s n := by
  obtain ⟨m, j, hm, hx, hlog, hn⟩ := h
  refine ⟨m, j, hm, ?_, hlog, hn⟩
  have hhigh := exponent_unpack_le hx
  have hlog' : (m * 2 ^ 52).log2 = 104 := by rw [log2_mul_two_pow (Nat.ne_of_gt hm), hlog]
  have hheld : Held m := held_of_lt ((Nat.log2_lt (Nat.ne_of_gt hm)).mp (by omega))
  have hrounded : rounded (m * 2 ^ 52) = m * 2 ^ 52 := rounded_of_held (hheld.mul_two_pow 52)
  have hsign : s * .positive = s := by cases s <;> rfl
  change (Float.Model.pack (mul Format.binary64 x.toModel.unpack
    (powerOfTen 0).toModel.unpack)).unpack = _
  rw [hx, unpack_powerOfTen_zero, mul, hsign,
    unpack_round s (by omega) hlog hm hrounded (by omega) (by omega)]
  exact finite_congr rfl rfl (by omega)

theorem div_one (h : Measures x s n) : Measures (x / powerOfTen 0) s n := by
  obtain ⟨m, j, hm, hx, hlog, hn⟩ := h
  refine ⟨m, j, hm, ?_, hlog, hn⟩
  have hhigh := exponent_unpack_le hx
  have hlog' : (m * 2 ^ 1).log2 = 53 := by rw [log2_mul_two_pow (Nat.ne_of_gt hm), hlog]
  have hheld : Held m := held_of_lt ((Nat.log2_lt (Nat.ne_of_gt hm)).mp (by omega))
  have hrounded : rounded (m * 2 ^ 1) = m * 2 ^ 1 := rounded_of_held (hheld.mul_two_pow 1)
  have hsign : s / .positive = s := by cases s <;> rfl
  -- the dividend is shifted by 53 places, so that no digit of the quotient is lost
  have hquotient : divCore Format.binary64 m (j - 53) (2 ^ 52) (-52) =
      (m * 2 ^ 1, (j : Int) - 54, .exact) := by
    have htarget : min ((j : Int) - 53 - -52) (Format.binary64.targetExponent
        (totalExponent m (j - 53) - totalExponent (2 ^ 52) (-52))) = (j : Int) - 54 := by
      have hone : (2 ^ 52).log2 = 52 := by decide
      rw [targetExponent_binary64, totalExponent, totalExponent, hlog, hone]
      omega
    have hshift : ((j : Int) - 53 - -52 - (j - 54)).toNat = 53 := by omega
    have hdvd : m <<< 53 = m * 2 ^ 1 * 2 ^ 52 := by
      rw [Nat.shiftLeft_eq, Nat.mul_assoc, ← Nat.pow_add]
    rw [divCore, htarget, hshift, hdvd, Nat.mul_div_cancel _ (by decide), Nat.mul_mod_left]
    rfl
  change (Float.Model.pack (div Format.binary64 x.toModel.unpack
    (powerOfTen 0).toModel.unpack)).unpack = _
  rw [hx, unpack_powerOfTen_zero, div, hsign, hquotient,
    unpack_round s (by omega) hlog hm hrounded (by omega) (by omega)]
  exact finite_congr rfl rfl (by omega)

/-- The sum with a half before it is rounded. -/
theorem unpack_add_half (h : Measures x s n) :
    (x + 0.5).toModel.unpack = (Float.Model.pack
      (UnpackedFloat.normalize Format.binary64 (s.apply n + 2 ^ 52) (-53) .positive)).unpack := by
  obtain ⟨m, j, hm, hx, hlog, rfl⟩ := h
  have hmin : min ((j : Int) - 53) (-53) = -53 := by omega
  have hshift : ((j : Int) - 53 - -53).toNat = j := by omega
  change (Float.Model.pack (add Format.binary64 x.toModel.unpack
    (0.5 : Float).toModel.unpack)).unpack = _
  rw [hx, unpack_half, add, hmin, decreaseExponent, decreaseExponent]
  dsimp only
  rw [hshift, Nat.shiftLeft_eq]
  rfl

theorem add_half_positive (h : Measures x .positive n) (hlt : n < 2 ^ 128) :
    Measures (x + 0.5) .positive (rounded (n + 2 ^ 52)) := by
  have hsum : Sign.positive.apply (n : Int) + 2 ^ 52 = ((n + 2 ^ 52 : Nat) : Int) := by
    rw [Sign.apply]
    omega
  have hge : 2 ^ 52 ≤ n + 2 ^ 52 := Nat.le_add_left _ _
  have hcompare : compare ((n + 2 ^ 52 : Nat) : Int) 0 = .gt := by
    rw [compare_gt_iff_gt]
    omega
  have hx := h.unpack_add_half
  rw [hsum, UnpackedFloat.normalize, hcompare] at hx
  dsimp only at hx
  rw [Int.toNat_natCast, round_eq hge] at hx
  exact measures_round_unit hx hge (by omega)

theorem add_half_negative (h : Measures x .negative n) (hge : 2 ^ 53 ≤ n) (hlt : n < 2 ^ 128) :
    Measures (x + 0.5) .negative (rounded (n - 2 ^ 52)) := by
  have hsum : Sign.negative.apply (n : Int) + 2 ^ 52 = -((n - 2 ^ 52 : Nat) : Int) := by
    rw [Sign.apply]
    omega
  have hge : 2 ^ 52 ≤ n - 2 ^ 52 := by omega
  have hcompare : compare (-((n - 2 ^ 52 : Nat) : Int)) 0 = .lt := by
    rw [compare_lt_iff_lt]
    omega
  have hx := h.unpack_add_half
  rw [hsum, UnpackedFloat.normalize, hcompare] at hx
  dsimp only at hx
  rw [Int.neg_neg, Int.toNat_natCast, round_eq hge] at hx
  exact measures_round_unit hx hge (by omega)

end Measures

/-! ## Conversion -/

theorem measures_toFloat {n : UInt64} (hn : 0 < n.toNat) (hlt : n.toNat < 2 ^ 53) :
    Measures n.toFloat .positive (n.toNat * 2 ^ 53) := by
  have hne : n.toNat ≠ 0 := Nat.ne_of_gt hn
  have hlog : n.toNat.log2 < 53 := (Nat.log2_lt hne).mpr hlt
  obtain ⟨k, hk⟩ : ∃ k, k = 52 - n.toNat.log2 := ⟨_, rfl⟩
  have hlog' : (n.toNat * 2 ^ k).log2 = 52 := by
    rw [log2_mul_two_pow hne]
    omega
  have hpos : 0 < n.toNat * 2 ^ k := Nat.mul_pos hn (Nat.two_pow_pos k)
  have hshift : (0 - Format.binary64.targetExponent (totalExponent n.toNat 0)).toNat = k := by
    rw [targetExponent_binary64, totalExponent]
    omega
  have hx : n.toFloat.toModel.unpack = (Float.Model.pack
      (roundWithAccuracy Format.binary64 .positive (n.toNat * 2 ^ k) (0 - (k : Int))
        .exact)).unpack := by
    have hgt : compare (n.toNat : Int) 0 = .gt := compare_gt_iff_gt.mpr (Int.natCast_pos.mpr hn)
    change (Float.Model.pack
      (UnpackedFloat.normalize Format.binary64 (n.toNat : Int) 0 .positive)).unpack = _
    rw [UnpackedFloat.normalize, hgt]
    dsimp only
    rw [UnpackedFloat.round, decreaseExponent, Int.toNat_natCast, hshift, Nat.shiftLeft_eq]
  have hge : 2 ^ 52 ≤ n.toNat * 2 ^ k := (Nat.le_log2 (Nat.ne_of_gt hpos)).mp hlog'.ge
  have hmeasures := measures_round hx hge (by omega) (by omega)
  have hheld : Held (n.toNat * 2 ^ k) := (held_of_lt hlt).mul_two_pow k
  rw [rounded_of_held hheld, Nat.mul_assoc, ← Nat.pow_add] at hmeasures
  rwa [show k + (0 - (k : Int) + 53).toNat = 53 by omega] at hmeasures

/-- **A natural number of 64 bits is rounded** when it becomes a float. -/
theorem measures_ofNat {n : Nat} (hn : 0 < n) (hlt : n < 2 ^ 64) :
    Measures (Float.ofNat n) .positive (rounded n * 2 ^ 53) := by
  change Measures (Float.ofScientific n false 0) _ _
  rw [Float.ofScientific]
  split
  case isTrue hsmall =>
    have hsize : n.toUInt64.toNat = n := Nat.mod_eq_of_lt hlt
    have hword := measures_toFloat (hsize.symm ▸ hn) (hsize.symm ▸ hsmall.1)
    rw [hsize] at hword
    rw [rounded_of_held (held_of_lt hsmall.1)]
    exact hword.mul_one
  case isFalse hlarge =>
    have hx : (Float.ofModel (Float.Model.ofScientific n 0)).toModel.unpack = (Float.Model.pack
        (roundWithAccuracy Format.binary64 .positive (n * 2 ^ 53) (-53) .exact)).unpack := by
      change (Float.Model.pack (UnpackedFloat.ofScientific Format.binary64 n 0)).unpack = _
      rw [ofScientific_zero hn, Nat.mul_one, Nat.shiftLeft_eq]
      rfl
    rw [← rounded_mul_two_pow]
    exact measures_round_unit hx (by omega) (by omega)

/-- The sign of an integer as a float has it. -/
def signOf (n : Int) : Sign :=
  if n < 0 then .negative else .positive

theorem apply_signOf (n : Int) : (signOf n).apply n.natAbs = n := by
  rw [signOf]
  split_ifs with h
  · rw [Sign.apply]
    omega
  · rw [Sign.apply]
    omega

theorem apply_inj {s : Sign} {m n : Nat} : s.apply m = s.apply n ↔ m = n := by
  cases s with
  | positive => exact Int.ofNat_inj
  | negative => exact Int.neg_inj.trans Int.ofNat_inj

/-- **An integer of 64 bits is rounded** when it becomes a float. -/
theorem measures_ofInt {n : Int} (hn : n ≠ 0) (hlt : n.natAbs < 2 ^ 64) :
    Measures (Float.ofInt n) (signOf n) (rounded n.natAbs * 2 ^ 53) := by
  cases n with
  | ofNat n =>
    have hsign : signOf (.ofNat n) = .positive := if_neg (Int.not_lt.mpr (Int.natCast_nonneg n))
    rw [hsign]
    exact measures_ofNat (Nat.pos_of_ne_zero fun h => hn (congrArg Int.ofNat h)) hlt
  | negSucc n =>
    have hsign : signOf (.negSucc n) = .negative := if_pos (Int.negSucc_lt_zero n)
    rw [hsign]
    exact (measures_ofNat (Nat.succ_pos n) hlt).neg

/-! ## Whole parts -/

namespace Measures

variable {x : Float} {s : Sign} {n : Nat}

/-- **The parts of a multiple of the unit** are its quotient, and whether there is a remainder. -/
theorem exists_parts (h : Measures x s n) :
    ∃ p, Decimal.parts? x = some p ∧ p.negative = (s == .negative) ∧ p.down = n / 2 ^ 53 ∧
      (p.isWhole = true ↔ 2 ^ 53 ∣ n) := by
  obtain ⟨m, j, hm, hx, -, rfl⟩ := h
  refine ⟨_, parts?_eq_some hx, rfl, ?_, ?_⟩
  · rw [Parts.down]
    dsimp only
    split_ifs with hexponent
    · obtain ⟨i, rfl⟩ : ∃ i, j = i + 53 := ⟨j - 53, by omega⟩
      rw [show (((i + 53 : Nat) : Int) - 53).toNat = i by omega, Nat.pow_add, ← Nat.mul_assoc,
        Nat.mul_div_cancel _ (by decide)]
      rfl
    · obtain ⟨k, hk⟩ : ∃ k, j + k = 53 := ⟨53 - j, by omega⟩
      rw [show (-((j : Int) - 53)).toNat = k by omega, ← hk, Nat.add_comm j k, Nat.pow_add,
        Nat.mul_div_mul_right _ _ (Nat.two_pow_pos j)]
      rfl
  · rw [Parts.isWhole]
    dsimp only
    rw [Bool.or_eq_true, decide_eq_true_iff, beq_iff_eq]
    rcases Nat.lt_or_ge j 53 with hlt | hge
    · obtain ⟨k, hk⟩ : ∃ k, j + k = 53 := ⟨53 - j, by omega⟩
      rw [show (-((j : Int) - 53)).toNat = k by omega, ← hk, Nat.add_comm j k, Nat.pow_add,
        Nat.mul_dvd_mul_iff_right (Nat.two_pow_pos j), Nat.dvd_iff_mod_eq_zero]
      exact or_iff_right (by omega)
    · exact iff_of_true (.inl (by omega))
        (Nat.dvd_trans (Nat.pow_dvd_pow 2 hge) (Nat.dvd_mul_left _ m))

theorem floor_whole (h : Measures x s (n * 2 ^ 53)) : floor x = x := by
  obtain ⟨p, hp, -, -, hwhole⟩ := h.exists_parts
  simp only [floor, hp]
  rw [if_pos (hwhole.mpr (Nat.dvd_mul_left _ n))]

theorem ceiling_whole (h : Measures x s (n * 2 ^ 53)) : ceiling x = x := by
  obtain ⟨p, hp, -, -, hwhole⟩ := h.exists_parts
  simp only [ceiling, hp]
  rw [if_pos (hwhole.mpr (Nat.dvd_mul_left _ n))]

/-- The floor of a half above a natural number. -/
theorem floor_above (h : Measures x .positive ((2 * n + 1) * 2 ^ 52)) :
    floor x = Float.ofNat n := by
  obtain ⟨p, hp, hsign, hdown, hwhole⟩ := h.exists_parts
  have hrest : ¬ p.isWhole = true := by
    rw [hwhole]
    omega
  have hquotient : p.down = n := by omega
  simp only [floor, hp]
  rw [if_neg hrest, hsign, hquotient]
  rfl

/-- The floor of a half above the negative of a natural number. -/
theorem floor_below (hn : 0 < n) (h : Measures x .negative ((2 * n - 1) * 2 ^ 52)) :
    floor x = -Float.ofNat n := by
  obtain ⟨p, hp, hsign, hdown, hwhole⟩ := h.exists_parts
  have hrest : ¬ p.isWhole = true := by
    rw [hwhole]
    omega
  have hquotient : p.up = n := by
    rw [Parts.up, if_neg hrest]
    omega
  simp only [floor, hp]
  rw [if_neg hrest, hsign, hquotient]
  rfl

/-- **The floor of an integer with a half added is the integer**, as long as the half is not lost
to an odd last digit. -/
theorem floor_add_half (h : Measures x s (n * 2 ^ 53)) (hn : 0 < n) (hlt : n < 2 ^ 64)
    (hheld : Held n) (heven : 2 ^ 52 < n → n < 2 ^ 53 → n % 2 = 0) :
    Measures (floor (x + 0.5)) s (n * 2 ^ 53) := by
  have hself (hshort : n < 2 ^ 53) : Measures (Float.ofNat n) .positive (n * 2 ^ 53) := by
    have hmeasures := measures_ofNat hn hlt
    rwa [rounded_of_held hheld] at hmeasures
  have hdouble : 2 * n * 2 ^ 52 = n * 2 ^ 53 := by omega
  cases s with
  | positive =>
    have hsum := h.add_half_positive (by omega)
    have hsplit : n * 2 ^ 53 + 2 ^ 52 = (2 * n + 1) * 2 ^ 52 := by ring
    rw [hsplit, rounded_mul_two_pow] at hsum
    rcases Nat.lt_or_ge n (2 ^ 52) with hshort | hlong
    · rw [rounded_of_held (held_of_lt (by omega))] at hsum
      rw [hsum.floor_above]
      exact hself (by omega)
    · rw [rounded_double_add_one hheld (by omega) hlong, hdouble] at hsum
      rwa [hsum.floor_whole]
  | negative =>
    have hsum := h.add_half_negative (by omega) (by omega)
    have hsplit : n * 2 ^ 53 - 2 ^ 52 = (2 * n - 1) * 2 ^ 52 := by omega
    rw [hsplit, rounded_mul_two_pow] at hsum
    rcases Nat.lt_or_ge (2 ^ 52) n with hlong | hshort
    · rw [rounded_double_sub_one hheld (heven hlong) hlong, hdouble] at hsum
      rwa [hsum.floor_whole]
    · rw [rounded_of_held (held_of_lt (by omega))] at hsum
      rw [hsum.floor_below hn]
      exact (hself (by omega)).neg

end Measures

/-! ## Zero

Zero has no digits, so it is no multiple of the unit, and is looked at by itself. -/

theorem parts?_zero : parts? (Float.ofNat 0) = some ⟨false, 0, -1074⟩ := rfl

theorem Parts.isWhole_zero (b : Bool) (e : Int) : (Parts.mk b 0 e).isWhole = true := by
  rw [isWhole, Nat.zero_mod]
  exact Bool.or_true _

theorem Parts.down_zero (b : Bool) (e : Int) : (Parts.mk b 0 e).down = 0 := by
  rw [down, Nat.zero_mul, Nat.zero_div]
  exact ite_self 0

theorem ceiling_zero : ceiling (Float.ofNat 0) = Float.ofNat 0 := by
  simp only [ceiling, parts?_zero]
  rw [if_pos (Parts.isWhole_zero false _)]

theorem floor_zero : floor (Float.ofNat 0) = Float.ofNat 0 := by
  simp only [floor, parts?_zero]
  rw [if_pos (Parts.isWhole_zero false _)]

theorem floor_half : floor (Float.ofNat 0 * powerOfTen 0 + 0.5) / powerOfTen 0 = Float.ofNat 0 := by
  have hsum : Float.ofNat 0 * powerOfTen 0 + 0.5 = 0.5 := rfl
  have hmeasures : Measures 0.5 .positive ((2 * 0 + 1) * 2 ^ 52) :=
    ⟨2 ^ 52, 0, by decide, rfl, by decide, rfl⟩
  rw [hsum, hmeasures.floor_above]
  rfl

end Reshape.Decimal
