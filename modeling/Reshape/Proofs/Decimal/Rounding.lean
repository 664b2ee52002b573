/-
# Reshape.Proofs.Decimal.Rounding -- natural numbers rounded to 53 binary digits

A float has 53 binary digits, so it holds the natural numbers that are a shorter one times a power
of two (`Held`). `rounded n` is the one that is nearest to `n`, and the even one of two that are
equally near: a number that is held is rounded to itself (`rounded_eq_self_iff`), and powers of two
do not matter (`rounded_mul_two_pow`).

One more or less than twice a number is rounded to twice the number, as soon as it has too many
digits itself (`rounded_double_add_one`, `rounded_double_sub_one`), unless twice the number has one
digit more than it may have and is not even in the last one.
-/

import Mathlib.Algebra.Order.Ring.Nat
import Mathlib.Tactic.Ring
import Reshape.Decimal.Shortest

namespace Reshape.Decimal

/-! ## Quotients rounded to nearest -/

theorem roundDiv_of_dvd {num den : Nat} (h : den ∣ num) (hden : 0 < den) (tie : Tie) :
    roundDiv num den tie = num / den := by
  have hrest : num % den = 0 := Nat.mod_eq_zero_of_dvd h
  unfold roundDiv
  dsimp only
  rw [hrest, if_pos (by omega)]

theorem roundDiv_mul_right {num den c : Nat} (hc : 0 < c) (tie : Tie) :
    roundDiv (num * c) (den * c) tie = roundDiv num den tie := by
  have hlt : ∀ a b : Nat, a * c < b * c ↔ a < b := fun a b => Nat.mul_lt_mul_right hc
  unfold roundDiv
  simp only [Nat.mul_div_mul_right _ _ hc, Nat.mul_mod_mul_right, ← Nat.mul_assoc, hlt]

/-- One above a multiple is nearest to the multiple. -/
theorem roundDiv_mul_add_one {q den : Nat} (hden : 2 ≤ den) (h : den = 2 → q % 2 = 0) :
    roundDiv (q * den + 1) den .even = q := by
  have hdiv : (q * den + 1) / den = q := by
    rw [Nat.mul_comm, Nat.mul_add_div (by omega), Nat.div_eq_of_lt (by omega), Nat.add_zero]
  have hmod : (q * den + 1) % den = 1 := by
    rw [Nat.mul_comm, Nat.mul_add_mod, Nat.mod_eq_of_lt (by omega)]
  unfold roundDiv
  simp only [hdiv, hmod]
  split_ifs <;> omega

/-- So is one below it. -/
theorem roundDiv_mul_sub_one {q den : Nat} (hq : 0 < q) (hden : 2 ≤ den)
    (h : den = 2 → q % 2 = 0) : roundDiv (q * den - 1) den .even = q := by
  obtain ⟨p, rfl⟩ : ∃ p, q = p + 1 := ⟨q - 1, by omega⟩
  have hsplit : (p + 1) * den - 1 = den * p + (den - 1) := by
    rw [Nat.add_mul, Nat.one_mul, Nat.mul_comm p den]
    omega
  have hdiv : (den * p + (den - 1)) / den = p := by
    rw [Nat.mul_add_div (by omega), Nat.div_eq_of_lt (by omega), Nat.add_zero]
  have hmod : (den * p + (den - 1)) % den = den - 1 := by
    rw [Nat.mul_add_mod, Nat.mod_eq_of_lt (by omega)]
  rw [hsplit]
  unfold roundDiv
  simp only [hdiv, hmod]
  split_ifs <;> omega

theorem roundDiv_bounds (num den : Nat) :
    num / den ≤ roundDiv num den .even ∧ roundDiv num den .even ≤ num / den + 1 := by
  unfold roundDiv
  dsimp only
  split_ifs <;> omega

/-! ## Fifty-three digits -/

/-- **The number has at most 53 binary digits**, zeros at its end not counted. -/
def Held (n : Nat) : Prop :=
  ∃ m k, m < 2 ^ 53 ∧ n = m * 2 ^ k

/-- **The number rounded to 53 binary digits**, a tie going to the even number. -/
def rounded (n : Nat) : Nat :=
  roundDiv n (2 ^ (n.log2 - 52)) .even * 2 ^ (n.log2 - 52)

theorem ne_zero_of_two_pow_le {n k : Nat} (h : 2 ^ k ≤ n) : n ≠ 0 :=
  Nat.ne_of_gt ((Nat.two_pow_pos k).trans_le h)

theorem le_log2_of_two_pow_le {n k : Nat} (h : 2 ^ k ≤ n) : k ≤ n.log2 :=
  (Nat.le_log2 (ne_zero_of_two_pow_le h)).mpr h

theorem held_of_lt {n : Nat} (h : n < 2 ^ 53) : Held n :=
  ⟨n, 0, h, (Nat.mul_one n).symm⟩

theorem Held.mul_two_pow {n : Nat} (h : Held n) (j : Nat) : Held (n * 2 ^ j) := by
  obtain ⟨m, k, hm, rfl⟩ := h
  exact ⟨m, k + j, hm, by rw [Nat.mul_assoc, Nat.pow_add]⟩

/-- What is held is a multiple of the unit of its last digit. -/
theorem Held.dvd {n : Nat} (h : Held n) : 2 ^ (n.log2 - 52) ∣ n := by
  obtain ⟨m, k, hm, rfl⟩ := h
  rcases Nat.eq_zero_or_pos m with rfl | hpos
  · rw [Nat.zero_mul]
    exact Nat.dvd_zero _
  · have hne : m * 2 ^ k ≠ 0 := Nat.ne_of_gt (Nat.mul_pos hpos (Nat.two_pow_pos k))
    have hlog : (m * 2 ^ k).log2 < 53 + k := by
      rw [Nat.log2_lt hne, Nat.pow_add]
      exact Nat.mul_lt_mul_of_pos_right hm (Nat.two_pow_pos k)
    exact Nat.dvd_trans (Nat.pow_dvd_pow 2 (by omega)) (Nat.dvd_mul_left _ m)

theorem rounded_of_held {n : Nat} (h : Held n) : rounded n = n := by
  rw [rounded, roundDiv_of_dvd h.dvd (Nat.two_pow_pos _), Nat.div_mul_cancel h.dvd]

/-- The quotient by the unit of the last digit has 53 digits. -/
theorem div_lastDigit_bounds {n : Nat} (h : 2 ^ 52 ≤ n) :
    2 ^ 52 ≤ n / 2 ^ (n.log2 - 52) ∧ n / 2 ^ (n.log2 - 52) < 2 ^ 53 := by
  have hne : n ≠ 0 := ne_zero_of_two_pow_le h
  have hlog : 52 ≤ n.log2 := le_log2_of_two_pow_le h
  constructor
  · rw [Nat.le_div_iff_mul_le (Nat.two_pow_pos _), ← Nat.pow_add]
    rw [show 52 + (n.log2 - 52) = n.log2 by omega]
    exact Nat.log2_self_le hne
  · rw [Nat.div_lt_iff_lt_mul (Nat.two_pow_pos _), ← Nat.pow_add]
    rw [show 53 + (n.log2 - 52) = n.log2 + 1 by omega]
    exact Nat.lt_log2_self

/-- The leading digits of what is rounded, and how many zeros follow. -/
theorem exists_rounded {n : Nat} (h : 2 ^ 52 ≤ n) :
    ∃ m j, 0 < m ∧ m.log2 = 52 ∧ rounded n = m * 2 ^ j ∧ j ≤ n.log2 - 51 := by
  have hbounds := roundDiv_bounds n (2 ^ (n.log2 - 52))
  have hdigits := div_lastDigit_bounds h
  rcases Nat.lt_or_ge (roundDiv n (2 ^ (n.log2 - 52)) .even) (2 ^ 53) with hshort | hlong
  · have hne := ne_zero_of_two_pow_le (hdigits.1.trans hbounds.1)
    refine ⟨_, _, Nat.pos_of_ne_zero hne, ?_, rfl, by omega⟩
    rw [Nat.log2_eq_iff hne]
    omega
  · have heq : roundDiv n (2 ^ (n.log2 - 52)) .even = 2 ^ 53 := by omega
    refine ⟨2 ^ 52, n.log2 - 52 + 1, by decide, by decide, ?_, ?_⟩
    · rw [rounded, heq, Nat.pow_succ, Nat.pow_succ]
      ring
    · have hlog : 52 ≤ n.log2 := le_log2_of_two_pow_le h
      omega

theorem held_rounded (n : Nat) : Held (rounded n) := by
  rcases Nat.lt_or_ge n (2 ^ 52) with hlt | hge
  · have hheld : Held n := held_of_lt (hlt.trans (by decide))
    rwa [rounded_of_held hheld]
  · obtain ⟨m, j, hm, hlog, hrounded, -⟩ := exists_rounded hge
    exact ⟨m, j, (Nat.log2_lt (Nat.ne_of_gt hm)).mp (by omega), hrounded⟩

/-- **A number is rounded to itself exactly when it is held.** -/
theorem rounded_eq_self_iff {n : Nat} : rounded n = n ↔ Held n := by
  constructor
  · intro h
    rw [← h]
    exact held_rounded n
  · exact rounded_of_held

/-- The first number with too many digits. -/
theorem not_held_two_pow_succ : ¬ Held (2 ^ 53 + 1) := by
  intro h
  have hlog : Nat.log2 (2 ^ 53 + 1) = 53 := by decide
  have hdvd := h.dvd
  rw [hlog] at hdvd
  exact absurd hdvd (by decide)

/-- What has too many digits is not rounded to fewer. -/
theorem le_rounded {n : Nat} (h : 2 ^ 53 ≤ n) : 2 ^ 53 ≤ rounded n := by
  have hlog : 53 ≤ n.log2 := le_log2_of_two_pow_le h
  have hdigits := (div_lastDigit_bounds ((by decide : 2 ^ 52 ≤ 2 ^ 53).trans h)).1
  calc 2 ^ 53 ≤ 2 ^ 52 * 2 ^ (n.log2 - 52) := by
        rw [← Nat.pow_add]
        exact Nat.pow_le_pow_right (by decide) (by omega)
    _ ≤ rounded n := Nat.mul_le_mul_right _ (hdigits.trans (roundDiv_bounds _ _).1)

theorem rounded_pos {n : Nat} (hn : 0 < n) : 0 < rounded n := by
  rcases Nat.lt_or_ge n (2 ^ 53) with hshort | hlong
  · rwa [rounded_of_held (held_of_lt hshort)]
  · exact (Nat.two_pow_pos 53).trans_le (le_rounded hlong)

/-- Rounding goes to the next power of two at most. -/
theorem rounded_lt {n : Nat} (hlt : n < 2 ^ 63) : rounded n < 2 ^ 64 := by
  rcases Nat.lt_or_ge n (2 ^ 52) with hshort | hlong
  · rw [rounded_of_held (held_of_lt (by omega))]
    omega
  · obtain ⟨m, j, hm, hlog, hrounded, hj⟩ := exists_rounded hlong
    have hm_lt : m < 2 ^ 53 := (Nat.log2_lt (Nat.ne_of_gt hm)).mp (by omega)
    have hlog_n : n.log2 < 63 := (Nat.log2_lt (by omega)).mpr hlt
    rw [hrounded]
    calc m * 2 ^ j < 2 ^ 53 * 2 ^ j := Nat.mul_lt_mul_of_pos_right hm_lt (Nat.two_pow_pos j)
      _ = 2 ^ (53 + j) := (Nat.pow_add 2 53 j).symm
      _ ≤ 2 ^ 64 := Nat.pow_le_pow_right (by decide) (by omega)

theorem log2_mul_two_pow {n : Nat} (hn : n ≠ 0) (j : Nat) : (n * 2 ^ j).log2 = n.log2 + j := by
  have hpos := Nat.two_pow_pos j
  have hne : n * 2 ^ j ≠ 0 := Nat.mul_ne_zero hn (Nat.ne_of_gt hpos)
  have hlow : n.log2 + j ≤ (n * 2 ^ j).log2 := by
    rw [Nat.le_log2 hne, Nat.pow_add]
    exact Nat.mul_le_mul_right _ (Nat.log2_self_le hn)
  have hhigh : (n * 2 ^ j).log2 < n.log2 + 1 + j := by
    rw [Nat.log2_lt hne, Nat.pow_add]
    exact Nat.mul_lt_mul_of_pos_right Nat.lt_log2_self hpos
  omega

/-- **Powers of two do not matter.** -/
theorem rounded_mul_two_pow (n j : Nat) : rounded (n * 2 ^ j) = rounded n * 2 ^ j := by
  rcases Nat.lt_or_ge n (2 ^ 52) with hlt | hge
  · have hheld : Held n := held_of_lt (hlt.trans (by decide))
    rw [rounded_of_held (hheld.mul_two_pow j), rounded_of_held hheld]
  · have hne : n ≠ 0 := ne_zero_of_two_pow_le hge
    have hlog : 52 ≤ n.log2 := le_log2_of_two_pow_le hge
    have hshift : n.log2 + j - 52 = n.log2 - 52 + j := by omega
    rw [rounded, rounded, log2_mul_two_pow hne, hshift, Nat.pow_add,
      roundDiv_mul_right (Nat.two_pow_pos j), Nat.mul_assoc]

/-! ## Next to the double -/

section Double

variable {n : Nat} (h : Held n) (heven : n < 2 ^ 53 → n % 2 = 0)
include h heven

/-- The double is a multiple of twice the unit of the last digit, an even one if that is 2. -/
theorem exists_double_eq (hle : 2 ^ 52 ≤ n) :
    ∃ q, 0 < q ∧ 2 * n = q * 2 ^ (n.log2 - 51) ∧ 2 ≤ 2 ^ (n.log2 - 51) ∧
      (2 ^ (n.log2 - 51) = 2 → q % 2 = 0) := by
  have hne : n ≠ 0 := ne_zero_of_two_pow_le hle
  have hlog : 52 ≤ n.log2 := le_log2_of_two_pow_le hle
  have hsucc : n.log2 - 51 = n.log2 - 52 + 1 := by omega
  obtain ⟨q, hq⟩ := h.dvd
  refine ⟨q, ?_, ?_, ?_, fun htwo => ?_⟩
  · apply Nat.pos_of_ne_zero
    rintro rfl
    exact hne hq
  · rw [hsucc, Nat.pow_succ]
    calc 2 * n = 2 * (2 ^ (n.log2 - 52) * q) := by rw [← hq]
      _ = q * (2 ^ (n.log2 - 52) * 2) := by ring
  · rw [hsucc, Nat.pow_succ]
    have hpos := Nat.two_pow_pos (n.log2 - 52)
    omega
  · -- the unit of the last digit is 1
    have hunit : n.log2 - 52 = 0 := by
      rw [hsucc, Nat.pow_succ] at htwo
      have hone : 2 ^ (n.log2 - 52) = 2 ^ 0 := by omega
      exact Nat.pow_right_injective (Nat.le_refl 2) hone
    have hlt : n < 2 ^ 53 := (Nat.log2_lt hne).mp (by omega)
    rw [hunit, Nat.pow_zero, Nat.one_mul] at hq
    exact hq ▸ heven hlt

/-- **One more than the double** of a number of 53 digits is rounded to the double. -/
theorem rounded_double_add_one (hle : 2 ^ 52 ≤ n) : rounded (2 * n + 1) = 2 * n := by
  obtain ⟨q, -, hq, hunit, hq_even⟩ := exists_double_eq h heven hle
  have hne : n ≠ 0 := ne_zero_of_two_pow_le hle
  have hlog : (2 * n + 1).log2 = n.log2 + 1 := by
    have hlow := Nat.log2_self_le hne
    have hhigh := Nat.lt_log2_self (n := n)
    rw [Nat.log2_eq_iff (by omega), Nat.pow_succ, Nat.pow_succ]
    rw [Nat.pow_succ] at hhigh
    omega
  have hshift : n.log2 + 1 - 52 = n.log2 - 51 := by omega
  rw [rounded, hlog, hshift, hq, roundDiv_mul_add_one hunit hq_even]

/-- **One less than the double** of a number of 53 digits is rounded to the double. -/
theorem rounded_double_sub_one (hlt : 2 ^ 52 < n) : rounded (2 * n - 1) = 2 * n := by
  obtain ⟨q, hq_pos, hq, hunit, hq_even⟩ := exists_double_eq h heven hlt.le
  have hne : n ≠ 0 := by omega
  have hlog : 52 ≤ n.log2 := le_log2_of_two_pow_le hlt.le
  have hlow := Nat.log2_self_le hne
  have hhigh := Nat.lt_log2_self (n := n)
  rcases Nat.eq_or_lt_of_le hlow with hpower | habove
  · -- below a power of two there is one digit less, and the unit is halved
    have hlong : 53 ≤ n.log2 := by
      by_contra hshort
      rw [show n.log2 = 52 by omega] at hpower
      omega
    have hlog' : (2 * n - 1).log2 = n.log2 := by
      rw [Nat.log2_eq_iff (by omega), Nat.pow_succ]
      omega
    have hdouble : 2 * n = 2 ^ 53 * 2 ^ (n.log2 - 52) := by
      rw [← Nat.pow_add, show 53 + (n.log2 - 52) = n.log2 + 1 by omega, Nat.pow_succ]
      omega
    have hunit' : 2 ≤ 2 ^ (n.log2 - 52) := by
      calc 2 = 2 ^ 1 := rfl
        _ ≤ 2 ^ (n.log2 - 52) := Nat.pow_le_pow_right (by decide) (by omega)
    rw [rounded, hlog', hdouble,
      roundDiv_mul_sub_one (Nat.two_pow_pos 53) hunit' fun _ => by decide]
  · have hlog' : (2 * n - 1).log2 = n.log2 + 1 := by
      rw [Nat.log2_eq_iff (by omega), Nat.pow_succ, Nat.pow_succ]
      rw [Nat.pow_succ] at hhigh
      omega
    have hshift : n.log2 + 1 - 52 = n.log2 - 51 := by omega
    rw [rounded, hlog', hshift, hq, roundDiv_mul_sub_one hq_pos hunit hq_even]

end Double

end Reshape.Decimal
