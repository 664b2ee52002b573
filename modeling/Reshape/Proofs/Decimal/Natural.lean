/-
# Reshape.Proofs.Decimal.Natural -- natural numbers as text

`natText` writes the digits of a number and nothing else, and `unsigned?` reads them back, as long
as the number fits into 64 bits. Other digits can be read as the same number: digits are those that
the number is written with exactly when they do not start with a zero before another digit
(`toDigits_natOfDigits_iff`).
-/

import Mathlib.Algebra.Order.Ring.Nat
import Mathlib.Data.List.Induction
import Reshape.Decimal.Notation
import Reshape.Decimal.Reader

namespace Reshape.Decimal

/-- The value of a digit has the digit as its character. -/
theorem digitChar_digitValue {c : Char} (h : c.isDigit = true) : digitChar (digitValue c) = c := by
  rw [Char.isDigit_iff_toNat] at h
  rw [digitChar, digitValue, Nat.add_sub_cancel' h.1, Char.ofNat_toNat]

theorem isDigit_of_mem_toDigits {n : Nat} {c : Char} (h : c ∈ Nat.toDigits 10 n) :
    c.isDigit = true :=
  Nat.isDigit_of_mem_toDigits (by decide) (by decide) h

/-- The text of a number is its digits. -/
theorem toList_natText (n : Nat) : (natText n).toList = Nat.toDigits 10 n := by
  rw [natText, digitText, String.toList_ofList, digitsOf, List.map_map]
  refine (List.map_congr_left fun c hc => ?_).trans (List.map_id _)
  exact digitChar_digitValue (isDigit_of_mem_toDigits hc)

theorem natOfDigits_toDigits (n : Nat) : natOfDigits (Nat.toDigits 10 n) = n :=
  Nat.ofDigitChars_eq_foldl.symm.trans Nat.ofDigitChars_ten_toDigits

/-- **What the text of a number is read as**: the number, if it fits into 64 bits. -/
theorem unsigned?_natText_eq (n : Nat) :
    unsigned? (natText n).toList = if n ≤ maxUnsigned then some n else none := by
  have hvalue := natOfDigits_toDigits n
  have hdigits : (Nat.toDigits 10 n).all isDigit = true :=
    List.all_eq_true.mpr fun c hc => isDigit_of_mem_toDigits hc
  rw [toList_natText]
  cases hds : Nat.toDigits 10 n with
  | nil => exact absurd hds Nat.toDigits_ne_nil
  | cons d ds =>
    rw [hds] at hvalue hdigits
    -- the first digit is no plus sign, so nothing is dropped
    have hplus : d ≠ '+' := by
      rintro rfl
      cases hdigits
    unfold unsigned?
    split
    case h_1 heq => exact absurd (List.cons.inj heq).1 hplus
    case h_2 => simp [hdigits, hvalue]

/-- **The text of a number is read back.** -/
theorem unsigned?_natText {n : Nat} (h : n ≤ maxUnsigned) :
    unsigned? (natText n).toList = some n := by
  rw [unsigned?_natText_eq, if_pos h]

/-- Only what fits into 64 bits is read. -/
theorem le_of_unsigned? {cs : List Char} {n : Nat} (h : unsigned? cs = some n) :
    n ≤ maxUnsigned := by
  simp only [unsigned?, Option.ite_none_left_eq_some, Option.ite_none_right_eq_some] at h
  obtain ⟨-, hn, h⟩ := h
  exact Option.some.inj h ▸ hn

/-- A number whose text can be read fits into 64 bits. -/
theorem le_of_unsigned?_natText {n m : Nat} (h : unsigned? (natText n).toList = some m) :
    n ≤ maxUnsigned := by
  rw [unsigned?_natText_eq] at h
  split at h
  case isTrue hn => exact hn
  case isFalse => cases h

/-! ## Digits that a number is written with -/

theorem natOfDigits_concat (ds : List Char) (d : Char) :
    natOfDigits (ds ++ [d]) = 10 * natOfDigits ds + digitValue d := by
  unfold natOfDigits
  rw [List.foldl_append]
  rfl

/-- The characters of a number that is read: an optional plus sign, and digits. -/
theorem unsigned?_eq_some_iff {cs : List Char} {n : Nat} :
    unsigned? cs = some n ↔
      ∃ ds, (cs = ds ∨ cs = '+' :: ds) ∧ ds ≠ [] ∧ (∀ c ∈ ds, c.isDigit = true) ∧
        natOfDigits ds = n ∧ n ≤ maxUnsigned := by
  have hread : ∀ ds : List Char, (if ds.isEmpty || !ds.all isDigit then none
      else if natOfDigits ds ≤ maxUnsigned then some (natOfDigits ds) else none) = some n ↔
        ds ≠ [] ∧ (∀ c ∈ ds, c.isDigit = true) ∧ natOfDigits ds = n ∧ n ≤ maxUnsigned := by
    intro ds
    have hall : ds.all isDigit = true ↔ ∀ c ∈ ds, c.isDigit = true := List.all_eq_true
    rw [← hall]
    simp only [Option.ite_none_left_eq_some, Option.ite_none_right_eq_some, Option.some.injEq]
    constructor
    · rintro ⟨hds, hn, rfl⟩
      simp only [Bool.or_eq_true, List.isEmpty_iff, not_or, Bool.not_eq_true] at hds
      exact ⟨hds.1, by simpa using hds.2, rfl, hn⟩
    · rintro ⟨hne, hdigits, rfl, hn⟩
      exact ⟨by simp [hne, hdigits], hn, rfl⟩
  unfold unsigned?
  split
  case h_1 ds =>
    rw [hread]
    constructor
    · exact fun h => ⟨ds, .inr rfl, h⟩
    · rintro ⟨es, rfl | hes, h⟩
      · exact absurd (h.2.1 '+' List.mem_cons_self) (by decide)
      · rwa [(List.cons.inj hes).2]
  case h_2 hplus =>
    rw [hread]
    constructor
    · exact fun h => ⟨cs, .inl rfl, h⟩
    · rintro ⟨es, rfl | hes, h⟩
      · exact h
      · exact absurd hes (hplus es)

theorem digitValue_lt {c : Char} (h : c.isDigit = true) : digitValue c < 10 := by
  rw [Char.isDigit_iff_toNat] at h
  unfold digitValue
  have hzero : '0'.toNat = 48 := rfl
  have hnine : '9'.toNat = 57 := rfl
  omega

/-- Digits denote a number of as many digits. -/
theorem natOfDigits_lt {ds : List Char} (h : ∀ c ∈ ds, c.isDigit = true) :
    natOfDigits ds < 10 ^ ds.length := by
  induction ds using List.reverseRecOn with
  | nil => decide
  | append_singleton ds d ih =>
    have hds := ih fun c hc => h c (List.mem_append_left [d] hc)
    have hd := digitValue_lt (h d (by simp))
    rw [natOfDigits_concat, List.length_append, List.length_singleton, Nat.pow_succ]
    omega

theorem toDigits_digitValue {c : Char} (h : c.isDigit = true) :
    Nat.toDigits 10 (digitValue c) = [c] := by
  rw [Nat.toDigits_of_lt_base (digitValue_lt h)]
  have hchar := Nat.toNat_digitChar_of_lt_ten (digitValue_lt h)
  rw [Char.isDigit_iff_toNat] at h
  congr 1
  apply Char.toNat_inj.mp
  unfold digitValue at hchar ⊢
  have hzero : '0'.toNat = 48 := rfl
  omega

/-- **Digits that do not start with a zero** are those that their number is written with. -/
theorem toDigits_natOfDigits {d : Char} {ds : List Char} (hd : d ≠ '0')
    (hdigits : ∀ c ∈ d :: ds, c.isDigit = true) :
    0 < natOfDigits (d :: ds) ∧ Nat.toDigits 10 (natOfDigits (d :: ds)) = d :: ds := by
  induction ds using List.reverseRecOn with
  | nil =>
    have hdigit := hdigits d List.mem_cons_self
    have hvalue : natOfDigits [d] = digitValue d := by simp [natOfDigits]
    rw [hvalue]
    refine ⟨Nat.pos_of_ne_zero fun hzero => hd ?_, toDigits_digitValue hdigit⟩
    have hchar := digitChar_digitValue hdigit
    rw [hzero] at hchar
    exact hchar.symm
  | append_singleton ds e ih =>
    rw [← List.cons_append] at hdigits ⊢
    obtain ⟨hpos, heq⟩ := ih fun c hc => hdigits c (List.mem_append_left [e] hc)
    have he : e.isDigit = true := hdigits e (by simp)
    rw [natOfDigits_concat]
    refine ⟨by omega, ?_⟩
    rw [← Nat.toDigits_append_toDigits (by decide) hpos (digitValue_lt he), heq,
      toDigits_digitValue he]

/-- A number other than zero is written without a zero in front. -/
theorem head?_toDigits {n : Nat} (h : n ≠ 0) : (Nat.toDigits 10 n).head? ≠ some '0' := by
  induction n using Nat.strongRecOn with
  | ind n ih =>
    rcases Nat.lt_or_ge n 10 with hlt | hge
    · rw [Nat.toDigits_of_lt_base hlt]
      simpa using h
    · have hrest := ih (n / 10) (by omega) (by omega)
      rw [Nat.toDigits_of_base_le (by decide) hge, List.head?_append]
      cases hdigits : Nat.toDigits 10 (n / 10) with
      | nil => exact absurd hdigits Nat.toDigits_ne_nil
      | cons d ds =>
        rw [hdigits] at hrest
        exact hrest

/-- **Digits are those that their number is written with** unless they start with a zero before
another digit. -/
theorem toDigits_natOfDigits_iff {ds : List Char} (hne : ds ≠ [])
    (hdigits : ∀ c ∈ ds, c.isDigit = true) :
    Nat.toDigits 10 (natOfDigits ds) = ds ↔ ∀ d, d.isDigit = true → ¬ ['0', d] <+: ds := by
  constructor
  · rintro heq d - ⟨rest, rfl⟩
    by_cases hzero : natOfDigits (['0', d] ++ rest) = 0
    · rw [hzero, Nat.toDigits_zero] at heq
      cases heq
    · have hhead := head?_toDigits hzero
      rw [heq] at hhead
      exact hhead rfl
  · intro hpair
    match ds, hne with
    | [d], _ =>
      have hvalue : natOfDigits [d] = digitValue d := by simp [natOfDigits]
      rw [hvalue, toDigits_digitValue (hdigits d List.mem_cons_self)]
    | d :: e :: rest, _ =>
      have hd : d ≠ '0' := by
        rintro rfl
        exact hpair e (hdigits e (by simp)) ⟨rest, rfl⟩
      exact (toDigits_natOfDigits hd hdigits).2

end Reshape.Decimal
