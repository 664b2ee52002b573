/-
# Reshape.Proofs.Calendar.Scanning -- numbers and names of dates are read back

A number that is written with a fixed width is read back by a scanner that takes as many digits,
whatever follows it (`scanNumber_padded`): the scanner stops by itself, so the parts of a date need
no divider for their sake. The same for a year of four digits, a number within its range, the name
of a month, and three digits of a fraction.
-/

import Mathlib.Tactic.IntervalCases
import Reshape.Proofs.Decimal.Natural
import Reshape.Proofs.Except
import Reshape.Proofs.Text.Size
import Reshape.Calendar.Standard

namespace Reshape.Calendar

open Decimal (isDigit natOfDigits)

/-! ## Numbers of a fixed width -/

theorem toList_padded (width n : Nat) :
    (padded width n).toList =
      List.replicate (width - (Nat.toDigits 10 n).length) '0' ++ Nat.toDigits 10 n := by
  have hlength : (Decimal.digitsOf n).length = (Nat.toDigits 10 n).length := List.length_map _
  have hdigits : (Decimal.digitsOf n).map Decimal.digitChar = Nat.toDigits 10 n := by
    rw [← Decimal.toList_natText, Decimal.natText, Decimal.digitText, String.toList_ofList]
  rw [padded, Decimal.digitText, String.toList_ofList, List.map_append, List.map_replicate,
    hdigits, hlength]
  rfl

theorem isDigit_of_mem_padded {width n : Nat} {c : Char} (h : c ∈ (padded width n).toList) :
    isDigit c = true := by
  rw [toList_padded, List.mem_append, List.mem_replicate] at h
  rcases h with ⟨-, rfl⟩ | h
  · rfl
  · exact Decimal.isDigit_of_mem_toDigits h

theorem length_padded {width n : Nat} (hpos : 0 < width) (h : n < 10 ^ width) :
    (padded width n).toList.length = width := by
  have hle := (Nat.length_toDigits_le_iff (b := 10) (by decide) hpos).mpr h
  rw [toList_padded, List.length_append, List.length_replicate, Nat.sub_add_cancel hle]

theorem natOfDigits_padded (width n : Nat) : natOfDigits (padded width n).toList = n := by
  have hzeros : ∀ k, natOfDigits (List.replicate k '0' ++ Nat.toDigits 10 n) = n := by
    intro k
    induction k with
    | zero => exact Decimal.natOfDigits_toDigits n
    | succ k ih => rwa [List.replicate_succ, List.cons_append]
  rw [toList_padded, hzeros]

/-- A written number begins with a digit. -/
theorem exists_padded_eq_cons (width n : Nat) :
    ∃ d ds, (padded width n).toList = d :: ds ∧ isDigit d = true := by
  have hne : (padded width n).toList ≠ [] := by
    rw [toList_padded]
    exact List.append_ne_nil_of_right_ne_nil _ Nat.toDigits_ne_nil
  obtain ⟨d, ds, heq⟩ := List.exists_cons_of_ne_nil hne
  exact ⟨d, ds, heq, isDigit_of_mem_padded (heq ▸ List.mem_cons_self)⟩

/-- A written number ends where something else than a digit follows. -/
theorem takeWhile_padded (width n : Nat) {c : Char} (hc : isDigit c = false) (rest : List Char) :
    ((padded width n).toList ++ c :: rest).takeWhile isDigit = (padded width n).toList := by
  rw [List.takeWhile_append_of_pos fun c => isDigit_of_mem_padded,
    List.takeWhile_cons_of_neg (by simp [hc]), List.append_nil]

/-! ## Blanks and digits -/

theorem isBlank_of_isDigit {c : Char} (h : isDigit c = true) : Text.isBlank c = false := by
  have hrange : 48 ≤ c.toNat ∧ c.toNat ≤ 57 := Char.isDigit_iff_toNat.mp h
  simp only [Text.isBlank, Text.inRanges, List.any_cons, List.any_nil, Bool.or_false,
    Bool.or_eq_false_iff, Bool.and_eq_false_iff, decide_eq_false_iff_not]
  omega

theorem trimStart_cons {c : Char} (h : Text.isBlank c = false) (cs : List Char) :
    Text.trimStart (c :: cs) = c :: cs :=
  List.dropWhile_cons_of_neg (by simp [h])

theorem trimStart_padded (width n : Nat) (rest : List Char) :
    Text.trimStart ((padded width n).toList ++ rest) = (padded width n).toList ++ rest := by
  obtain ⟨d, ds, heq, hd⟩ := exists_padded_eq_cons width n
  rw [heq, List.cons_append, trimStart_cons (isBlank_of_isDigit hd)]

/-! ## Scanners -/

/-- A scanner takes the digits before it, if it may take as many, up to the most it may take or up
to what is no digit. -/
theorem scanNumber_append {least most : Nat} {ds rest : List Char}
    (hdigits : ∀ c ∈ ds, isDigit c = true) (hpos : 0 < most) (hleast : least ≤ ds.length)
    (hmost : ds.length ≤ most) (hend : ds.length = most ∨ rest.takeWhile isDigit = []) :
    scanNumber least most (ds ++ rest) = .ok (natOfDigits ds, rest) := by
  have htake : ((ds ++ rest).takeWhile isDigit).take most = ds := by
    rw [List.takeWhile_append_of_pos hdigits]
    rcases hend with hlength | hrest
    · exact List.take_left' hlength
    · rw [hrest, List.append_nil, List.take_of_length_le hmost]
  have hsize := Text.length_le_byteLength (ds ++ rest)
  rw [List.length_append] at hsize
  unfold scanNumber
  simp only [if_neg (Nat.ne_of_gt hpos), htake, List.drop_left]
  rw [if_neg (by omega), if_neg (by omega)]

/-- **A number of a fixed width is read back.** -/
theorem scanNumber_padded {least most width n : Nat} (hpos : 0 < width) (hleast : least ≤ width)
    (hmost : width ≤ most) (h : n < 10 ^ width) {rest : List Char}
    (hend : width = most ∨ rest.takeWhile isDigit = []) :
    scanNumber least most ((padded width n).toList ++ rest) = .ok (n, rest) := by
  have hlength := length_padded hpos h
  rw [scanNumber_append (fun c => isDigit_of_mem_padded) (by omega) (by omega) (by omega)
    (by rwa [hlength]), natOfDigits_padded]

/-- A scanner of digits refuses a text that begins with too few of them. -/
theorem exists_scanNumber_eq_error {least : Nat} {cs : List Char}
    (h : (cs.takeWhile isDigit).length < least) (most : Nat) :
    ∃ e, scanNumber least most cs = .error e := by
  have hfew : (if most = 0 then cs.takeWhile isDigit
      else (cs.takeWhile isDigit).take most).length < least := by
    split_ifs
    · exact h
    · exact (List.length_take_le' _ _).trans_lt h
  unfold scanNumber
  simp only [if_pos hfew]
  split_ifs
  · exact ⟨_, rfl⟩
  · exact ⟨_, rfl⟩

theorem scanChar_cons (c : Char) (cs : List Char) : scanChar c (c :: cs) = .ok ((), cs) :=
  if_pos rfl

theorem scanExact_padded {width low high n : Nat} (hpos : 0 < width) (h : n < 10 ^ width)
    (hlow : low ≤ n) (hhigh : n ≤ high) (rest : List Char) :
    scanExact width low high ((padded width n).toList ++ rest) = .ok (n, rest) := by
  rw [scanExact, scanNumber_padded hpos (Nat.le_refl width) (Nat.le_refl width) h (.inl rfl),
    ok_bind]
  dsimp only
  rw [inRange, if_pos ⟨hlow, hhigh⟩]
  rfl

theorem scanShort_padded {low high n : Nat} (h : n < 100) (rest : List Char) :
    Item.scanShort low high ((padded 2 n).toList ++ rest) =
      (inRange low high n).map fun n => (n, rest) := by
  rw [Item.scanShort, trimStart_padded,
    scanNumber_padded (by decide) (by decide) (by decide) h (.inl rfl), ok_bind]
  dsimp only
  cases inRange low high n <;> rfl

/-- A digit is no sign, so a year that begins with one has four digits at most. -/
theorem scanYear_of_isDigit {d : Char} (hd : isDigit d = true) (cs : List Char) :
    Item.scanYear (d :: cs) =
      (scanNumber 1 4 (d :: cs)).map fun (n, rest) => ((n : Int), rest) := by
  rw [Item.scanYear, trimStart_cons (isBlank_of_isDigit hd)]
  split
  case h_1 hsign =>
    rw [(List.cons.inj hsign).1] at hd
    cases hd
  case h_2 hsign =>
    rw [(List.cons.inj hsign).1] at hd
    cases hd
  case h_3 => cases scanNumber 1 4 (d :: cs) <;> rfl

theorem scanShort_padded_of_le {low high n : Nat} (h : n < 100) (hlow : low ≤ n) (hhigh : n ≤ high)
    (rest : List Char) :
    Item.scanShort low high ((padded 2 n).toList ++ rest) = .ok (n, rest) := by
  rw [scanShort_padded h, inRange, if_pos ⟨hlow, hhigh⟩]
  rfl

theorem scanYear_padded {width n : Nat} (hpos : 0 < width) (hle : width ≤ 4) (h : n < 10 ^ width)
    {rest : List Char} (hend : width = 4 ∨ rest.takeWhile isDigit = []) :
    Item.scanYear ((padded width n).toList ++ rest) = .ok ((n : Int), rest) := by
  have hscan := scanNumber_padded hpos hpos hle h hend
  obtain ⟨d, ds, heq, hd⟩ := exists_padded_eq_cons width n
  rw [heq, List.cons_append] at hscan ⊢
  rw [scanYear_of_isDigit hd, hscan]
  rfl

theorem yearText_of_le {y : Int} (h : 0 ≤ y) (h' : y ≤ 9999) : yearText y = padded 4 y.toNat :=
  if_pos ⟨h, h'⟩

theorem scanYear_yearText {y : Int} (h : 0 ≤ y) (h' : y ≤ 9999) (rest : List Char) :
    Item.scanYear ((yearText y).toList ++ rest) = .ok (y, rest) := by
  rw [yearText_of_le h h', scanYear_padded (by decide) (by decide) (by omega) (.inl rfl),
    Int.toNat_of_nonneg h]

theorem scanNumber_yearText {y : Int} (h : 0 ≤ y ∧ y ≤ 9999) (rest : List Char) :
    scanNumber 4 4 ((yearText y).toList ++ rest) = .ok (y.toNat, rest) := by
  rw [yearText_of_le h.1 h.2]
  exact scanNumber_padded (by decide) (by decide) (by decide) (by omega) (.inl rfl)

/-- **The name of a month is read back.** -/
theorem scanName_monthNameText {m : Nat} (h : 1 ≤ m) (h' : m ≤ 12) (rest : List Char) :
    scanName monthNames ((monthNameText m).toList ++ rest) = .ok (m - 1, rest) := by
  have hsize : ∀ c d e : Char, ¬ Text.byteLength (c :: d :: e :: rest) < 3 := by
    intro c d e
    have hle := Text.length_le_byteLength (c :: d :: e :: rest)
    simp only [List.length_cons] at hle
    omega
  unfold scanName
  interval_cases m <;> exact if_neg (hsize _ _ _)

/-- Three digits of a fraction are milliseconds. -/
theorem scanFraction_padded {n : Nat} (h : n < 1000) {c : Char} (hc : isDigit c = false)
    (rest : List Char) :
    scanFraction ((padded 3 n).toList ++ c :: rest) = .ok (n * 1000000, c :: rest) := by
  have hlength : (padded 3 n).toList.length = 3 := length_padded (by decide) h
  have hnonempty : (padded 3 n).toList.isEmpty = false := by
    obtain ⟨d, ds, heq, -⟩ := exists_padded_eq_cons 3 n
    rw [heq]
    rfl
  have hkept : (padded 3 n).toList.take 9 = (padded 3 n).toList :=
    List.take_of_length_le (by omega)
  have hempty : ((padded 3 n).toList ++ c :: rest).isEmpty = false := by simp
  unfold scanFraction
  simp only [takeWhile_padded 3 n hc, hkept, hempty, hnonempty, natOfDigits_padded, List.drop_left]
  rw [hlength]
  rfl

end Reshape.Calendar
