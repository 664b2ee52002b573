/-
# Reshape.Proofs.Calendar.Days -- days by date and by number

Every day has one number and every number is that of one day: `number_ofNumber` for all numbers,
`ofNumber_number` for all dates that the calendar has. Both go through years that begin in March
(`marchDate`): there a day is a year and the days that have passed of it, at most 365 of them and so
many only before a leap day's end (`Fits`). The number counts the years before it by
`daysBefore`, and the year is read off the number of days in an era of 400 years
(`yearOfEra_of_fits`).
-/

import Mathlib.Tactic.IntervalCases
import Reshape.Calendar.Date

namespace Reshape.Calendar

theorem isLeap_iff {y : Int} : isLeap y = true ↔ y % 4 = 0 ∧ (y % 100 ≠ 0 ∨ y % 400 = 0) := by
  simp [isLeap]

/-- The days before a year within an era. -/
def daysBefore (y : Int) : Int :=
  365 * y + y / 4 - y / 100

/-- A year that begins in March has more than `k` days. It ends with the February of the next
one. -/
def Fits (y k : Int) : Prop :=
  0 ≤ k ∧ (k ≤ 364 ∨ k = 365 ∧ isLeap (y + 1) = true)

/-! ## Years of an era -/

section Era

variable {c q a k : Int} (hc : 0 ≤ c ∧ c < 4) (hq : 0 ≤ q ∧ q < 25) (ha : 0 ≤ a ∧ a < 4)

include hq ha

/-- A century has 36524 days, four years have 1461 and one year has 365. -/
theorem daysBefore_eq : daysBefore (100 * c + 4 * q + a) = 36524 * c + 1461 * q + 365 * a := by
  unfold daysBefore
  omega

include hc

/-- The last of four years is longer, but for the last of a century, but for the last of an era. -/
theorem fits_iff : Fits (100 * c + 4 * q + a) k ↔
    0 ≤ k ∧ (k ≤ 364 ∨ k = 365 ∧ a = 3 ∧ (q ≠ 24 ∨ c = 3)) := by
  unfold Fits
  rw [isLeap_iff]
  omega

/-- The last day of an era is the only one that completes a fourth century. -/
theorem centuries_eq {n : Int} (hk : Fits (100 * c + 4 * q + a) k)
    (hn : n = 36524 * c + (1461 * q + 365 * a + k)) : n / 36524 - n / 146096 = c := by
  rw [fits_iff hc hq ha] at hk
  have hpos : 0 ≤ 1461 * q + 365 * a + k := by omega
  have hlast : 1461 * q + 365 * a + k < 36524 ∨
      c = 3 ∧ 1461 * q + 365 * a + k = 36524 := by omega
  generalize 1461 * q + 365 * a + k = r at hn hpos hlast
  omega

end Era

/-- **The year of a day in an era** of 146097 days. -/
theorem yearOfEra_of_fits {y k n : Int} (hy : 0 ≤ y ∧ y < 400) (hk : Fits y k)
    (hn : n = daysBefore y + k) :
    0 ≤ n ∧ n < 146097 ∧ (n - n / 1460 + n / 36524 - n / 146096) / 365 = y := by
  obtain ⟨c, q, a, rfl, hc, hq, ha⟩ : ∃ c q a : Int, y = 100 * c + 4 * q + a ∧
      (0 ≤ c ∧ c < 4) ∧ (0 ≤ q ∧ q < 25) ∧ 0 ≤ a ∧ a < 4 :=
    ⟨y / 100, y % 100 / 4, y % 4, by omega, by omega, by omega, by omega⟩
  rw [daysBefore_eq hq ha] at hn
  have hcenturies := centuries_eq hc hq ha hk (n := n) (by omega)
  rw [fits_iff hc hq ha] at hk
  -- of the leap days so far, those of whole groups of four years are counted, and perhaps one more
  obtain ⟨j, hquads, hj⟩ : ∃ j, n / 1460 = 25 * c + q + j ∧
      (j = 0 ∧ 24 * c + q + 365 * a + k < 1460 ∨ j = 1 ∧ 1460 ≤ 24 * c + q + 365 * a + k) :=
    ⟨n / 1460 - (25 * c + q), by omega, by omega⟩
  have hdays : n - n / 1460 + n / 36524 - n / 146096 =
      365 * (100 * c + 4 * q + a) + (k - j) := by omega
  rw [hdays]
  exact ⟨by omega, by omega, by omega⟩

/-- Every day of an era lies in one of its years. -/
theorem exists_fits {n : Int} (hn : 0 ≤ n ∧ n < 146097) :
    ∃ y k, (0 ≤ y ∧ y < 400) ∧ Fits y k ∧ n = daysBefore y + k := by
  obtain ⟨c, r, hcr, hc, hr⟩ : ∃ c r : Int, n = 36524 * c + r ∧ (0 ≤ c ∧ c < 4) ∧
      0 ≤ r ∧ (r < 36524 ∨ c = 3 ∧ r = 36524) :=
    ⟨min (n / 36524) 3, n - 36524 * min (n / 36524) 3, by omega, by omega, by omega⟩
  obtain ⟨q, s, hqs, hq, hs⟩ : ∃ q s : Int, r = 1461 * q + s ∧ (0 ≤ q ∧ q < 25) ∧
      0 ≤ s ∧ s < 1461 :=
    ⟨r / 1461, r % 1461, by omega, by omega, by omega⟩
  obtain ⟨a, k, hak, ha, hk⟩ : ∃ a k : Int, s = 365 * a + k ∧ (0 ≤ a ∧ a < 4) ∧
      0 ≤ k ∧ (k < 365 ∨ a = 3 ∧ k = 365) :=
    ⟨min (s / 365) 3, s - 365 * min (s / 365) 3, by omega, by omega, by omega⟩
  refine ⟨100 * c + 4 * q + a, k, by omega, ?_, ?_⟩
  · rw [fits_iff hc hq ha]
    omega
  · rw [daysBefore_eq hq ha]
    omega

/-! ## Dates in years that begin in March -/

/-- The days before a month, counted from March. -/
def monthStart (m : Nat) : Nat :=
  (153 * m + 2) / 5

/-- The month of a day in its year. -/
theorem monthFromMarch_eq_iff {k m : Nat} :
    (5 * k + 2) / 153 = m ↔ monthStart m ≤ k ∧ k < monthStart (m + 1) := by
  unfold monthStart
  omega

/-- **The date after `k` days of a year** that begins in March. -/
def marchDate (year : Int) (k : Nat) : Date :=
  let m := (5 * k + 2) / 153
  let month := if m < 10 then m + 3 else m - 9
  ⟨if month ≤ 2 then year + 1 else year, month, k - monthStart m + 1⟩

/-- The number of the same day. -/
def marchNumber (year : Int) (k : Nat) : Int :=
  year / 400 * 146097 + (daysBefore (year % 400) + k) - 719468

theorem marchDate_of_late {year : Int} {k m : Nat} (hm : (5 * k + 2) / 153 = m) (hlate : m < 10) :
    marchDate year k = ⟨year, m + 3, k - monthStart m + 1⟩ := by
  have hmonth : ¬ m + 3 ≤ 2 := by omega
  simp only [marchDate, hm, if_pos hlate, if_neg hmonth]

theorem marchDate_of_early {year : Int} {k m : Nat} (hm : (5 * k + 2) / 153 = m) (hten : 10 ≤ m)
    (hm' : m ≤ 11) : marchDate year k = ⟨year + 1, m - 9, k - monthStart m + 1⟩ := by
  have hmonth : m - 9 ≤ 2 := by omega
  simp only [marchDate, hm, if_neg (Nat.not_lt.mpr hten), if_pos hmonth]

theorem number_marchDate {k : Nat} (hk : k ≤ 365) (year : Int) :
    (marchDate year k).number = marchNumber year k := by
  obtain ⟨m, hm⟩ : ∃ m, (5 * k + 2) / 153 = m := ⟨_, rfl⟩
  rcases Nat.lt_or_ge m 10 with hlate | hten
  · have hmonth : ¬ m + 3 ≤ 2 := by omega
    rw [marchDate_of_late hm hlate]
    simp only [Date.number, marchNumber, daysBefore, monthStart, if_neg hmonth,
      Nat.add_sub_cancel]
    omega
  · have hmonth : m - 9 ≤ 2 := by omega
    rw [marchDate_of_early hm hten (by omega)]
    simp only [Date.number, marchNumber, daysBefore, monthStart, if_pos hmonth,
      Int.add_sub_cancel]
    omega

theorem ofNumber_marchNumber {year : Int} {k : Nat} (hk : Fits (year % 400) k) :
    Date.ofNumber (marchNumber year k) = marchDate year k := by
  obtain ⟨n, hn⟩ : ∃ n, n = daysBefore (year % 400) + k := ⟨_, rfl⟩
  obtain ⟨hpos, hlt, hyear⟩ := yearOfEra_of_fits (by omega) hk hn
  have hmod : (marchNumber year k + 719468) % 146097 = n := by
    unfold marchNumber
    omega
  have hdiv : (marchNumber year k + 719468) / 146097 = year / 400 := by
    unfold marchNumber
    omega
  have hday : (n - (365 * (year % 400) + year % 400 / 4 - year % 400 / 100)).toNat = k := by
    unfold daysBefore at hn
    omega
  have hera : year % 400 + year / 400 * 400 = year := by omega
  simp only [Date.ofNumber, marchDate, monthStart, hmod, hdiv, hyear, hday, hera]

/-! ## Dates -/

/-- **A date of some year**: a month, and a day that the month has. -/
structure Date.IsDay (d : Date) : Prop where
  month_pos : 1 ≤ d.month
  month_le : d.month ≤ 12
  day_pos : 1 ≤ d.day
  day_le : d.day ≤ daysIn d.year d.month

theorem Date.valid_iff {d : Date} :
    d.valid = true ↔ (firstYear ≤ d.year ∧ d.year ≤ lastYear) ∧ d.IsDay := by
  simp only [Date.valid, Bool.and_eq_true, decide_eq_true_eq]
  constructor
  · rintro ⟨⟨⟨⟨⟨h₁, h₂⟩, h₃⟩, h₄⟩, h₅⟩, h₆⟩
    exact ⟨⟨h₁, h₂⟩, h₃, h₄, h₅, h₆⟩
  · rintro ⟨⟨h₁, h₂⟩, h₃, h₄, h₅, h₆⟩
    exact ⟨⟨⟨⟨⟨h₁, h₂⟩, h₃⟩, h₄⟩, h₅⟩, h₆⟩

theorem daysIn_le (year : Int) (month : Nat) : daysIn year month ≤ 31 := by
  unfold daysIn
  split_ifs <;> omega

theorem le_daysIn (year : Int) (month : Nat) : 28 ≤ daysIn year month := by
  unfold daysIn
  split_ifs <;> omega

/-- The length of a month other than January and February. -/
theorem daysIn_late {year : Int} {m : Nat} (hlate : m < 10) :
    daysIn year (m + 3) = monthStart (m + 1) - monthStart m := by
  interval_cases m <;> rfl

theorem daysIn_january {year : Int} : daysIn year 1 = monthStart 11 - monthStart 10 := rfl

theorem daysIn_february {year : Int} :
    daysIn year 2 = (if isLeap year then 366 else 365) - monthStart 11 := by
  cases h : isLeap year <;> simp [daysIn, h, monthStart]

theorem isDay_marchDate {year : Int} {k : Nat} (hk : Fits year k) : (marchDate year k).IsDay := by
  obtain ⟨m, hm⟩ : ∃ m, (5 * k + 2) / 153 = m := ⟨_, rfl⟩
  obtain ⟨hstart, hend⟩ := monthFromMarch_eq_iff.mp hm
  obtain ⟨-, hk⟩ := hk
  have hmonth : m ≤ 11 := by omega
  rcases Nat.lt_or_ge m 10 with hlate | hten
  · rw [marchDate_of_late hm hlate]
    have hlength : daysIn year (m + 3) = monthStart (m + 1) - monthStart m := daysIn_late hlate
    exact ⟨by simp, by simp; omega, by simp, by simp [hlength]; omega⟩
  · rw [marchDate_of_early hm hten hmonth]
    obtain rfl | rfl : m = 10 ∨ m = 11 := by omega
    · refine ⟨by simp, by simp, by simp, ?_⟩
      have hend : k < monthStart 11 := hend
      simp only [Nat.reduceSub, daysIn_january]
      omega
    · refine ⟨by simp, by simp, by simp, ?_⟩
      -- the leap day is the last day of the year
      simp only [Nat.reduceSub, daysIn_february]
      split_ifs <;> simp_all <;> omega

/-- The days of the months before a day, and those of its own month. -/
theorem monthFromMarch_add {m day : Nat} (hday : 1 ≤ day)
    (hlength : day ≤ monthStart (m + 1) - monthStart m) :
    (5 * (monthStart m + (day - 1)) + 2) / 153 = m ∧
      monthStart m + (day - 1) - monthStart m + 1 = day := by
  rw [monthFromMarch_eq_iff]
  omega

/-- Every date is a day of a year that begins in March. -/
theorem exists_marchDate {d : Date} (h : d.IsDay) :
    ∃ year k, Fits year (k : Nat) ∧ d = marchDate year k := by
  obtain ⟨year, month, day⟩ := d
  obtain ⟨hpos, hle, hday, hlength⟩ := h
  simp only at hpos hle hday hlength
  rcases Nat.lt_or_ge month 3 with hearly | hlate
  · obtain rfl | rfl : month = 1 ∨ month = 2 := by omega
    · rw [daysIn_january] at hlength
      obtain ⟨hmonth, hk⟩ := monthFromMarch_add (m := 10) hday hlength
      refine ⟨year - 1, monthStart 10 + (day - 1), ?_, ?_⟩
      · have hjanuary : monthStart 10 = 306 ∧ monthStart 11 = 337 := ⟨rfl, rfl⟩
        exact ⟨by omega, .inl (by omega)⟩
      · rw [marchDate_of_early hmonth (by decide) (by decide), hk, Int.sub_add_cancel]
    · rw [daysIn_february] at hlength
      have hfebruary : monthStart 11 = 337 ∧ monthStart 12 = 367 := ⟨rfl, rfl⟩
      obtain ⟨hmonth, hk⟩ := monthFromMarch_add (m := 11) hday
        (by split_ifs at hlength <;> simp only [Nat.reduceAdd] <;> omega)
      refine ⟨year - 1, monthStart 11 + (day - 1), ⟨by omega, ?_⟩, ?_⟩
      · rw [Int.sub_add_cancel]
        split_ifs at hlength with hleap
        · by_cases hlast : day = 29
          · exact .inr ⟨by omega, hleap⟩
          · exact .inl (by omega)
        · exact .inl (by omega)
      · rw [marchDate_of_early hmonth (by decide) (by decide), hk, Int.sub_add_cancel]
  · obtain ⟨m, rfl⟩ : ∃ m, month = m + 3 := ⟨month - 3, by omega⟩
    have hm : m < 10 := by omega
    rw [daysIn_late hm] at hlength
    obtain ⟨hmonth, hk⟩ := monthFromMarch_add hday hlength
    refine ⟨year, monthStart m + (day - 1), ⟨by omega, .inl ?_⟩, ?_⟩
    · unfold monthStart at hlength ⊢
      omega
    · rw [marchDate_of_late hmonth hm, hk]

/-- The leap years come again after 400 years. -/
theorem fits_emod {year k : Int} : Fits (year % 400) k ↔ Fits year k := by
  unfold Fits
  rw [isLeap_iff, isLeap_iff]
  omega

/-- Every number is that of a day. -/
theorem exists_marchNumber (n : Int) :
    ∃ year k, Fits year (k : Nat) ∧ n = marchNumber year k := by
  obtain ⟨y, k, hy, hk, hn⟩ := exists_fits (n := (n + 719468) % 146097) (by omega)
  have hyear : (y + (n + 719468) / 146097 * 400) % 400 = y := by omega
  have hk' : ((k.toNat : Nat) : Int) = k := Int.toNat_of_nonneg hk.1
  refine ⟨y + (n + 719468) / 146097 * 400, k.toNat, ?_, ?_⟩
  · rw [← fits_emod, hyear, hk']
    exact hk
  · rw [marchNumber, hyear, hk']
    omega

/-- **The date of a number has that number.** -/
theorem Date.number_ofNumber (n : Int) : (Date.ofNumber n).number = n := by
  obtain ⟨year, k, hk, rfl⟩ := exists_marchNumber n
  rw [ofNumber_marchNumber (fits_emod.mpr hk), number_marchDate]
  obtain ⟨-, hk⟩ := hk
  omega

/-- **The number of a date leads back to the date.** -/
theorem Date.ofNumber_number {d : Date} (h : d.IsDay) : Date.ofNumber d.number = d := by
  obtain ⟨year, k, hk, rfl⟩ := exists_marchDate h
  rw [number_marchDate, ofNumber_marchNumber (fits_emod.mpr hk)]
  obtain ⟨-, hk⟩ := hk
  omega

/-- **Every number is that of a date.** -/
theorem Date.isDay_ofNumber (n : Int) : (Date.ofNumber n).IsDay := by
  obtain ⟨year, k, hk, rfl⟩ := exists_marchNumber n
  rw [ofNumber_marchNumber (fits_emod.mpr hk)]
  exact isDay_marchDate hk

/-- **The calendar has the days of its dates.** -/
theorem Date.number_bounds {d : Date} (h : d.valid = true) :
    firstDay ≤ d.number ∧ d.number ≤ lastDay := by
  have hfirst : firstDay = -96465292 := by decide
  have hlast : lastDay = 95026236 := by decide
  obtain ⟨⟨hlow, hhigh⟩, hday⟩ := Date.valid_iff.mp h
  have hpos := hday.month_pos
  have hle := hday.month_le
  have hday_pos := hday.day_pos
  have hday_le := hday.day_le.trans (daysIn_le _ _)
  rw [hfirst, hlast]
  unfold firstYear at hlow
  unfold lastYear at hhigh
  unfold Date.number
  split_ifs
  · simp only
    omega
  · simp only
    omega

end Reshape.Calendar
