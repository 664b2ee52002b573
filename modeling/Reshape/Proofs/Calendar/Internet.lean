/-
# Reshape.Proofs.Calendar.Internet -- the internet form is read back

An instant that a clock can show (`Instant.OnClock`) is written in the internet form with
milliseconds and read back without what is smaller (`internet_isoText`), the second of a leap second
included, which is written as 60.
-/

import Reshape.Proofs.Calendar.Clock
import Reshape.Proofs.Calendar.Layout

namespace Reshape.Calendar

/-! ## The fields of an instant -/

namespace Instant

/-- The instant without what is smaller than a millisecond. -/
def toMillis (i : Instant) : Instant :=
  { i with nano := i.nano - i.nano % 1000000 }

/-- The fields of the internet form of an instant. -/
def fields (i : Instant) : Fields where
  year := some i.date.year
  month := some i.date.month
  day := some i.date.day
  hour := some i.hour
  minute := some i.minute
  second := some i.clockSecond
  nano := some (i.fraction / 1000000 * 1000000)
  offset := some 0

theorem millis_lt (i : Instant) : i.fraction / 1000000 < 1000 := by
  have hlt : i.fraction < 1000000000 := Nat.mod_lt _ (by decide)
  omega

theorem valid_date {i : Instant} (hyear : 0 ≤ i.date.year ∧ i.date.year ≤ 9999) :
    i.date.valid = true := by
  rw [Date.valid_iff]
  refine ⟨?_, i.isDay_date⟩
  unfold firstYear lastYear
  omega

variable {i : Instant}

theorem inCalendar_toMillis (hvalid : i.date.valid = true) : i.toMillis.inCalendar = true := by
  have hbounds := Date.number_bounds hvalid
  rw [date, Date.number_ofNumber] at hbounds
  show (decide (firstDay ≤ i.day) && decide (i.day ≤ lastDay)) = true
  rw [Bool.and_eq_true, decide_eq_true_eq, decide_eq_true_eq]
  exact hbounds

variable (h : i.OnClock)
include h

theorem OnClock.time_fields : i.fields.time = .ok (i.second, i.toMillis.nano) := by
  have hclock := i.clock_eq
  have hnano : i.nano < 2000000000 := h.nano_lt
  have hcases := h.clockSecond_cases
  show (if i.clockSecond = 60
      then .ok (i.hour * 3600 + i.minute * 60 + 59,
        i.nano % 1000000000 / 1000000 * 1000000 + 1000000000)
      else .ok (i.hour * 3600 + i.minute * 60 + i.clockSecond,
        i.nano % 1000000000 / 1000000 * 1000000)) =
    Except.ok (i.second, i.nano - i.nano % 1000000)
  unfold nanosPerSecond at hcases
  split_ifs
  · rw [Except.ok.injEq, Prod.mk.injEq]
    omega
  · rw [Except.ok.injEq, Prod.mk.injEq]
    omega

/-- The fields give the instant. -/
theorem OnClock.instant_fields (hvalid : i.date.valid = true) :
    i.fields.instant = .ok i.toMillis := by
  have hdate : i.fields.date = .ok i.date := by
    show (if !i.date.valid then Except.error Flaw.outOfRange else .ok i.date) = _
    rw [hvalid]
    rfl
  have hlocal : i.fields.localTime = .ok i.toMillis := by
    rw [Fields.localTime, hdate, ok_bind, h.time_fields, ok_bind, date, Date.number_ofNumber]
    rfl
  have hsecond : i.second < 86400 := h.second_lt
  have hmoved : (⟨i.day + ((i.second : Int) - 0) / 86400, (((i.second : Int) - 0) % 86400).toNat,
      i.toMillis.nano⟩ : Instant) = i.toMillis := by
    rw [toMillis]
    congr 1 <;> omega
  show (i.fields.localTime >>= fun j =>
    if !Fields.offsetValid 0 then .error .outOfRange
    else
      let moved : Instant :=
        ⟨j.day + ((j.second : Int) - 0) / 86400, (((j.second : Int) - 0) % 86400).toNat, j.nano⟩
      if moved.inCalendar then .ok moved else .error .impossible) = _
  rw [hlocal, ok_bind]
  show (if (⟨i.day + ((i.second : Int) - 0) / 86400, (((i.second : Int) - 0) % 86400).toNat,
      i.toMillis.nano⟩ : Instant).inCalendar then Except.ok _ else .error Flaw.impossible) = _
  rw [if_pos (hmoved ▸ inCalendar_toMillis hvalid)]
  exact congrArg Except.ok hmoved

end Instant

/-! ## The internet form -/

theorem scanExact_month (i : Instant) (rest : List Char) :
    scanExact 2 1 12 ((padded 2 i.date.month).toList ++ rest) = .ok (i.date.month, rest) :=
  scanExact_padded (by decide) (i.isDay_date.month_le.trans_lt (by decide)) i.isDay_date.month_pos
    i.isDay_date.month_le rest

theorem scanExact_day (i : Instant) (rest : List Char) :
    scanExact 2 1 31 ((padded 2 i.date.day).toList ++ rest) = .ok (i.date.day, rest) :=
  scanExact_padded (by decide) (i.day_date_le.trans_lt (by decide)) i.isDay_date.day_pos
    i.day_date_le rest

theorem toList_isoText (i : Instant) :
    (isoText i).toList = (yearText i.date.year).toList ++ '-' :: ((padded 2 i.date.month).toList ++
      '-' :: ((padded 2 i.date.day).toList ++ 'T' :: ((padded 2 i.hour).toList ++
      ':' :: ((padded 2 i.minute).toList ++ ':' :: ((padded 2 i.clockSecond).toList ++
      '.' :: ((padded 3 (i.fraction / 1000000)).toList ++ ['Z'])))))) := by
  simp [isoText, writeInternet, Layout.toList_write, Layout.yearFirst, Layout.fullClock,
    Layout.clock, Item.write]

/-- **The internet form with milliseconds is read back.** -/
theorem internet_isoText {i : Instant} (h : i.OnClock)
    (hyear : 0 ≤ i.date.year ∧ i.date.year ≤ 9999) :
    internet (isoText i).toList = .ok i.toMillis := by
  have hsixty : i.clockSecond ≤ 60 := by
    rcases h.clockSecond_cases with h | h <;> omega
  have hhours := scanExact_padded (by decide : 0 < 2) (h.hour_le.trans_lt (by decide))
    (Nat.zero_le _) h.hour_le
  have hminutes := scanExact_padded (by decide : 0 < 2) (i.minute_le.trans_lt (by decide))
    (Nat.zero_le _) i.minute_le
  have hseconds := scanExact_padded (by decide : 0 < 2) (hsixty.trans_lt (by decide))
    (Nat.zero_le _) hsixty
  have hfraction :
      scanOptionalFraction ('.' :: ((padded 3 (i.fraction / 1000000)).toList ++ ['Z'])) =
        .ok (some (i.fraction / 1000000 * 1000000), ['Z']) := by
    rw [scanOptionalFraction, scanFraction_padded i.millis_lt (by decide), ok_bind]
    rfl
  have hmark (rest : List Char) : scanTimeMark ('T' :: rest) = .ok ((), rest) := rfl
  have hzulu : scanOffset ⟨.required, true, true⟩ ['Z'] = .ok (0, []) := rfl
  have hyear_eq : (i.date.year.toNat : Int) = i.date.year := Int.toNat_of_nonneg hyear.1
  rw [toList_isoText]
  simp only [internet, scanNumber_yearText hyear, scanExact_month, scanExact_day, hhours, hminutes,
    hseconds, hfraction, hmark, hzulu, scanChar_cons, ok_bind, hyear_eq]
  exact h.instant_fields (Instant.valid_date hyear)

/-- The internet form has no blanks at its ends. -/
theorem trim_isoText (i : Instant) : Text.trim (isoText i).toList = (isoText i).toList := by
  apply Text.trim_eq_self
  · intro c hc
    obtain ⟨d, ds, heq, hd⟩ := Item.write_solid (i := i) (rfl : Item.year.solid = true)
    have hyear : (yearText i.date.year).toList = d :: ds := heq
    rw [toList_isoText, hyear, List.cons_append, List.head?_cons] at hc
    exact Option.some.inj hc ▸ hd d List.mem_cons_self
  · intro c hc
    have hlast : (isoText i).toList.getLast? = some 'Z' := by
      rw [isoText, writeInternet, String.toList_append]
      exact List.getLast?_concat
    rw [hlast] at hc
    cases hc
    rfl

end Reshape.Calendar
