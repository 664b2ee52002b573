/-
# Reshape.Calendar.Date -- days of the calendar

The proleptic Gregorian calendar, with a year 0 and negative years before it. A day has two forms: a
`Date`, with year, month and day of month, and its number, counted from the first day of 1970. The
count goes through years that start in March, so that the leap day is the last day of a year.

The calendar is finite: years outside `firstYear .. lastYear` do not exist.
-/

namespace Reshape.Calendar

/-- A day by year, month and day of month. -/
structure Date where
  year : Int
  month : Nat
  day : Nat
  deriving DecidableEq, Repr, Inhabited

def firstYear : Int := -262143
def lastYear : Int := 262142

/-- Every fourth year, except for centuries that 400 does not divide. -/
def isLeap (year : Int) : Bool :=
  year % 4 == 0 && (year % 100 != 0 || year % 400 == 0)

/-- The number of days of a month. -/
def daysIn (year : Int) (month : Nat) : Nat :=
  if month = 2 then (if isLeap year then 29 else 28)
  else if month = 4 || month = 6 || month = 9 || month = 11 then 30
  else 31

namespace Date

/-- The date exists. -/
def valid (d : Date) : Bool :=
  firstYear ≤ d.year && d.year ≤ lastYear && 1 ≤ d.month && d.month ≤ 12 &&
    1 ≤ d.day && d.day ≤ daysIn d.year d.month

/-- **The number of the day**, counted from 1970-01-01. -/
def number (d : Date) : Int :=
  let year := if d.month ≤ 2 then d.year - 1 else d.year
  let monthFromMarch : Nat := if d.month ≤ 2 then d.month + 9 else d.month - 3
  let era := year / 400
  let yearOfEra := year % 400
  let dayOfYear : Int := ((153 * monthFromMarch + 2) / 5 + d.day - 1 : Nat)
  era * 146097 + (yearOfEra * 365 + yearOfEra / 4 - yearOfEra / 100 + dayOfYear) - 719468

/-- **The date of a day's number.** -/
def ofNumber (n : Int) : Date :=
  let z := n + 719468
  let era := z / 146097
  let dayOfEra := z % 146097
  let yearOfEra := (dayOfEra - dayOfEra / 1460 + dayOfEra / 36524 - dayOfEra / 146096) / 365
  let dayOfYear := (dayOfEra - (365 * yearOfEra + yearOfEra / 4 - yearOfEra / 100)).toNat
  let monthFromMarch := (5 * dayOfYear + 2) / 153
  let day := dayOfYear - (153 * monthFromMarch + 2) / 5 + 1
  let month := if monthFromMarch < 10 then monthFromMarch + 3 else monthFromMarch - 9
  let year := yearOfEra + era * 400
  ⟨if month ≤ 2 then year + 1 else year, month, day⟩

/-- The day of the week: 0 is Monday. -/
def weekday (d : Date) : Nat :=
  ((d.number + 3) % 7).toNat

/-- The same day `count` months later or earlier; a day that the new month lacks becomes its
last. -/
def addMonths (d : Date) (count : Int) : Date :=
  let months := d.year * 12 + (d.month - 1 : Nat) + count
  let year := months / 12
  let month := (months % 12).toNat + 1
  ⟨year, month, min d.day (daysIn year month)⟩

end Date

/-- The number of the first day of the calendar. -/
def firstDay : Int := Date.number ⟨firstYear, 1, 1⟩

/-- The number of the last day of the calendar. -/
def lastDay : Int := Date.number ⟨lastYear, 12, 31⟩

example : Date.number ⟨1970, 1, 1⟩ = 0 := by decide
example : Date.ofNumber 11016 = ⟨2000, 2, 29⟩ := by decide
example : Date.weekday ⟨2024, 3, 5⟩ = 1 := by decide

end Reshape.Calendar
