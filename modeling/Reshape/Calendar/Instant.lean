/-
# Reshape.Calendar.Instant -- points in time

An instant of universal time: a day, the second of the day, and nanoseconds. A leap second is held
as the second before it with a thousand million nanoseconds or more. Moving an instant by seconds
leaves a leap second behind: what comes after it counts from the end of it.
-/

import Reshape.Calendar.Date

namespace Reshape.Calendar

/-- **An instant**: the day's number, the second of the day, and the nanoseconds of that second,
which reach beyond a whole second in a leap second only. -/
structure Instant where
  day : Int
  second : Nat
  nano : Nat
  deriving DecidableEq, Repr, Inhabited

namespace Instant

def secondsPerDay : Nat := 86400
def nanosPerSecond : Nat := 1000000000

/-- Midnight at the start of a day. -/
def midnight (d : Date) : Instant :=
  ⟨d.number, 0, 0⟩

/-- The calendar has the day of the instant. -/
def inCalendar (i : Instant) : Bool :=
  firstDay ≤ i.day && i.day ≤ lastDay

/-- The instant, if the calendar has its day. -/
def checked (i : Instant) : Option Instant :=
  if i.inCalendar then some i else none

/-- Seconds since the start of 1970 with a rest in nanoseconds. -/
def ofSeconds (seconds : Int) (nano : Nat) : Instant :=
  ⟨seconds / secondsPerDay, (seconds % secondsPerDay).toNat, nano⟩

/-- **Milliseconds since the start of 1970.** -/
def ofMillis? (millis : Int) : Option Instant :=
  (ofSeconds (millis / 1000) ((millis % 1000).toNat * 1000000)).checked

/-- The date of an instant. -/
def date (i : Instant) : Date :=
  Date.ofNumber i.day

/-- The hour of the day, the minute, and the second, which is 60 in a leap second. -/
def hour (i : Instant) : Nat := i.second / 3600

@[inherit_doc hour]
def minute (i : Instant) : Nat := i.second / 60 % 60

@[inherit_doc hour]
def clockSecond (i : Instant) : Nat := i.second % 60 + i.nano / nanosPerSecond

/-- The nanoseconds within the second that the clock shows. -/
def fraction (i : Instant) : Nat := i.nano % nanosPerSecond

/-- **A number of seconds later or earlier.** -/
def addSeconds? (i : Instant) (count : Int) : Option Instant :=
  let leap := nanosPerSecond ≤ i.nano
  let start : Int := if leap && count < 0 then i.second + 1 else i.second
  let nano := if leap && count ≠ 0 then i.nano - nanosPerSecond else i.nano
  let total := start + count
  (Instant.mk (i.day + total / secondsPerDay) (total % secondsPerDay).toNat nano).checked

/-- **A number of months later or earlier**, at the same time of day. -/
def addMonths? (i : Instant) (count : Int) : Option Instant :=
  let d := i.date.addMonths count
  if d.valid then some { i with day := d.number } else none

end Instant

end Reshape.Calendar
