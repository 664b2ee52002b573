/-
# Reshape.Calendar.Format -- named formats of dates

The formats that users name, in both directions. Writing knows the four day formats, `ISO`, `LOCAL`
and `TIME`; any other name means month, day and year without leading zeros.

Reading takes a hint. A day format is tried first under its hint; `timestamp` and `unix` mean
milliseconds and seconds since the start of 1970. Without a hint, or when the text does not fit it,
the standard forms are tried, then the layouts with date and time, then those with a date alone, and
last milliseconds.
-/

import Reshape.Calendar.Standard

namespace Reshape.Calendar

/-- **The layout that a format's name stands for.** -/
def Layout.named? (name : String) : Option Layout :=
  if name = "YYYY-MM-DD" then some (Layout.yearFirst '-')
  else if name = "MM/DD/YYYY" then some Layout.monthFirst
  else if name = "DD/MM/YYYY" then some Layout.dayFirst
  else if name = "MMM DD, YYYY" then some Layout.namedMonth
  else none

/-! ## Writing -/

/-- Month, day and year without leading zeros. -/
def shortDate (i : Instant) : String :=
  let d := i.date
  Decimal.natText d.month ++ "/" ++ Decimal.natText d.day ++ "/" ++ yearText d.year

/-- The time of day on a clock of twelve hours. -/
def shortTime (i : Instant) : String :=
  let hour := i.hour % 12
  Decimal.natText (if hour = 0 then 12 else hour) ++ ":" ++ padded 2 i.minute ++ ":" ++
    padded 2 i.clockSecond ++ (if i.hour < 12 then " AM" else " PM")

/-- **Write an instant in a named format.** -/
def format (name : String) (i : Instant) : String :=
  match Layout.named? name with
  | some layout => layout.write i
  | none =>
    if name = "ISO" then isoText i
    else if name = "LOCAL" then shortDate i ++ ", " ++ shortTime i
    else if name = "TIME" then shortTime i
    else shortDate i

/-! ## Reading -/

/-- Milliseconds since the start of 1970; fractions of them are dropped. -/
def ofMillis? (millis : Float) : Option Instant :=
  if millis.isFinite then
    Instant.ofMillis? (Decimal.clampToInt (-Decimal.twoTo 63) (Decimal.twoTo 63 - 1) millis)
  else none

/-- The instant of a number under a hint. -/
def ofNumber? (hint : Option String) (x : Float) : Option Instant :=
  if hint = some "unix" then ofMillis? (x * 1000) else ofMillis? x

/-- The day that a text in a layout gives. -/
def readDate? (layout : Layout) (cs : List Char) : Option Instant :=
  match layout.fields cs >>= Fields.date with
  | .ok d => some (Instant.midnight d)
  | .error _ => none

/-- The instant that a text in a layout gives. -/
def readDateTime? (layout : Layout) (cs : List Char) : Option Instant :=
  (layout.fields cs >>= Fields.localTime).toOption

/-- Try every known form. -/
def readAny? (cs : List Char) : Option Instant :=
  (internet cs).toOption
    |>.or (mail cs).toOption
    |>.or (Layout.dateTimes.findSome? fun layout => readDateTime? layout cs)
    |>.or (Layout.dates.findSome? fun layout => readDate? layout cs)
    |>.or ((Decimal.parseChars? cs).bind ofMillis?)

/-- **Read a text under a hint.** -/
def read? (hint : Option String) (cs : List Char) : Option Instant :=
  match hint with
  | none => readAny? cs
  | some name =>
    if name = "timestamp" || name = "unix" then
      match Decimal.parseChars? cs with
      | some x => ofNumber? hint x
      | none => readAny? cs
    else ((Layout.named? name).bind fun layout => readDate? layout cs).or (readAny? cs)

end Reshape.Calendar
