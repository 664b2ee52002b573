/-
# Reshape.Transform.Date -- transformations of dates

A date is a string in a known form, or a number of milliseconds since the start of 1970. All
instants are in universal time.
-/

import Reshape.Transform.Settings
import Reshape.Transform.Fault
import Reshape.Calendar.Format
import Reshape.Json.Loose

namespace Reshape.Transform

/-- **The instant that a value means**, under a hint. -/
def instantOf? (hint : Option String) : Json → Option Calendar.Instant
  | .num n => Calendar.ofNumber? hint n.toFloat
  | .str s => Calendar.read? hint (Text.trim s.toList)
  | _ => none

/-- The hint of the settings; `auto` and the empty text are none. -/
def DateFormat.hint (s : DateFormat) : Option String :=
  s.inputFormat.filter fun f => f != "" && f != "auto"

/-- **Write the date of a value in another format.** -/
def DateFormat.of (s : DateFormat) (value : Json) : Except Fault Json :=
  match instantOf? s.hint value with
  | some i => .ok (.str (Calendar.format s.outputFormat i))
  | none => .error (.noDate "date_format" value)

/-- An instant moved by an amount of a unit. Months and years keep the day where they can, and are
limited to 32 bits. -/
def DateAdd.move? (s : DateAdd) (i : Calendar.Instant) : Option Calendar.Instant :=
  let months (n : Int) := if n.natAbs < Decimal.twoTo 32 then i.addMonths? n else none
  match s.unit with
  | .days => i.addSeconds? (s.amount * 86400)
  | .hours => i.addSeconds? (s.amount * 3600)
  | .minutes => i.addSeconds? (s.amount * 60)
  | .months => months s.amount
  | .years => months (s.amount * 12)

/-- **Move the date of a value.** -/
def DateAdd.of (s : DateAdd) (value : Json) : Except Fault Json :=
  match instantOf? none value with
  | none => .error (.noDate "date_add" value)
  | some i =>
    match s.move? i with
    | some i => .ok (.str (Calendar.isoText i))
    | none => .error (.beyondCalendar s.amount s.unit)

end Reshape.Transform
