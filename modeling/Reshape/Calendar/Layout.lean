/-
# Reshape.Calendar.Layout -- written forms of dates

A `Layout` is a list of items and serves in both directions: `write` prints an instant in it, `scan`
reads the items back into `Fields`. Reading is lenient where writing is strict: before a number
there may be blanks, a number may have fewer digits than are written, and a blank stands for any
number of them, none included. Years of more than four digits need a sign.

`Fields` come together in `Fields.date` and `Fields.instant`, which refuse what the calendar lacks.
-/

import Reshape.Calendar.Instant
import Reshape.Decimal.Notation
import Reshape.Decimal.Reader
import Reshape.Text.Search

namespace Reshape.Calendar

/-! ## Flaws -/

/-- Why a text is no date. -/
inductive Flaw where
  | outOfRange
  | impossible
  | notEnough
  | invalid
  | tooShort
  | tooLong
  deriving DecidableEq, Repr

/-- The message of a flaw. -/
def Flaw.message : Flaw → String
  | .outOfRange => "input is out of range"
  | .impossible => "no possible date and time matching input"
  | .notEnough => "input is not enough for unique date and time"
  | .invalid => "input contains invalid characters"
  | .tooShort => "premature end of input"
  | .tooLong => "trailing input"

/-! ## Fields -/

/-- The parts of a date that a text gave. -/
structure Fields where
  year : Option Int := none
  month : Option Nat := none
  day : Option Nat := none
  hour : Option Nat := none
  minute : Option Nat := none
  second : Option Nat := none
  nano : Option Nat := none
  offset : Option Int := none
  weekday : Option Nat := none
  deriving Repr

namespace Fields

/-- The date, if the calendar has it and it falls on the named day of the week. -/
def date (f : Fields) : Except Flaw Date :=
  match f.year, f.month, f.day with
  | some y, some m, some d =>
    let date : Date := ⟨y, m, d⟩
    if !date.valid then .error .outOfRange
    else
      match f.weekday with
      | some w => if date.weekday = w then .ok date else .error .impossible
      | none => .ok date
  | _, _, _ => .error .notEnough

/-- The second of the day and the nanoseconds. Second 60 is the leap second after second 59. -/
def time (f : Fields) : Except Flaw (Nat × Nat) :=
  match f.hour, f.minute with
  | some h, some m =>
    let s := f.second.getD 0
    let nano := f.nano.getD 0
    if s = 60 then .ok (h * 3600 + m * 60 + 59, nano + Instant.nanosPerSecond)
    else .ok (h * 3600 + m * 60 + s, nano)
  | _, _ => .error .notEnough

/-- The instant, read as universal time. -/
def localTime (f : Fields) : Except Flaw Instant := do
  let d ← f.date
  let (second, nano) ← f.time
  return ⟨d.number, second, nano⟩

/-- Offsets stay below a day. -/
def offsetValid (offset : Int) : Bool :=
  -86400 < offset && offset < 86400

/-- The instant that the fields and their offset from universal time give. -/
def instant (f : Fields) : Except Flaw Instant :=
  match f.offset with
  | none => .error .notEnough
  | some offset => do
    let i ← f.localTime
    if !offsetValid offset then .error .outOfRange
    else
      let total : Int := i.second - offset
      let moved : Instant :=
        ⟨i.day + total / Instant.secondsPerDay, (total % Instant.secondsPerDay).toNat, i.nano⟩
      if moved.inCalendar then .ok moved else .error .impossible

end Fields

/-! ## Scanning -/

/-- A scanner takes something off the front of a text. -/
abbrev Scan (α : Type) := List Char → Except Flaw (α × List Char)

/-- A number of `least` to `most` digits; `most` is 0 when there is no limit. -/
def scanNumber (least most : Nat) : Scan Nat := fun cs =>
  let ds := cs.takeWhile Decimal.isDigit
  let ds := if most = 0 then ds else ds.take most
  if Text.byteLength cs < least then .error .tooShort
  else if ds.length < least then .error .invalid
  else .ok (Decimal.natOfDigits ds, cs.drop ds.length)

/-- One given character. -/
def scanChar (c : Char) : Scan Unit := fun cs =>
  match cs with
  | [] => .error .tooShort
  | d :: cs => if d = c then .ok ((), cs) else .error .invalid

/-- At least one blank. -/
def scanBlanks : Scan Unit := fun cs =>
  match cs with
  | [] => .error .tooShort
  | c :: _ => if Text.isBlank c then .ok ((), Text.trimStart cs) else .error .invalid

/-- Names of three letters, found without regard to case, numbered from 0. -/
def scanName (names : List String) : Scan Nat := fun cs =>
  if Text.byteLength cs < 3 then .error .tooShort
  else
    match names.findIdx? fun n => n.toList == (cs.take 3).map Decimal.lowerAscii with
    | some i => .ok (i, cs.drop 3)
    | none => .error .invalid

def monthNames : List String :=
  ["jan", "feb", "mar", "apr", "may", "jun", "jul", "aug", "sep", "oct", "nov", "dec"]

def weekdayNames : List String :=
  ["mon", "tue", "wed", "thu", "fri", "sat", "sun"]

/-- The digits after a point, as nanoseconds; digits beyond the ninth are dropped. -/
def scanFraction : Scan Nat := fun cs =>
  let ds := cs.takeWhile Decimal.isDigit
  if cs.isEmpty then .error .tooShort
  else if ds.isEmpty then .error .invalid
  else
    let kept := ds.take 9
    .ok (Decimal.natOfDigits kept * Decimal.tenTo (9 - kept.length), cs.drop ds.length)

/-- The value, if it lies in the range. -/
def inRange (low high n : Nat) : Except Flaw Nat :=
  if low ≤ n ∧ n ≤ high then .ok n else .error .outOfRange

/-! ## Layouts -/

/-- An item of a written date. -/
inductive Item where
  | year
  | month
  | day
  | hour
  | minute
  | second
  /-- A point and the digits of the second's fraction, or nothing. -/
  | fraction
  | monthName
  | blank
  | literal (c : Char)
  deriving DecidableEq, Repr

abbrev Layout := List Item

namespace Item

/-- A year: four digits at most, unless a sign stands before it. -/
def scanYear : Scan Int := fun cs =>
  match Text.trimStart cs with
  | '-' :: cs => do
    let (n, cs) ← scanNumber 1 0 cs
    return (-(n : Int), cs)
  | '+' :: cs => do
    let (n, cs) ← scanNumber 1 0 cs
    return ((n : Int), cs)
  | cs => do
    let (n, cs) ← scanNumber 1 4 cs
    return ((n : Int), cs)

/-- A number of up to two digits within a range. -/
def scanShort (low high : Nat) : Scan Nat := fun cs => do
  let (n, cs) ← scanNumber 1 2 (Text.trimStart cs)
  let n ← inRange low high n
  return (n, cs)

/-- Years are kept in 32 bits. -/
def yearInRange (y : Int) : Except Flaw Int :=
  if -Decimal.twoTo 31 ≤ y ∧ y < Decimal.twoTo 31 then .ok y else .error .outOfRange

/-- Read one item. -/
def scan (item : Item) (f : Fields) (cs : List Char) : Except Flaw (Fields × List Char) :=
  match item with
  | .year => do
    let (y, cs) ← scanYear cs
    let y ← yearInRange y
    return ({ f with year := some y }, cs)
  | .month => do
    let (n, cs) ← scanShort 1 12 cs
    return ({ f with month := some n }, cs)
  | .day => do
    let (n, cs) ← scanShort 1 31 cs
    return ({ f with day := some n }, cs)
  | .hour => do
    let (n, cs) ← scanShort 0 23 cs
    return ({ f with hour := some n }, cs)
  | .minute => do
    let (n, cs) ← scanShort 0 59 cs
    return ({ f with minute := some n }, cs)
  | .second => do
    let (n, cs) ← scanShort 0 60 cs
    return ({ f with second := some n }, cs)
  | .fraction =>
    match cs with
    | '.' :: cs => do
      let (n, cs) ← scanFraction cs
      return ({ f with nano := some n }, cs)
    | cs => .ok (f, cs)
  | .monthName => do
    let (n, cs) ← scanName monthNames cs
    return ({ f with month := some (n + 1) }, cs)
  | .blank => .ok (f, Text.trimStart cs)
  | .literal c => do
    let ((), cs) ← scanChar c cs
    return (f, cs)

end Item

/-- `n` in decimal with at least `width` digits. -/
def padded (width n : Nat) : String :=
  let ds := Decimal.digitsOf n
  Decimal.digitText (List.replicate (width - ds.length) 0 ++ ds)

/-- A year: four digits, and a sign when it has not exactly four. -/
def yearText (y : Int) : String :=
  if 0 ≤ y ∧ y ≤ 9999 then padded 4 y.toNat
  else (if y < 0 then "-" else "+") ++ padded 4 y.natAbs

/-- The names of the months as they are written. -/
def monthNameText (month : Nat) : String :=
  let names :=
    ["Jan", "Feb", "Mar", "Apr", "May", "Jun", "Jul", "Aug", "Sep", "Oct", "Nov", "Dec"]
  (names[month - 1]?).getD ""

/-- Write one item. -/
def Item.write (i : Instant) : Item → String
  | .year => yearText i.date.year
  | .month => padded 2 i.date.month
  | .day => padded 2 i.date.day
  | .hour => padded 2 i.hour
  | .minute => padded 2 i.minute
  | .second => padded 2 i.clockSecond
  | .fraction => ""
  | .monthName => monthNameText i.date.month
  | .blank => " "
  | .literal c => String.singleton c

namespace Layout

/-- **Write an instant.** -/
def write (layout : Layout) (i : Instant) : String :=
  "".intercalate (layout.map (Item.write i))

/-- Read the items of a layout in turn. -/
def scan : Layout → Fields → List Char → Except Flaw (Fields × List Char)
  | [], f, cs => .ok (f, cs)
  | item :: items, f, cs => do
    let (f, cs) ← item.scan f cs
    scan items f cs

/-- **Read a whole text.** -/
def fields (layout : Layout) (cs : List Char) : Except Flaw Fields := do
  let (f, rest) ← scan layout {} cs
  if rest.isEmpty then .ok f else .error .tooLong

/-- Year, month and day, divided by a character. -/
def yearFirst (sep : Char) : Layout :=
  [.year, .literal sep, .month, .literal sep, .day]

def monthFirst : Layout :=
  [.month, .literal '/', .day, .literal '/', .year]

def dayFirst : Layout :=
  [.day, .literal '/', .month, .literal '/', .year]

def namedMonth : Layout :=
  [.monthName, .blank, .day, .literal ',', .blank, .year]

/-- Hour and minute. -/
def clock : Layout :=
  [.hour, .literal ':', .minute]

/-- Hour, minute and second. -/
def fullClock : Layout :=
  clock ++ [.literal ':', .second]

/-- The layouts with date and time that are tried when nothing is known about a text. -/
def dateTimes : List Layout :=
  [yearFirst '-' ++ [.literal 'T'] ++ fullClock ++ [.fraction],
    yearFirst '-' ++ [.literal 'T'] ++ fullClock,
    yearFirst '-' ++ [.blank] ++ fullClock ++ [.fraction],
    yearFirst '-' ++ [.blank] ++ fullClock,
    yearFirst '-' ++ [.literal 'T'] ++ clock]

/-- The layouts with a date alone that are tried. -/
def dates : List Layout :=
  [yearFirst '-', monthFirst, yearFirst '/']

end Layout

end Reshape.Calendar
