/-
# Reshape.Calendar.Standard -- the dates of RFC 3339 and RFC 2822

Three fixed forms of an instant with an offset from universal time:

* `internet`: RFC 3339 as it stands (`2024-03-05T14:07:09.5+01:00`), with a space allowed for the
  `T`;
* `lenient`: the same with blanks between the parts, numbers without leading zeros, signed years of
  any length, an optional colon in the offset, and `UTC` for it;
* `mail`: RFC 2822 (`Tue, 5 Mar 2024 14:07:09 +0100`), with its old years of two and three digits,
  its names of zones, and comments at the end.

And how an instant is written in the first form, with a chosen number of digits after the second.
-/

import Reshape.Calendar.Layout

namespace Reshape.Calendar

/-! ## Offsets -/

/-- The character that may divide hours and minutes of an offset. -/
inductive Divider where
  | required
  | free
  | none

/-- Pass over the divider. -/
def Divider.scan : Divider → Scan Unit
  | .required, cs => scanChar ':' cs
  | .free, cs => .ok ((), cs.dropWhile fun c => c = ':' || Text.isBlank c)
  | .none, cs => .ok ((), cs)

/-- How an offset may be written. -/
structure OffsetStyle where
  divider : Divider
  zulu : Bool
  mathMinus : Bool

/-- The sign of an offset. -/
def scanOffsetSign (style : OffsetStyle) : Scan Bool := fun cs =>
  match cs with
  | [] => .error .tooShort
  | '+' :: cs => .ok (false, cs)
  | '-' :: cs => .ok (true, cs)
  | c :: cs => if c = '−' && style.mathMinus then .ok (true, cs) else .error .invalid

/-- Two digits, the first up to `high`. -/
def scanTwoDigits (high : Nat) : Scan Nat := fun cs =>
  match cs with
  | a :: b :: rest =>
    if !Decimal.isDigit a || !Decimal.isDigit b then .error .invalid
    else if high < Decimal.digitValue a then .error .outOfRange
    else .ok (Decimal.natOfDigits [a, b], rest)
  | cs => if Text.byteLength cs < 2 then .error .tooShort else .error .invalid

/-- **An offset in seconds.** -/
def scanOffset (style : OffsetStyle) : Scan Int := fun cs =>
  match style.zulu, cs with
  | true, 'Z' :: cs => .ok (0, cs)
  | true, 'z' :: cs => .ok (0, cs)
  | _, cs => do
    let (negative, cs) ← scanOffsetSign style cs
    let (hours, cs) ← scanTwoDigits 9 cs
    let ((), cs) ← style.divider.scan cs
    let (minutes, cs) ← scanTwoDigits 5 cs
    let seconds : Int := hours * 3600 + minutes * 60
    return (if negative then -seconds else seconds, cs)

/-! ## The internet form -/

/-- A number of exactly `width` digits within a range. -/
def scanExact (width low high : Nat) : Scan Nat := fun cs => do
  let (n, cs) ← scanNumber width width cs
  let n ← inRange low high n
  return (n, cs)

/-- The mark between date and time. -/
def scanTimeMark : Scan Unit := fun cs =>
  match cs with
  | [] => .error .tooShort
  | c :: cs => if c = 'T' || c = 't' || c = ' ' then .ok ((), cs) else .error .invalid

/-- A point with digits, if there is one. -/
def scanOptionalFraction : Scan (Option Nat) := fun cs =>
  match cs with
  | '.' :: cs => do
    let (n, cs) ← scanFraction cs
    return (some n, cs)
  | cs => .ok (none, cs)

/-- **The internet form of an instant.** -/
def internet (cs : List Char) : Except Flaw Instant := do
  let (year, cs) ← scanNumber 4 4 cs
  let ((), cs) ← scanChar '-' cs
  let (month, cs) ← scanExact 2 1 12 cs
  let ((), cs) ← scanChar '-' cs
  let (day, cs) ← scanExact 2 1 31 cs
  let ((), cs) ← scanTimeMark cs
  let (hour, cs) ← scanExact 2 0 23 cs
  let ((), cs) ← scanChar ':' cs
  let (minute, cs) ← scanExact 2 0 59 cs
  let ((), cs) ← scanChar ':' cs
  let (second, cs) ← scanExact 2 0 60 cs
  let (nano, cs) ← scanOptionalFraction cs
  let (offset, cs) ← scanOffset ⟨.required, true, true⟩ cs
  if !Fields.offsetValid offset then .error .outOfRange
  else if !cs.isEmpty then .error .tooLong
  else
    Fields.instant
      { year := some year, month := some month, day := some day, hour := some hour,
        minute := some minute, second := some second, nano := nano, offset := some offset }

/-! ## The lenient form -/

def lenientDate : Layout :=
  [.year, .blank, .literal '-', .month, .blank, .literal '-', .day]

def lenientTime : Layout :=
  [.hour, .blank, .literal ':', .minute, .blank, .literal ':', .second, .fraction, .blank]

/-- Read a layout after which something must follow. -/
def scanBefore (layout : Layout) (f : Fields) (cs : List Char) :
    Except Flaw (Fields × List Char) := do
  let (f, rest) ← layout.scan f cs
  if rest.isEmpty then .error .notEnough else .ok (f, rest)

/-- An offset with everything optional about it. Minutes may be missing at the end of the text. -/
def scanLenientOffset : Scan Int := fun cs =>
  if ((cs.take 3).map Decimal.lowerAscii) == ['u', 't', 'c'] then .ok (0, cs.drop 3)
  else
    match cs with
    | 'Z' :: cs => .ok (0, cs)
    | 'z' :: cs => .ok (0, cs)
    | cs => do
      let style : OffsetStyle := ⟨.free, true, true⟩
      let (negative, cs) ← scanOffsetSign style cs
      let (hours, cs) ← scanTwoDigits 9 cs
      let ((), cs) ← style.divider.scan cs
      let sign (seconds : Int) : Int := if negative then -seconds else seconds
      match cs with
      | [] => .ok (sign (hours * 3600), [])
      | cs =>
        let (minutes, cs) ← scanTwoDigits 5 cs
        return (sign (hours * 3600 + minutes * 60), cs)

/-- **The lenient form of an instant.** -/
def lenient (cs : List Char) : Except Flaw Instant := do
  let (f, cs) ← scanBefore lenientDate {} cs
  let ((), cs) ← scanTimeMark cs
  let (f, cs) ← scanBefore lenientTime f cs
  let (offset, cs) ← scanLenientOffset (Text.trimStart cs)
  if !(Text.trimStart cs).isEmpty then .error .tooLong
  else Fields.instant { f with offset := some offset }

/-! ## The mail form -/

/-- Hours of the zones that have names. -/
def zoneHours : List (String × Int) :=
  [("gmt", 0), ("ut", 0), ("z", 0), ("edt", -4), ("est", -5), ("cdt", -5), ("cst", -6), ("mdt", -6),
    ("mst", -7), ("pdt", -7), ("pst", -8)]

/-- A letter of ASCII. -/
def isLetter (c : Char) : Bool :=
  let l := Decimal.lowerAscii c
  'a' ≤ l && l ≤ 'z'

/-- A zone by name or as an offset. Single letters other than `j` are read as universal time. -/
def scanZone : Scan Int := fun cs =>
  let name := (cs.takeWhile isLetter).map Decimal.lowerAscii
  let rest := cs.dropWhile isLetter
  if name.isEmpty then scanOffset ⟨.none, false, false⟩ cs
  else
    match zoneHours.lookup (String.ofList name) with
    | some hours => .ok (hours * 3600, rest)
    | none => if name.length = 1 && name != ['j'] then .ok (0, rest) else .error .invalid

/-- What follows a comment in parentheses, which may hold others, up to its end; a backslash takes
the meaning from the character after it. -/
def closeComment : (depth : Nat) → List Char → Option (List Char)
  | _, [] => none
  | depth, '\\' :: cs =>
    match cs with
    | [] => none
    | _ :: cs => closeComment depth cs
  | depth, '(' :: cs => closeComment (depth + 1) cs
  | 0, ')' :: cs => some cs
  | depth + 1, ')' :: cs => closeComment depth cs
  | depth, _ :: cs => closeComment depth cs

/-- Drop the comments at the end. -/
def dropComments : (bound : Nat) → List Char → List Char
  | 0, cs => cs
  | bound + 1, cs =>
    match Text.trimStart cs with
    | '(' :: rest =>
      match closeComment 0 rest with
      | some rest => dropComments bound rest
      | none => cs
    | _ => cs

/-- The year as mail means it: two digits lie between 1950 and 2049, three count from 1900. -/
def mailYear (digits n : Nat) : Nat :=
  if digits = 2 then (if n < 50 then n + 2000 else n + 1900)
  else if digits = 3 then n + 1900
  else n

/-- The day of the week with its comma, if there is one. -/
def scanWeekday : Scan (Option Nat) := fun cs =>
  match scanName weekdayNames cs with
  | .error _ => .ok (none, cs)
  | .ok (w, ',' :: cs) => .ok (some w, cs)
  | .ok _ => .error .invalid

/-- A colon and seconds, if there is a colon. -/
def scanOptionalSecond : Scan (Option Nat) := fun cs =>
  match Text.trimStart cs with
  | ':' :: rest => do
    let (n, rest) ← scanExact 2 0 60 rest
    return (some n, rest)
  | _ => .ok (none, cs)

/-- **The mail form of an instant.** -/
def mail (cs : List Char) : Except Flaw Instant := do
  let (weekday, cs) ← scanWeekday (Text.trimStart cs)
  let (day, cs) ← scanNumber 1 2 (Text.trimStart cs)
  let day ← inRange 1 31 day
  let ((), cs) ← scanBlanks cs
  let (month, cs) ← scanName monthNames cs
  let ((), cs) ← scanBlanks cs
  let digits := (cs.takeWhile Decimal.isDigit).length
  let (year, cs) ← scanNumber 2 0 cs
  let year ← Item.yearInRange (mailYear digits year)
  let ((), cs) ← scanBlanks cs
  let (hour, cs) ← scanExact 2 0 23 cs
  let ((), cs) ← scanChar ':' (Text.trimStart cs)
  let (minute, cs) ← scanExact 2 0 59 (Text.trimStart cs)
  let (second, cs) ← scanOptionalSecond cs
  let ((), cs) ← scanBlanks cs
  let (offset, cs) ← scanZone cs
  if !(dropComments cs.length cs).isEmpty then .error .tooLong
  else
    Fields.instant
      { year := some year, month := some (month + 1), day := some day, hour := some hour,
        minute := some minute, second := second, offset := some offset, weekday := weekday }

/-! ## Writing -/

/-- The internet form of an instant, with a given fraction. -/
def writeInternet (fraction : String) (i : Instant) : String :=
  Layout.write (Layout.yearFirst '-' ++ [.literal 'T'] ++ Layout.fullClock) i ++ fraction ++ "Z"

/-- **The internet form with milliseconds.** -/
def isoText (i : Instant) : String :=
  writeInternet ("." ++ padded 3 (i.fraction / 1000000)) i

/-- The internet form with as many groups of three digits as the fraction needs. -/
def exactText (i : Instant) : String :=
  let n := i.fraction
  let fraction :=
    if n = 0 then ""
    else if n % 1000000 = 0 then "." ++ padded 3 (n / 1000000)
    else if n % 1000 = 0 then "." ++ padded 6 (n / 1000)
    else "." ++ padded 9 n
  writeInternet fraction i

end Reshape.Calendar
