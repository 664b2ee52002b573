/-
# Reshape.Pattern.Flaw -- why a text is no pattern

The causes for which a pattern is refused, each with its message, and the spot in the text that is
to blame. A message shows the pattern with the spot underlined. A pattern that would take too much
memory is refused, too; then there is no spot.
-/

import Reshape.Decimal.Notation
import Reshape.Text.Search

namespace Reshape.Pattern

/-- The deepest tree, in levels. -/
def maxHeight : Nat := 250

/-- The most memory that a pattern may take, in bytes. -/
def maxSize : Nat := 10485760

/-- What is wrong with a pattern. -/
inductive Flaw where
  | badClassEscape
  | badClassRange
  | badRangeEnd
  | openClass
  | badNumber
  | emptyHex
  | badHex
  | badHexDigit
  | openEscape
  | badEscape
  | danglingMinus
  | repeatedFlag
  | repeatedMinus
  | openFlags
  | unknownFlag
  | repeatedName
  | emptyName
  | badName
  | openName
  | openGroup
  | closedGroup
  | tooDeep
  | badCounts
  | missingCount
  | openCount
  | nothingToRepeat
  | openWordEdge
  | unknownWordEdge
  | openBrace
  | badProperty
  | backreference
  | lookaround
  | unknownProperty
  | unknownValue
  | outsideAscii
  | outsideText
  deriving DecidableEq, Repr

/-- The description of a flaw. -/
def Flaw.text : Flaw → String
  | .badClassEscape => "invalid escape sequence found in character class"
  | .badClassRange => "invalid character class range, the start must be <= the end"
  | .badRangeEnd => "invalid range boundary, must be a literal"
  | .openClass => "unclosed character class"
  | .badNumber => "decimal literal invalid"
  | .emptyHex => "hexadecimal literal empty"
  | .badHex => "hexadecimal literal is not a Unicode scalar value"
  | .badHexDigit => "invalid hexadecimal digit"
  | .openEscape => "incomplete escape sequence, reached end of pattern prematurely"
  | .badEscape => "unrecognized escape sequence"
  | .danglingMinus => "dangling flag negation operator"
  | .repeatedFlag => "duplicate flag"
  | .repeatedMinus => "flag negation operator repeated"
  | .openFlags => "expected flag but got end of regex"
  | .unknownFlag => "unrecognized flag"
  | .repeatedName => "duplicate capture group name"
  | .emptyName => "empty capture group name"
  | .badName => "invalid capture group character"
  | .openName => "unclosed capture group name"
  | .openGroup => "unclosed group"
  | .closedGroup => "unopened group"
  | .tooDeep =>
    "exceed the maximum number of nested parentheses/brackets (" ++ Decimal.natText maxHeight ++ ")"
  | .badCounts => "invalid repetition count range, the start must be <= the end"
  | .missingCount => "repetition quantifier expects a valid decimal"
  | .openCount => "unclosed counted repetition"
  | .nothingToRepeat => "repetition operator missing expression"
  | .openWordEdge =>
    "special word boundary assertion is either unclosed or contains an invalid character"
  | .unknownWordEdge =>
    "unrecognized special word boundary assertion, valid choices are: start, end, start-half or " ++
      "end-half"
  | .openBrace =>
    "found either the beginning of a special word boundary or a bounded repetition on a \\b with " ++
      "an opening brace, but no closing brace"
  | .badProperty => "invalid Unicode character class"
  | .backreference => "backreferences are not supported"
  | .lookaround => "look-around, including look-ahead and look-behind, is not supported"
  | .unknownProperty => "Unicode property not found"
  | .unknownValue => "Unicode property value not found"
  | .outsideAscii => "Unicode not allowed here"
  | .outsideText => "pattern can match invalid UTF-8"

/-- A part of a pattern, between two offsets in characters. -/
structure Mark where
  start : Nat
  stop : Nat
  deriving DecidableEq, Repr

/-- **Why a text is no pattern.** What is given a second time is marked where it came first, too. -/
inductive Fault where
  | flawed (pattern : String) (flaw : Flaw) (mark : Mark) (earlier : Option Mark)
  | tooLarge
  deriving DecidableEq, Repr

/-! ## Showing a pattern -/

/-- The line of an offset, and the offset in that line. -/
def place : (lines : List (List Char)) → (offset : Nat) → Nat × Nat
  | [], offset => (0, offset)
  | line :: lines, offset =>
    if offset ≤ line.length then (0, offset)
    else
      let (i, column) := place lines (offset - line.length - 1)
      (i + 1, column)

/-- What stands in front of a line: its number, if there are several. -/
def label (count i : Nat) : List Char :=
  if count ≤ 1 then List.replicate 4 ' '
  else
    let number := (Decimal.natText (i + 1)).toList
    List.replicate ((Decimal.natText count).length - number.length) ' ' ++ number ++ [':', ' ']

/-- Marks below a line, from `column` on; an empty part gets one caret. -/
def carets : (column : Nat) → List Mark → List Char
  | _, [] => []
  | column, m :: ms =>
    let width := max 1 (m.stop - m.start)
    List.replicate (m.start - column) ' ' ++ List.replicate width '^' ++
      carets (max column m.start + width) ms

/-- A mark in a line, by its columns. -/
def Mark.within (lines : List (List Char)) (i : Nat) (m : Mark) : Option Mark :=
  let (first, start) := place lines m.start
  let (last, stop) := place lines m.stop
  if first = i && last = i then some ⟨start, stop⟩ else none

/-- A line as it is shown: a return before a line feed belongs to the line's end. -/
def shownLine (isLast : Bool) (line : List Char) : List Char :=
  if !isLast && line.getLast? = some '\r' then line.dropLast else line

/-- The lines of a pattern, each with the marks below it. The empty line after a last line feed is
not shown. -/
def shownLines (lines : List (List Char)) (marks : List Mark) : List (List Char) :=
  let count := lines.length
  lines.zipIdx.flatMap fun (line, i) =>
    let isLast := i + 1 = count
    if isLast && line.isEmpty then []
    else
      let below := marks.filterMap (Mark.within lines i)
      (label count i ++ shownLine isLast line) ::
        (if below.isEmpty then []
         else [List.replicate (label count i).length ' ' ++ carets 0 below])

/-- A note about a mark that extends over several lines. -/
def Mark.note? (lines : List (List Char)) (m : Mark) : Option (List Char) :=
  let (first, start) := place lines m.start
  let (last, stop) := place lines m.stop
  if first = last then none
  else
    let spot (line column : Nat) : String :=
      "line " ++ Decimal.natText line ++ " (column " ++ Decimal.natText column ++ ")"
    some ("on " ++ spot (first + 1) (start + 1) ++ " through " ++ spot (last + 1) stop).toList

/-- **A pattern with its marks**, line by line. Between rules if it has several lines. -/
def shown (pattern : String) (marks : List Mark) : List (List Char) :=
  let lines := Text.splitChar '\n' pattern.toList
  let body := shownLines lines marks
  if lines.length ≤ 1 then body
  else
    let rule := List.replicate 79 '~'
    [rule] ++ body ++ [rule] ++ marks.filterMap (Mark.note? lines)

/-- **The message of a fault.** -/
def Fault.message : Fault → String
  | .flawed pattern flaw mark earlier =>
    let lines := shown pattern (earlier.toList ++ [mark])
    "regex parse error:\n" ++ String.ofList (lines.flatMap (· ++ ['\n'])) ++ "error: " ++ flaw.text
  | .tooLarge => "Compiled regex exceeds size limit of " ++ Decimal.natText maxSize ++ " bytes."

end Reshape.Pattern
