/-
# Reshape.Formula.Token -- the tokens of a formula

A formula is a single expression over the name `value`. Its text is cut into numbers, strings, names
and signs; blanks of ASCII stand between them and mean nothing. Each token carries the offset of its
first byte, and the list ends with `eof` at the length of the text.

At every place the longest sign counts (`===` before `==`). A number is a run of digits and points
with an optional exponent, and must read as a float; a letter `e` without digits after it is no
exponent. A string stands between two equal quotes and knows the escapes `\n`, `\t`, `\r`, `\0` and
`\u` with four characters that read as a hexadecimal number; a backslash before anything else stands
for that character.
-/

import Reshape.Text.Search
import Reshape.Text.Table
import Reshape.Decimal.Reader
import Reshape.Decimal.Notation

namespace Reshape.Formula

/-- What a token is. -/
inductive Kind where
  | number (value : Float)
  | str (text : String)
  | ident (name : String)
  | lparen
  | rparen
  | lbracket
  | rbracket
  | comma
  | dot
  | question
  | colon
  | plus
  | minus
  | star
  | starStar
  | slash
  | percent
  | bang
  | eqEq
  | eqEqEq
  | notEq
  | notEqEq
  | lt
  | ltEq
  | gt
  | gtEq
  | andAnd
  | orOr
  | eof
  deriving DecidableEq, Inhabited

/-- The name of a kind in messages. -/
def Kind.name : Kind → String
  | .number _ => "Number"
  | .str _ => "Str"
  | .ident _ => "Ident"
  | .lparen => "LParen"
  | .rparen => "RParen"
  | .lbracket => "LBracket"
  | .rbracket => "RBracket"
  | .comma => "Comma"
  | .dot => "Dot"
  | .question => "Question"
  | .colon => "Colon"
  | .plus => "Plus"
  | .minus => "Minus"
  | .star => "Star"
  | .starStar => "StarStar"
  | .slash => "Slash"
  | .percent => "Percent"
  | .bang => "Bang"
  | .eqEq => "EqEq"
  | .eqEqEq => "EqEqEq"
  | .notEq => "NotEq"
  | .notEqEq => "NotEqEq"
  | .lt => "Lt"
  | .ltEq => "LtEq"
  | .gt => "Gt"
  | .gtEq => "GtEq"
  | .andAnd => "AndAnd"
  | .orOr => "OrOr"
  | .eof => "Eof"

/-- **A token** with the offset of its first byte. -/
structure Token where
  kind : Kind
  offset : Nat
  deriving DecidableEq, Inhabited

/-! ## Flaws -/

/-- What the grammar asks for at some place. -/
inductive Wanted where
  | colon
  | propertyName
  | closingBracket
  | openingParen
  | argumentEnd
  | closingParen
  | itemEnd
  | mathDot
  | mathName
  deriving DecidableEq, Repr

/-- The description of what is wanted. -/
def Wanted.text : Wanted → String
  | .colon => "`:` in conditional expression"
  | .propertyName => "property name after `.`"
  | .closingBracket => "`]`"
  | .openingParen => "`(`"
  | .argumentEnd => "`,` or `)`"
  | .closingParen => "`)`"
  | .itemEnd => "`,` or `]`"
  | .mathDot => "`.` after `Math`"
  | .mathName => "function name after `Math.`"

/-- The longest formula, in bytes. -/
def maxLength : Nat := 4096

/-- The deepest formula, in levels. -/
def maxDepth : Nat := 64

/-- Why a text is no formula. -/
inductive Flaw where
  | tooLong (bytes : Nat)
  | badNumber (text : String)
  | badCharacter (c : Char)
  | openEscape
  | badCode
  | openString
  | wanted (what : Wanted)
  | tooDeep
  | notMethod (name : String)
  | notCallable
  | notMath (name : String)
  | bareMath (name : String)
  | bareFunction (name : String)
  | unknownName (name : String)
  | earlyEnd
  | unexpected (kind : Kind)
  | trailing
  deriving DecidableEq

/-- The message of a flaw. -/
def Flaw.message : Flaw → String
  | .tooLong bytes =>
    "expression is " ++ Decimal.natText bytes ++ " bytes, longer than the " ++
      Decimal.natText maxLength ++ " byte limit"
  | .badNumber text => "invalid number `" ++ text ++ "`"
  | .badCharacter c => "unexpected character `" ++ String.singleton c ++ "`"
  | .openEscape => "unterminated escape"
  | .badCode => "invalid \\u escape"
  | .openString => "unterminated string"
  | .wanted what => "expected " ++ what.text
  | .tooDeep => "expression nests deeper than " ++ Decimal.natText maxDepth ++ " levels"
  | .notMethod name => "method `" ++ name ++ "` is not allowed"
  | .notCallable => "only whitelisted functions may be called"
  | .notMath name => "`Math." ++ name ++ "` is not allowed"
  | .bareMath name => "`Math." ++ name ++ "` must be called"
  | .bareFunction name => "`" ++ name ++ "` must be called"
  | .unknownName name => "unknown identifier `" ++ name ++ "`"
  | .earlyEnd => "unexpected end of expression"
  | .unexpected kind => "unexpected token " ++ kind.name
  | .trailing => "unexpected trailing input"

/-- A flaw and the offset where it shows. -/
structure ParseError where
  offset : Nat
  flaw : Flaw
  deriving DecidableEq

/-- The message of a parse error. -/
def ParseError.message (e : ParseError) : String :=
  "Expression parse error at offset " ++ Decimal.natText e.offset ++ ": " ++ e.flaw.message

/-! ## Character classes -/

/-- The blanks between tokens. -/
def isBlank (c : Char) : Bool :=
  c = ' ' || c = '\t' || c = '\n' || c = '\x0c' || c = '\r'

/-- A letter, an underscore or a dollar sign begins a name. -/
def startsName (c : Char) : Bool :=
  ('a' ≤ c && c ≤ 'z') || ('A' ≤ c && c ≤ 'Z') || c = '_' || c = '$'

/-- Digits may follow in a name. -/
def continuesName (c : Char) : Bool :=
  startsName c || Decimal.isDigit c

/-! ## Strings -/

/-- The character that a letter after a backslash stands for. -/
def escapeOf (c : Char) : Char :=
  if c = 'n' then '\n' else if c = 't' then '\t' else if c = 'r' then '\r'
  else if c = '0' then '\x00' else c

/-- A number in hexadecimal; a plus sign may stand before the digits. -/
def hexNumber? (cs : List Char) : Option Nat :=
  let ds := match cs with
    | '+' :: ds => ds
    | ds => ds
  if ds.isEmpty then none
  else ds.foldlM (fun n c => (Text.hexValue? c).map (16 * n + ·)) 0

/-- The character with a number, if there is one. -/
def charOf? (n : Nat) : Option Char :=
  if n.isValidChar then some (Char.ofNat n) else none

/-- The text of a string after its opening quote, and what follows the closing one. The string began
at `start`; `offset` is where the text at hand begins. -/
def stringBody (quote : Char) (start : Nat) (offset : Nat) :
    List Char → Except ParseError (List Char × List Char)
  | [] => .error ⟨start, .openString⟩
  | c :: cs =>
    if c = quote then .ok ([], cs)
    else if c = '\\' then
      match cs with
      | [] => .error ⟨offset, .openEscape⟩
      | 'u' :: h₁ :: h₂ :: h₃ :: h₄ :: rest =>
        match (hexNumber? [h₁, h₂, h₃, h₄]).bind charOf? with
        | some e => (stringBody quote start (offset + 6) rest).map fun r => (e :: r.1, r.2)
        | none => .error ⟨offset + 1, .badCode⟩
      | 'u' :: _ => .error ⟨offset + 1, .badCode⟩
      | e :: rest =>
        (stringBody quote start (offset + 1 + e.utf8Size) rest).map fun r =>
          (escapeOf e :: r.1, r.2)
    else (stringBody quote start (offset + c.utf8Size) cs).map fun r => (c :: r.1, r.2)

/-! ## Tokens -/

/-- An exponent at the front: a letter `e`, an optional sign and digits. Without digits there is
none. -/
def spanExponent (cs : List Char) : List Char × List Char :=
  match cs with
  | e :: rest =>
    if e = 'e' || e = 'E' then
      let (sign, rest) := match rest with
        | s :: rest' => if s = '+' || s = '-' then ([s], rest') else ([], rest)
        | [] => ([], [])
      let (ds, rest) := Decimal.spanDigits rest
      if ds.isEmpty then ([], cs) else (e :: sign ++ ds, rest)
    else ([], cs)
  | [] => ([], [])

/-- A number at the front. -/
def numberToken (offset : Nat) (cs : List Char) : Except ParseError (Kind × List Char) :=
  let body := cs.takeWhile fun c => Decimal.isDigit c || c = '.'
  let (exponent, rest) := spanExponent (cs.drop body.length)
  let text := body ++ exponent
  match Decimal.parseChars? text with
  | some x => .ok (.number x, rest)
  | none => .error ⟨offset, .badNumber (String.ofList text)⟩

/-- The longest sign at the front. -/
def sign? : List Char → Option (Kind × List Char)
  | '=' :: '=' :: '=' :: cs => some (.eqEqEq, cs)
  | '!' :: '=' :: '=' :: cs => some (.notEqEq, cs)
  | '=' :: '=' :: cs => some (.eqEq, cs)
  | '!' :: '=' :: cs => some (.notEq, cs)
  | '<' :: '=' :: cs => some (.ltEq, cs)
  | '>' :: '=' :: cs => some (.gtEq, cs)
  | '&' :: '&' :: cs => some (.andAnd, cs)
  | '|' :: '|' :: cs => some (.orOr, cs)
  | '*' :: '*' :: cs => some (.starStar, cs)
  | '(' :: cs => some (.lparen, cs)
  | ')' :: cs => some (.rparen, cs)
  | '[' :: cs => some (.lbracket, cs)
  | ']' :: cs => some (.rbracket, cs)
  | ',' :: cs => some (.comma, cs)
  | '.' :: cs => some (.dot, cs)
  | '?' :: cs => some (.question, cs)
  | ':' :: cs => some (.colon, cs)
  | '+' :: cs => some (.plus, cs)
  | '-' :: cs => some (.minus, cs)
  | '*' :: cs => some (.star, cs)
  | '/' :: cs => some (.slash, cs)
  | '%' :: cs => some (.percent, cs)
  | '!' :: cs => some (.bang, cs)
  | '<' :: cs => some (.lt, cs)
  | '>' :: cs => some (.gt, cs)
  | _ => none

/-- A number begins with a digit, or with a point before a digit. -/
def startsNumber : List Char → Bool
  | [] => false
  | c :: cs => Decimal.isDigit c || (c = '.' && (cs.head?.map Decimal.isDigit).getD false)

/-- **One token at the front** of a text that starts with `c`, and what follows it. -/
def next (offset : Nat) (c : Char) (cs : List Char) : Except ParseError (Kind × List Char) :=
  if startsNumber (c :: cs) then numberToken offset (c :: cs)
  else if startsName c then
    .ok (.ident (String.ofList ((c :: cs).takeWhile continuesName)),
      (c :: cs).dropWhile continuesName)
  else if c = '"' || c = '\'' then
    (stringBody c offset (offset + 1) cs).map fun r => (.str (String.ofList r.1), r.2)
  else
    match sign? (c :: cs) with
    | some r => .ok r
    | none => .error ⟨offset, .badCharacter c⟩

/-- The tokens of a text that begins at `offset`; `bound` is at least its length. -/
def tokensFrom : (bound offset : Nat) → List Char → Except ParseError (List Token)
  | _, offset, [] => .ok [⟨.eof, offset⟩]
  | 0, offset, c :: _ => .error ⟨offset, .badCharacter c⟩
  | bound + 1, offset, c :: cs =>
    if isBlank c then tokensFrom bound (offset + 1) cs
    else do
      let (kind, rest) ← next offset c cs
      let ts ← tokensFrom bound (offset + (Text.byteLength (c :: cs) - Text.byteLength rest)) rest
      return ⟨kind, offset⟩ :: ts

/-- **The tokens of a text.** -/
def tokens (text : String) : Except ParseError (List Token) :=
  let cs := text.toList
  tokensFrom cs.length 0 cs

end Reshape.Formula
