/-
# Reshape.Formula.Function -- methods and functions of formulas

What can be called in a formula: the methods of strings, arrays and numbers, the functions of
`Math`, and the free functions. Positions and lengths count characters. A missing argument is
`undefined`, superfluous ones are ignored.
-/

import Reshape.Formula.Value
import Reshape.Formula.Term
import Reshape.Text.Case

namespace Reshape.Formula

/-- Why a formula has no value. -/
inductive EvalError where
  | noProperty (name type : String)
  | noStringMethod (method : Method)
  | noArrayMethod (method : Method)
  | noNumberMethod (method : Method)
  | notCallable (method : Method) (type : String)
  | badDigits
  deriving DecidableEq, Repr

/-- The message of an evaluation error. -/
def EvalError.message (e : EvalError) : String :=
  "Expression evaluation error: " ++ match e with
    | .noProperty name type => "cannot read property `" ++ name ++ "` of " ++ type
    | .noStringMethod m => "strings have no method `" ++ m.name ++ "`"
    | .noArrayMethod m => "arrays have no method `" ++ m.name ++ "`"
    | .noNumberMethod m => "numbers have no method `" ++ m.name ++ "`"
    | .notCallable m type => "cannot call `" ++ m.name ++ "` on " ++ type
    | .badDigits => "toFixed() digits must be between 0 and 100"

/-- The argument at a position. -/
def argument (args : List Value) (position : Nat) : Value :=
  (args[position]?).getD .undefined

/-! ## Bounds -/

/-- A bound of `slice`: negative numbers count from the end. -/
def sliceBound (v : Value) (length default : Nat) : Nat :=
  match v with
  | .undefined => default
  | v =>
    let x := v.toFloat
    if x.isNaN then 0
    else
      let x := Decimal.truncate x
      if x < 0 then Decimal.toCount (Float.ofNat length + x)
      else min (Decimal.toCount x) length

/-- A bound of `substring`: negative numbers count as zero. -/
def substringBound (v : Value) (length default : Nat) : Nat :=
  match v with
  | .undefined => default
  | v => min (Decimal.toCount v.toFloat) length

/-- The part of a list from one position up to another. -/
def segment {α : Type} (xs : List α) (start stop : Nat) : List α :=
  (xs.drop start).take (stop - start)

/-! ## Methods -/

/-- `split`: at every occurrence of a text, between all characters for the empty text. -/
def splitText (s : List Char) (separator : Value) : List Value :=
  match separator with
  | .undefined => [.str s]
  | sep =>
    let pattern := sep.toText
    if pattern.isEmpty then s.map fun c => .str [c] else (Text.split pattern s).map .str

/-- No more values than a limit says. -/
def limited (limit : Value) (values : List Value) : List Value :=
  match limit with
  | .undefined => values
  | limit => values.take (Decimal.toCount limit.toFloat)

/-- A method of a string. -/
def stringMethod (s : List Char) (m : Method) (args : List Value) : Except EvalError Value :=
  let text (i : Nat) := (argument args i).toText
  match m with
  | .toUpperCase => .ok (.str (Text.upper s))
  | .toLowerCase => .ok (.str (Text.lower s))
  | .trim => .ok (.str (Text.trim s))
  | .toString => .ok (.str s)
  | .includes => .ok (.bool (Text.contains (text 0) s))
  | .startsWith => .ok (.bool ((text 0).isPrefixOf s))
  | .endsWith => .ok (.bool (Text.endsWith (text 0) s))
  | .indexOf =>
    .ok (.num (match Text.find? (text 0) s with
      | some n => Float.ofNat n
      | none => -1))
  | .slice =>
    let start := sliceBound (argument args 0) s.length 0
    let stop := sliceBound (argument args 1) s.length s.length
    .ok (.str (segment s start stop))
  | .substring =>
    let a := substringBound (argument args 0) s.length 0
    let b := substringBound (argument args 1) s.length s.length
    .ok (.str (segment s (min a b) (max a b)))
  | .split => .ok (.array (limited (argument args 1) (splitText s (argument args 0))))
  | .replace => .ok (.str (Text.replaceFirst (text 0) (text 1) s))
  | .join => .error (.noStringMethod .join)
  | .toFixed => .error (.noStringMethod .toFixed)

/-- Equality for `includes`, which finds not-a-number, too. -/
def sameForSearch (a b : Value) : Bool :=
  a.strictEq b || match a, b with
    | .num x, .num y => x.isNaN && y.isNaN
    | _, _ => false

/-- A method of an array. -/
def arrayMethod (items : List Value) (m : Method) (args : List Value) : Except EvalError Value :=
  let wanted := argument args 0
  match m with
  | .includes => .ok (.bool (items.any fun v => sameForSearch v wanted))
  | .indexOf =>
    .ok (.num (match items.findIdx? fun v => v.strictEq wanted with
      | some n => Float.ofNat n
      | none => -1))
  | .join =>
    let sep := match wanted with
      | .undefined => [',']
      | v => v.toText
    .ok (.str (Text.join sep (Value.itemTexts items)))
  | .slice =>
    let start := sliceBound wanted items.length 0
    let stop := sliceBound (argument args 1) items.length items.length
    .ok (.array (segment items start stop))
  | .toString => .ok (.str (Value.array items).toText)
  | m => .error (.noArrayMethod m)

/-- A method of a number. -/
def numberMethod (x : Float) (m : Method) (args : List Value) : Except EvalError Value :=
  match m with
  | .toString => .ok (.str (Decimal.readableText x).toList)
  | .toFixed =>
    let digits := match argument args 0 with
      | .undefined => 0
      | v => Decimal.truncate v.toFloat
    if !(0 ≤ digits && digits ≤ 100) then .error .badDigits
    else if !x.isFinite then .ok (.str (Decimal.readableText x).toList)
    else .ok (.str (Decimal.fixedText (Decimal.toCount digits) x).toList)
  | m => .error (.noNumberMethod m)

/-- **Call a method.** -/
def callMethod (receiver : Value) (m : Method) (args : List Value) : Except EvalError Value :=
  match receiver, m with
  | .str s, m => stringMethod s m args
  | .array items, m => arrayMethod items m args
  | .num x, m => numberMethod x m args
  | .bool b, .toString => .ok (.str (Json.boolText b).toList)
  | v, m => .error (.notCallable m v.typeName)

/-! ## Functions -/

/-- The extreme of numbers; one that is not a number spoils all. -/
def extreme (start : Float) (better : Float → Float → Bool) (xs : List Float) : Float :=
  xs.foldl (fun acc x =>
    if x.isNaN || acc.isNaN then Value.nan else if better x acc then x else acc) start

/-- **A function of `Math`.** -/
def callMath (f : MathFunction) (args : List Value) : Float :=
  let x := (argument args 0).toFloat
  match f with
  | .round => Decimal.floor (x + 0.5)
  | .floor => Decimal.floor x
  | .ceil => Decimal.ceiling x
  | .abs => x.abs
  | .sqrt => x.sqrt
  | .pow => x.pow (argument args 1).toFloat
  | .min => extreme Value.infinity (fun x acc => x < acc) (args.map Value.toFloat)
  | .max => extreme (-Value.infinity) (fun x acc => acc < x) (args.map Value.toFloat)

/-- The value of a digit of any base up to 36. -/
def digitOf? (base : Nat) (c : Char) : Option Nat :=
  let l := Decimal.lowerAscii c
  let value? :=
    if Decimal.isDigit c then some (Decimal.digitValue c)
    else if 'a' ≤ l && l ≤ 'z' then some (l.toNat - 'a'.toNat + 10)
    else none
  value?.filter (· < base)

/-- The leading digits of a base. -/
def leadingDigits (base : Nat) : List Char → List Nat
  | [] => []
  | c :: cs =>
    match digitOf? base c with
    | some d => d :: leadingDigits base cs
    | none => []

/-- The base that a text with `0x` at its front has, and what follows. -/
def spanBase (base : Option Nat) (cs : List Char) : Nat × List Char :=
  let explicit := base.getD 10
  if base = none || base = some 16 then
    match cs with
    | '0' :: 'x' :: rest => (16, rest)
    | '0' :: 'X' :: rest => (16, rest)
    | cs => (explicit, cs)
  else (explicit, cs)

/-- The integer at the front of a text. -/
def parseInt (text : List Char) (base : Option Nat) : Float :=
  let (negative, cs) := Decimal.spanSign (Text.trimStart text)
  let (base, cs) := spanBase base cs
  if base < 2 || 36 < base then Value.nan
  else
    match leadingDigits base cs with
    | [] => Value.nan
    | ds =>
      let x := ds.foldl (fun acc d => acc * Float.ofNat base + Float.ofNat d) 0
      if negative then -x else x

/-- The base that an argument asks for: none when it is missing, zero, or not a number. -/
def baseOf (v : Value) : Option Nat :=
  match v with
  | .undefined => none
  | v =>
    let x := v.toFloat
    if x.isNaN || x == 0 then none else some (Decimal.clampToInt 0 (Decimal.twoTo 32 - 1) x).toNat

/-- The decimal at the front of a text, without its sign: digits with at most one point, and an
exponent if it has digits. -/
def leadingDecimal (cs : List Char) : List Char :=
  let (whole, rest) := Decimal.spanDigits cs
  let (point, rest) := match rest with
    | '.' :: rest => (['.'], rest)
    | rest => ([], rest)
  let (fraction, rest) := if point.isEmpty then ([], rest) else Decimal.spanDigits rest
  if whole.isEmpty && fraction.isEmpty then []
  else
    let exponent := match rest with
      | e :: rest =>
        if e = 'e' || e = 'E' then
          let (sign, rest) := match rest with
            | s :: rest' => if s = '+' || s = '-' then ([s], rest') else ([], rest)
            | [] => ([], [])
          let ds := rest.takeWhile Decimal.isDigit
          if ds.isEmpty then [] else e :: sign ++ ds
        else []
      | [] => []
    whole ++ point ++ fraction ++ exponent

/-- The number at the front of a text. -/
def parseFloat (text : List Char) : Float :=
  let cs := Text.trimStart text
  let (negative, rest) := Decimal.spanSign cs
  let x :=
    if "Infinity".toList.isPrefixOf rest then Value.infinity
    else ((Decimal.parseChars? (leadingDecimal rest)).getD Value.nan)
  if negative then -x else x

/-- **A free function.** -/
def callFree (f : FreeFunction) (args : List Value) : Value :=
  let first := argument args 0
  match f with
  | .number => .num (if args.isEmpty then 0 else first.toFloat)
  | .string => .str (if args.isEmpty then [] else first.toText)
  | .boolean => .bool first.truthy
  | .parseInt => .num (parseInt first.toText (baseOf (argument args 1)))
  | .parseFloat => .num (parseFloat first.toText)
  | .isNaN => .bool first.toFloat.isNaN

end Reshape.Formula
