/-
# Reshape.Transform.Apply -- applying transformations

`tryApply` transforms a value or says why it cannot; `apply` leaves the value as it is then, so that
one bad transformation never spoils the rest.
-/

import Reshape.Transform.Basic
import Reshape.Transform.Text
import Reshape.Transform.Number
import Reshape.Transform.Date
import Reshape.Transform.Lookup
import Reshape.Formula.Eval

namespace Reshape.Transform

/-- The widest indentation. -/
def maxIndent : Nat := 10

/-- The value of a JSON text; anything but a string is its own value. -/
def parsed : Json → Except Fault Json
  | .str s => (Wire.Text.parse s).mapError fun _ => .unreadable s
  | value => .ok value

/-- The JSON text of a value; without an indentation it is compact. -/
def stringified (indent : Nat) (value : Json) : String :=
  if indent = 0 then value.compact else value.pretty (min indent maxIndent)

/-- **The value of a formula for an input.** -/
def evaluate (expression : String) (value : Json) : Except Fault Json :=
  match Formula.Term.ofText expression with
  | .error e => .error (.noFormula e)
  | .ok t =>
    match t.eval (.ofJson value) with
    | .ok v => .ok v.toJson
    | .error e => .error (.noValue e)

/-- **Transform a value, or say why not.** -/
def tryApply (t : Transform) (value : Json) : Except Fault Json :=
  match t with
  | .uppercase => .ok (mapText Text.upper value)
  | .lowercase => .ok (mapText Text.lower value)
  | .capitalize => .ok (mapText capitalizeWords value)
  | .trim => .ok (mapText Text.trim value)
  | .substring s => .ok (mapText s.of value)
  | .replace s => s.of value
  | .concatenate s => .ok (s.of value)
  | .split s => .ok (mapText s.of value)
  | .numberFormat s => .ok (s.of value)
  | .calculate s => s.of value
  | .round decimals => .ok (mapNumber (roundTo decimals) value)
  | .ceil => .ok (mapNumber Decimal.ceiling value)
  | .floor => .ok (mapNumber Decimal.floor value)
  | .dateFormat s => s.of value
  | .dateAdd s => s.of value
  | .parseJson => parsed value
  | .stringify indent => .ok (.str (stringified indent value))
  | .lookup s => s.of value
  | .custom expression => evaluate expression value
  | .undecoded kind _ cause => .error (.undecoded kind cause)

/-- **Transform a value**, or leave it as it is. -/
def apply (t : Transform) (value : Json) : Json :=
  match t.tryApply value with
  | .ok result => result
  | .error _ => value

/-- Apply transformations one after the other. -/
def applyAll (ts : List Transform) (value : Json) : Json :=
  ts.foldl (fun v t => t.apply v) value

end Reshape.Transform
