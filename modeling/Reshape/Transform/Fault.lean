/-
# Reshape.Transform.Fault -- why a transformation has no result

The causes for which a transformation cannot be read, or cannot be applied to a value, with one
message for each.
-/

import Reshape.Transform.Settings
import Reshape.Pattern.Flaw
import Reshape.Formula.Function
import Reshape.Formula.Token
import Reshape.Wire.Complaint

namespace Reshape.Transform

/-- What is wrong with a lookup table. -/
inductive TableFlaw where
  | noObject
  | textOfNoObject
  | unreadable (text : String)

/-- The message of a flaw in a lookup table. -/
def TableFlaw.message : TableFlaw → String
  | .noObject => "lookupTable must be an object"
  | .textOfNoObject => "lookupTable string must encode an object"
  | .unreadable text => "lookupTable is not valid JSON: " ++ Wire.Complaint.about text

/-- **Why a transformation has no result.** -/
inductive Fault where
  | unknownKind (kind : String)
  | undecodable (kind : String) (flaw : Wire.Flaw)
  | undecoded (kind : String) (cause : Fault)
  | badTable (flaw : TableFlaw)
  | badPattern (find : String) (fault : Pattern.Fault)
  | notFinite (operation : Operation) (left right : Float)
  | noDate (kind : String) (value : Json)
  | beyondCalendar (amount : Int) (unit : DateUnit)
  | unreadable (text : String)
  | noFormula (error : Formula.ParseError)
  | noValue (error : Formula.EvalError)

/-- The class of a fault, as callers tell faults apart. -/
inductive FaultCode where
  | unknownTransformType
  | invalidTransformConfig
  | transformFailed
  | expressionParseError
  | expressionEvalError
  deriving DecidableEq, Repr

/-- The name of a class. -/
def FaultCode.name : FaultCode → String
  | .unknownTransformType => "unknown_transform_type"
  | .invalidTransformConfig => "invalid_transform_config"
  | .transformFailed => "transform_failed"
  | .expressionParseError => "expression_parse_error"
  | .expressionEvalError => "expression_eval_error"

/-- **The class of a fault.** -/
def Fault.code : Fault → FaultCode
  | .unknownKind _ => .unknownTransformType
  | .undecodable _ _ => .invalidTransformConfig
  | .undecoded _ _ => .invalidTransformConfig
  | .badTable _ => .invalidTransformConfig
  | .badPattern _ _ => .transformFailed
  | .notFinite _ _ _ => .transformFailed
  | .noDate _ _ => .transformFailed
  | .beyondCalendar _ _ => .transformFailed
  | .unreadable _ => .transformFailed
  | .noFormula _ => .expressionParseError
  | .noValue _ => .expressionEvalError

/-- A word with a capital. -/
def capitalized (word : String) : String :=
  match word.toList with
  | c :: cs => String.ofList (c.toUpper :: cs)
  | [] => ""

/-- The message for settings that do not fit. -/
def unfit (kind why : String) : String :=
  "Invalid config for `" ++ kind ++ "` transformation: " ++ why

/-- The message for a transformation that failed. -/
def failed (kind why : String) : String :=
  "`" ++ kind ++ "` transformation failed: " ++ why

/-- **The message of a fault.** -/
def Fault.message : Fault → String
  | .unknownKind kind => "Unknown transformation type: " ++ kind
  | .undecodable kind flaw => unfit kind flaw.message
  | .undecoded kind cause => unfit kind cause.message
  | .badTable flaw => unfit "lookup" flaw.message
  | .badPattern find fault =>
    failed "replace" ("invalid pattern `" ++ find ++ "`: " ++ fault.message)
  | .notFinite operation left right =>
    failed "calculate" (capitalized operation.name ++ " of " ++ Decimal.plainText left ++ " and " ++
      Decimal.plainText right ++ " is not a finite number")
  | .noDate kind value => failed kind ("cannot parse " ++ value.compact ++ " as a date")
  | .beyondCalendar amount unit =>
    failed "date_add" ("adding " ++ Decimal.intText amount ++ " " ++ capitalized unit.name ++
      " overflows the calendar")
  | .unreadable text => failed "parse_json" (Wire.Complaint.about text)
  | .noFormula error => error.message
  | .noValue error => error.message

end Reshape.Transform
