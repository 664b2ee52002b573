/-
# Reshape.Transform.Check -- objections to transformations

What can be said against a transformation before it is applied. The check is stricter than
application: dividing by zero has a result, but is objected to.
-/

import Reshape.Transform.Apply

namespace Reshape.Transform

/-- **An objection to a transformation.** -/
inductive Objection where
  | negativeStart
  | negativeLength
  | nothingToFind
  | badPattern (fault : Pattern.Fault)
  | unknownFlag (flag : Char)
  | noDelimiter
  | negativeIndex
  | manyDecimals
  | notFinite
  | divisionByZero
  | noFormat
  | wideIndent
  | emptyTable
  | noExpression
  | fault (cause : Fault)

/-- The message of an objection. -/
def Objection.message : Objection → String
  | .negativeStart => "Start index must be non-negative"
  | .negativeLength => "Length must be non-negative"
  | .nothingToFind => "Find value is required"
  | .badPattern f => "Invalid regular expression: " ++ f.message
  | .unknownFlag flag => "Unsupported regex flag `" ++ String.singleton flag ++ "`"
  | .noDelimiter => "Delimiter is required"
  | .negativeIndex => "Index must be non-negative"
  | .manyDecimals => "Decimals must be between 0 and " ++ Decimal.natText maxDecimals
  | .notFinite => "Operand must be a finite number"
  | .divisionByZero => "Cannot divide by zero"
  | .noFormat => "Output format is required"
  | .wideIndent => "Indent must be between 0 and " ++ Decimal.natText maxIndent
  | .emptyTable => "Lookup table must have at least one entry"
  | .noExpression => "Expression is required"
  | .fault cause => cause.message

/-- An objection, if there is reason for it. -/
def objectIf (reason : Bool) (o : Objection) : List Objection :=
  if reason then [o] else []

/-- Nothing but blanks. -/
def isBlankText (s : String) : Bool :=
  (Text.trim s.toList).isEmpty

/-- Objections to what a replacement looks for; flags do not matter here. -/
def Replace.findObjections (s : Replace) : List Objection :=
  if s.find.isEmpty then [.nothingToFind]
  else if s.regex then
    match Pattern.ofText {} s.find with
    | .ok _ => []
    | .error fault => [.badPattern fault]
  else []

/-- The flags of a replacement. -/
def Replace.knownFlags : List Char := ['g', 'i', 'm', 's']

/-- An objection to the first flag that is not known. -/
def Replace.flagObjections (s : Replace) : List Objection :=
  match (s.flags.getD "").toList.find? fun c => !knownFlags.contains c with
  | some c => [.unknownFlag c]
  | none => []

/-- **The objections to a transformation.** -/
def objections (t : Transform) : List Objection :=
  match t with
  | .substring s =>
    objectIf (s.start < 0) .negativeStart ++ objectIf (s.length.any (· < 0)) .negativeLength
  | .replace s => s.findObjections ++ s.flagObjections
  | .split s => objectIf s.delimiter.isEmpty .noDelimiter ++ objectIf (s.index < 0) .negativeIndex
  | .numberFormat s => objectIf (maxDecimals < s.decimals) .manyDecimals
  | .round decimals => objectIf (maxDecimals < decimals) .manyDecimals
  | .calculate s =>
    objectIf (!s.value.isFinite) .notFinite ++
      objectIf (s.value == 0 && (s.operation == .divide || s.operation == .modulo)) .divisionByZero
  | .dateFormat s => objectIf (isBlankText s.outputFormat) .noFormat
  | .stringify indent => objectIf (maxIndent < indent) .wideIndent
  | .lookup s =>
    match s.entries with
    | .ok ms => objectIf ms.isEmpty .emptyTable
    | .error flaw => [.fault (.badTable flaw)]
  | .custom expression =>
    if isBlankText expression then [.noExpression]
    else
      match Formula.Term.ofText expression with
      | .ok _ => []
      | .error e => [.fault (.noFormula e)]
  | .undecoded _ _ cause => [.fault cause]
  | _ => []

/-- The objections to settings of a kind, or why they cannot be read. -/
def objectionsTo (kind : String) (config : Json) : List Objection :=
  match ofParts kind config with
  | .ok t => t.objections
  | .error cause => [.fault cause]

end Reshape.Transform
