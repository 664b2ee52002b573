/-
# Reshape.Transform.Settings -- the settings of transformations

What each kind of transformation can be told, and the JSON form in which it is told. A setting that
is missing has a default. A record's name appears in messages only.
-/

import Reshape.Wire.Record

namespace Reshape.Transform

open Wire

/-- **A part of a text**: characters from `start` on, `length` of them at most. -/
structure Substring where
  start : Int := 0
  length : Option Int := none
  deriving DecidableEq, Repr

/-- The JSON form of a part of a text. -/
def Substring.shape : Shape Substring where
  name := "SubstringConfig"
  blank := {}
  fields :=
    [.defaulted "start" .int64 (·.start) (fun v r => { r with start := v }),
      .maybe "length" .int64 (·.length) (fun v r => { r with length := v })]

/-- **A replacement** of a text, or of what a pattern matches. -/
structure Replace where
  find : String := ""
  replaceWith : String := ""
  regex : Bool := false
  flags : Option String := none
  deriving DecidableEq, Repr

/-- The JSON form of a replacement. -/
def Replace.shape : Shape Replace where
  name := "ReplaceConfig"
  blank := {}
  fields :=
    [.defaulted "find" .string (·.find) (fun v r => { r with find := v }),
      (Field.defaulted "replaceWith" .string (·.replaceWith)
        (fun v r => { r with replaceWith := v })).orKey "replace",
      .defaulted "regex" .bool (·.regex) (fun v r => { r with regex := v }),
      .maybe "flags" .string (·.flags) (fun v r => { r with flags := v })]

/-- **What is put around and between texts.** -/
structure Concatenate where
  separator : String := ""
  front : Option String := none
  back : Option String := none
  deriving DecidableEq, Repr

/-- The JSON form of what is put around and between texts. -/
def Concatenate.shape : Shape Concatenate where
  name := "ConcatenateConfig"
  blank := {}
  fields :=
    [.defaulted "separator" .string (·.separator) (fun v r => { r with separator := v }),
      .maybe "prefix" .string (·.front) (fun v r => { r with front := v }),
      .maybe "suffix" .string (·.back) (fun v r => { r with back := v })]

/-- **One of the pieces** into which a delimiter divides a text. -/
structure Split where
  delimiter : String := ","
  index : Int := 0
  deriving DecidableEq, Repr

/-- The JSON form of a division. -/
def Split.shape : Shape Split where
  name := "SplitConfig"
  blank := {}
  fields :=
    [.defaulted "delimiter" .string (·.delimiter) (fun v r => { r with delimiter := v }),
      .defaulted "index" .int64 (·.index) (fun v r => { r with index := v })]

/-- **The look of a number.** -/
structure NumberFormat where
  decimals : Nat := 2
  thousandSeparator : Option String := none
  front : Option String := none
  back : Option String := none
  deriving DecidableEq, Repr

/-- The JSON form of the look of a number. -/
def NumberFormat.shape : Shape NumberFormat where
  name := "NumberFormatConfig"
  blank := {}
  fields :=
    [.defaulted "decimals" .nat32 (·.decimals) (fun v r => { r with decimals := v }),
      .maybe "thousandSeparator" .string (·.thousandSeparator)
        (fun v r => { r with thousandSeparator := v }),
      .maybe "prefix" .string (·.front) (fun v r => { r with front := v }),
      .maybe "suffix" .string (·.back) (fun v r => { r with back := v })]

/-- An arithmetic operation. -/
inductive Operation where
  | add
  | subtract
  | multiply
  | divide
  | modulo
  | power
  deriving DecidableEq, Repr

namespace Operation

/-- The operations with their names. -/
def table : List (String × Operation) :=
  [("add", .add), ("subtract", .subtract), ("multiply", .multiply), ("divide", .divide),
    ("modulo", .modulo), ("power", .power)]

/-- The name of an operation. -/
def name : Operation → String
  | .add => "add"
  | .subtract => "subtract"
  | .multiply => "multiply"
  | .divide => "divide"
  | .modulo => "modulo"
  | .power => "power"

end Operation

/-- **An operation with a fixed right side.** -/
structure Calculate where
  operation : Operation := .add
  value : Float := 0
  deriving DecidableEq

/-- The JSON form of an operation. -/
def Calculate.shape : Shape Calculate where
  name := "CalculateConfig"
  blank := {}
  fields :=
    [.defaulted "operation" (.oneOf Operation.table Operation.name) (·.operation)
        (fun v r => { r with operation := v }),
      .defaulted "value" .float (·.value) (fun v r => { r with value := v })]

/-- The JSON form of a number of decimals. -/
def Round.shape : Shape Nat where
  name := "RoundConfig"
  blank := 0
  fields := [.defaulted "decimals" .nat32 id (fun v _ => v)]

/-- **How a date is read and written.** -/
structure DateFormat where
  inputFormat : Option String := none
  outputFormat : String := "YYYY-MM-DD"
  deriving DecidableEq, Repr

/-- The JSON form of how a date is read and written. -/
def DateFormat.shape : Shape DateFormat where
  name := "DateFormatConfig"
  blank := {}
  fields :=
    [.maybe "inputFormat" .string (·.inputFormat) (fun v r => { r with inputFormat := v }),
      .defaulted "outputFormat" .string (·.outputFormat) (fun v r => { r with outputFormat := v })]

/-- A unit of time. -/
inductive DateUnit where
  | days
  | months
  | years
  | hours
  | minutes
  deriving DecidableEq, Repr

namespace DateUnit

/-- The units with their names. -/
def table : List (String × DateUnit) :=
  [("days", .days), ("months", .months), ("years", .years), ("hours", .hours),
    ("minutes", .minutes)]

/-- The name of a unit. -/
def name : DateUnit → String
  | .days => "days"
  | .months => "months"
  | .years => "years"
  | .hours => "hours"
  | .minutes => "minutes"

end DateUnit

/-- **An amount of time.** -/
structure DateAdd where
  amount : Int := 0
  unit : DateUnit := .days
  deriving DecidableEq, Repr

/-- The JSON form of an amount of time. -/
def DateAdd.shape : Shape DateAdd where
  name := "DateAddConfig"
  blank := {}
  fields :=
    [.defaulted "amount" .int64 (·.amount) (fun v r => { r with amount := v }),
      .defaulted "unit" (.oneOf DateUnit.table DateUnit.name) (·.unit)
        (fun v r => { r with unit := v })]

/-- The JSON form of an indentation. -/
def Stringify.shape : Shape Nat where
  name := "StringifyConfig"
  blank := 0
  fields := [.defaulted "indent" .size id (fun v _ => v)]

/-- **A table of values by their texts**, with what is taken when a text is not in it. -/
structure Lookup where
  table : Json := .null
  defaultValue : Option Json := none

/-- The JSON form of a table. -/
def Lookup.shape : Shape Lookup where
  name := "LookupConfig"
  blank := {}
  fields :=
    [.defaulted "lookupTable" .json (·.table) (fun v r => { r with table := v }),
      .present "defaultValue" (·.defaultValue) (fun v r => { r with defaultValue := v })]

/-- The JSON form of a formula. -/
def Custom.shape : Shape String where
  name := "CustomConfig"
  blank := ""
  fields := [.defaulted "expression" .string id (fun v _ => v)]

end Reshape.Transform
