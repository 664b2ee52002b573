/-
# Reshape.Wire.Flaw -- why a document does not decode

The causes for which JSON is refused as a value of some type, with one message for each. `malformed`
stands for text that is no JSON at all, or breaks off; all others are about well-formed JSON of the
wrong shape.
-/

import Reshape.Json.Printer

namespace Reshape.Wire

/-- What was found where something else was wanted. -/
inductive Found where
  | null
  | bool (value : Bool)
  | int (value : Int)
  | float (value : Float)
  | string (value : String)
  | sequence
  | map
  deriving DecidableEq

/-- The description of what was found. -/
def Found.text : Found → String
  | .null => "null"
  | .bool true => "boolean `true`"
  | .bool false => "boolean `false`"
  | .int n => "integer `" ++ Decimal.intText n ++ "`"
  | .float x => "floating point `" ++ Decimal.jsonText x ++ "`"
  | .string s => "string " ++ Text.quoted s
  | .sequence => "sequence"
  | .map => "map"

/-- **Why a document does not decode.** -/
inductive Flaw where
  | malformed
  | wrongType (found : Found) (wanted : String)
  | wrongValue (found : Found) (wanted : String)
  | tooShort (length : Nat) (record : String) (fields : Nat)
  | tooLong (length : Nat)
  | missing (field : String)
  | duplicate (field : String)
  | unknownVariant (name : String) (known : List String)
  | unreadable (why : String)
  deriving DecidableEq

/-- A name between backquotes. -/
def backquoted (name : String) : String :=
  "`" ++ name ++ "`"

/-- The names of which one was expected. -/
def alternatives : List String → String
  | [a] => backquoted a
  | [a, b] => backquoted a ++ " or " ++ backquoted b
  | names => "one of " ++ ", ".intercalate (names.map backquoted)

/-- **The message of a flaw.** -/
def Flaw.message : Flaw → String
  | .malformed => "malformed document"
  | .wrongType found wanted => "invalid type: " ++ found.text ++ ", expected " ++ wanted
  | .wrongValue found wanted => "invalid value: " ++ found.text ++ ", expected " ++ wanted
  | .tooShort n record fields =>
    "invalid length " ++ Decimal.natText n ++ ", expected struct " ++ record ++ " with " ++
      Decimal.natText fields ++ (if fields = 1 then " element" else " elements")
  | .tooLong n => "invalid length " ++ Decimal.natText n ++ ", expected fewer elements in array"
  | .missing field => "missing field " ++ backquoted field
  | .duplicate field => "duplicate field " ++ backquoted field
  | .unknownVariant name known =>
    "unknown variant " ++ backquoted name ++ ", expected " ++ alternatives known
  | .unreadable why => why

end Reshape.Wire
