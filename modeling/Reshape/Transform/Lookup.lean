/-
# Reshape.Transform.Lookup -- tables of values

A table is an object, or a string that holds one as JSON text; null is the empty table. A value is
looked up by the text that a user reads.
-/

import Reshape.Transform.Settings
import Reshape.Transform.Fault
import Reshape.Json.Loose
import Reshape.Wire.Text

namespace Reshape.Transform

/-- **The members of a table.** -/
def Lookup.entries (s : Lookup) : Except TableFlaw Members :=
  match s.table with
  | .obj ms => .ok ms
  | .null => .ok []
  | .str text =>
    match Wire.Text.parse text with
    | .ok (.obj ms) => .ok ms
    | .ok _ => .error .textOfNoObject
    | .error _ => .error (.unreadable text)
  | _ => .error .noObject

/-- What is taken for a value that is not in the table: the default, unless it is null, or the
value. -/
def Lookup.otherwise (s : Lookup) (value : Json) : Json :=
  (s.defaultValue.filter (!·.isNull)).getD value

/-- **Look a value up.** -/
def Lookup.of (s : Lookup) (value : Json) : Except Fault Json :=
  match s.entries with
  | .error flaw => .error (.badTable flaw)
  | .ok ms => .ok ((ms.get? value.display).getD (s.otherwise value))

end Reshape.Transform
