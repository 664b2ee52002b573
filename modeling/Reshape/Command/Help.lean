/-
# Reshape.Command.Help -- how the program is used

The texts that are shown on demand: how the program or one of its commands is used, and the version.
They are laid out from the grammar. Descriptions stand beside what they describe, or, where a list
would become too wide for that, below it.
-/

import Reshape.Command.Arguments

namespace Reshape.Command

/-- The name by which the program is called. -/
def programName : String := "json-fieldmap"

/-- The version of the program. -/
def programVersion : String := "0.1.0"

/-- What the program does. -/
def programAbout : String :=
  "Apply declarative JSON field mappings and inspect their configs"

/-- The command that shows how the others are used. -/
def helpAbout : String :=
  "Print this message or the help of the given subcommand(s)"

/-! ## Lists -/

/-- Blanks. -/
def blanks (n : Nat) : String :=
  String.ofList (List.replicate n ' ')

/-- What is described, with its width and its description. -/
structure Entry where
  label : String
  width : Nat
  about : String

/-- The widest line. -/
def lineWidth : Nat := 100

/-- The width of the widest label. -/
def widest (es : List Entry) : Nat :=
  (es.map (·.width)).foldl max 2

/-- A list gets descriptions below its labels: labels take too much of the line for some
description. -/
def isWide (es : List Entry) : Bool :=
  let taken := widest es + 12
  100 * taken > 40 * lineWidth && es.any fun e => e.about.length > lineWidth - taken

/-- An entry of a list as text. -/
def Entry.text (wide : Bool) (width : Nat) (e : Entry) : String :=
  if wide then "  " ++ e.label ++ "\n" ++ blanks 10 ++ e.about
  else "  " ++ e.label ++ blanks (width + 2 - e.width) ++ e.about

/-- A list under its title. -/
def listText (title : String) (es : List Entry) : List String :=
  if es.isEmpty then []
  else
    [title ++ ":\n" ++ "\n".intercalate (es.map (Entry.text (isWide es) (widest es)))]

/-! ## Entries -/

/-- The name of a value behind a switch. -/
def Meaning.valueText : Meaning → String
  | .value name _ => " <" ++ name ++ ">"
  | .values name _ => " <" ++ name ++ ">"
  | _ => ""

/-- A switch in a list. Short names have a column of their own. -/
def Switch.entry (s : Switch) : Entry :=
  let long := "--" ++ s.long ++ s.meaning.valueText
  { label := (match s.short with
      | some c => "-" ++ String.singleton c ++ ", "
      | none => blanks 4) ++ long
    width := long.length
    about := s.about }

/-- An operand in a line that shows the use of a command. -/
def Operand.text (o : Operand) : String :=
  "<" ++ o.name ++ ">"

/-- An operand in a list. -/
def Operand.entry (o : Operand) : Entry :=
  ⟨o.text, o.text.length, o.about⟩

/-- A command in a list. -/
def Verb.entry (v : Verb) : Entry :=
  ⟨v.name, v.name.length, v.about⟩

/-! ## Texts -/

/-- A description, a line that shows the use, and lists. -/
def helpText (about : String) (use : List String) (lists : List String) : String :=
  about ++ "\n\nUsage: " ++ " ".intercalate (programName :: use) ++ "\n\n" ++
    "\n\n".intercalate lists ++ "\n"

/-- **How the program is used.** -/
def programHelp : String :=
  helpText programAbout ["[OPTIONS]", "<COMMAND>"]
    (listText "Commands" (Verb.all.map Verb.entry ++ [⟨"help", "help".length, helpAbout⟩]) ++
      listText "Options" (firstLevel.switches.map Switch.entry))

/-- **How a command is used.** -/
def Verb.help (v : Verb) : String :=
  helpText v.about ([v.name, "[OPTIONS]"] ++ v.level.operands.map Operand.text)
    (listText "Arguments" (v.level.operands.map Operand.entry) ++
      listText "Options" (v.level.switches.map Switch.entry))

/-- How the command is used that shows how the others are used. -/
def helpHelp : String :=
  let name := "[COMMAND]..."
  helpText helpAbout ["help", name]
    (listText "Arguments" [⟨name, name.length, "Print help for the subcommand(s)"⟩])

/-- **The text that is shown in place of running a command**, if there is one. -/
def Stop.text? : Stop → Option String
  | .misuse => none
  | .help none => some programHelp
  | .help (some v) => some v.help
  | .helpOnHelp => some helpHelp
  | .version => some (programName ++ " " ++ programVersion ++ "\n")

end Reshape.Command
