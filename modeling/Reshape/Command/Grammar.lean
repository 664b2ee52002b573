/-
# Reshape.Command.Grammar -- what a command line may hold

The program has five commands. A command takes operands, which are told apart by their places, and
switches, which go by their names. Some switches belong to every command and may stand before the
command, too. A switch is set or has a value.
-/

import Reshape.Calendar.Standard
import Reshape.Decimal.Notation
import Reshape.Decimal.Reader
import Reshape.Proposal.Basic
import Reshape.Survey.Basic

namespace Reshape.Command

/-! ## Values -/

/-- The kinds of values. -/
inductive ValueKind where
  | path
  | text
  | layout
  | size
  | float
  | instant
  deriving DecidableEq, Repr

/-- The layouts of the output. -/
inductive Layout where
  | pretty
  | compact
  deriving DecidableEq, Repr

/-- The layouts by their names. -/
def layouts : List (String × Layout) :=
  [("pretty", .pretty), ("compact", .compact)]

/-- **A text is a value of a kind.** -/
def ValueKind.accepts : ValueKind → String → Bool
  | .path, v => v != ""
  | .text, _ => true
  | .layout, v => (layouts.lookup v).isSome
  | .size, v => (Decimal.unsigned? v.toList).isSome
  | .float, v => (Decimal.parse? v).isSome
  | .instant, v => (Calendar.lenient v.toList).isOk

/-! ## Switches and operands -/

/-- What a switch stands for: a choice, a value, or a text that is shown in place of running a
command. -/
inductive Meaning where
  | flag
  | value (name : String) (kind : ValueKind)
  | values (name : String) (kind : ValueKind)
  | help
  | version
  deriving DecidableEq, Repr

/-- **A switch.** -/
structure Switch where
  long : String
  short : Option Char := none
  meaning : Meaning := .flag
  about : String
  deriving DecidableEq, Repr

/-- **An operand.** -/
structure Operand where
  name : String
  kind : ValueKind
  about : String
  deriving DecidableEq, Repr

/-- **What one part of a command line may hold.** -/
structure Level where
  operands : List Operand
  switches : List Switch
  deriving DecidableEq, Repr

/-- A description with the value that a switch has if it is not given. -/
def withDefault (about value : String) : String :=
  about ++ " [default: " ++ value ++ "]"

/-- The switches of every command. -/
def sharedSwitches : List Switch :=
  [{ long := "output", short := some 'o', meaning := .value "OUTPUT" .path
     about := "Output file (defaults to stdout if not specified)" },
    { long := "format", meaning := .value "FORMAT" .layout
      about := withDefault "Output format" "pretty" ++
        " [possible values: " ++ ", ".intercalate (layouts.map Prod.fst) ++ "]" },
    { long := "verbose", short := some 'v',
      about := "Enable verbose logging (sets log level to debug)" }]

/-- The switch that shows how a command is used. -/
def helpSwitch : Switch :=
  { long := "help", short := some 'h', meaning := .help, about := "Print help" }

/-- The switch that shows the version. -/
def versionSwitch : Switch :=
  { long := "version", short := some 'V', meaning := .version, about := "Print version" }

/-! ## Commands -/

/-- The commands. -/
inductive Verb where
  | apply
  | validate
  | extract
  | automap
  | transform
  deriving DecidableEq, Repr

namespace Verb

/-- All commands. -/
def all : List Verb :=
  [.apply, .validate, .extract, .automap, .transform]

/-- The name of a command. -/
def name : Verb → String
  | .apply => "apply"
  | .validate => "validate"
  | .extract => "extract"
  | .automap => "automap"
  | .transform => "transform"

/-- What a command does. -/
def about : Verb → String
  | .apply => "Map a source document through a mapping config"
  | .validate => "Check a mapping config; exits with status 1 when it has errors"
  | .extract => "List the addressable fields of a sample document"
  | .automap => "Propose mappings for unmapped template fields from a sample document"
  | .transform => "Run one transformation of a config over a JSON value"

/-- The operand for the plan. -/
def planOperand : Operand :=
  ⟨"CONFIG", .path, "Mapping config file"⟩

/-- **What a command takes**, apart from the shared switches. -/
def own : Verb → Level
  | .apply =>
    { operands := [planOperand, ⟨"SOURCE", .path, "Document for the primary source"⟩]
      switches :=
        [{ long := "source", meaning := .values "ID=FILE" .text
           about := "Additional source document as `<source-id>=<file>` (repeatable)" },
          { long := "no-template-defaults"
            about := "Do not fill template default values at unmapped paths" },
          { long := "timestamp", meaning := .value "TIMESTAMP" .instant
            about := "Pin the wrapper timestamp (RFC 3339) instead of reading the clock" }] }
  | .validate => { operands := [planOperand], switches := [] }
  | .extract =>
    { operands := [⟨"DOCUMENT", .path, "Sample document"⟩]
      switches :=
        [{ long := "primary-path", meaning := .value "PRIMARY_PATH" .text
           about := withDefault "Path to the iterable root inside the document" "" },
          { long := "max-depth", meaning := .value "MAX_DEPTH" .size
            about := withDefault "Max container depth to expand"
              (Decimal.natText ({} : Survey.Options).maxDepth) },
          { long := "fixed-indices", about := "Also expand concrete array indices" },
          { long := "max-array-indices", meaning := .value "MAX_ARRAY_INDICES" .size
            about := withDefault "Max concrete indices per array (with --fixed-indices)"
              (Decimal.natText ({} : Survey.Options).maxArrayIndices) },
          { long := "no-wildcards", about := "Do not generalize arrays as `field[*]`" },
          { long := "values", about := "Attach sample values to each field" }] }
  | .automap =>
    { operands := [planOperand, ⟨"SAMPLE", .path, "Sample document for the primary source"⟩]
      switches :=
        [{ long := "threshold", meaning := .value "THRESHOLD" .float
           about := withDefault "Minimum path similarity for a proposal (0.0 - 1.0)"
            (Decimal.plainText Proposal.defaultThreshold) },
          { long := "write"
            about := "Print the config with the proposals added instead of the proposals" }] }
  | .transform =>
    { operands :=
        [planOperand, ⟨"TRANSFORM_ID", .text, "Transformation id"⟩,
          ⟨"VALUE", .text, "Input value as JSON (e.g. '\"hello\"' or '42')"⟩]
      switches := [] }

end Verb

/-! ## Levels -/

/-- The key by which switches are put in order: the short name, else the long one. -/
def Switch.key (s : Switch) : String :=
  match s.short with
  | some c => String.ofList [c.toLower, if c.isLower then '0' else '1']
  | none => s.long

/-- Switches of two lists by turns. -/
def byTurns : List Switch → List Switch → List Switch
  | [], others => others
  | switches, [] => switches
  | s :: switches, t :: others =>
    if s.key < t.key then s :: t :: byTurns switches others else t :: s :: byTurns switches others

/-- What may stand before the command. -/
def firstLevel : Level :=
  { operands := [], switches := sharedSwitches ++ [helpSwitch, versionSwitch] }

/-- **What may stand after the command.** -/
def Verb.level (v : Verb) : Level :=
  { operands := v.own.operands
    switches := byTurns v.own.switches sharedSwitches ++ [helpSwitch] }

end Reshape.Command
