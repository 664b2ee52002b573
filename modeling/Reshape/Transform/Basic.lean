/-
# Reshape.Transform.Basic -- transformations

A `Transform` is a kind of transformation with its settings. In JSON it is the name of the kind and
an object with the settings. One that cannot be read is kept as it came, with the reason: it changes
nothing when applied, and is written back unchanged.
-/

import Reshape.Transform.Fault

namespace Reshape

/-- **A transformation of single values.** -/
inductive Transform where
  | uppercase
  | lowercase
  | capitalize
  | trim
  | substring (settings : Transform.Substring)
  | replace (settings : Transform.Replace)
  | concatenate (settings : Transform.Concatenate)
  | split (settings : Transform.Split)
  | numberFormat (settings : Transform.NumberFormat)
  | calculate (settings : Transform.Calculate)
  | round (decimals : Nat)
  | ceil
  | floor
  | dateFormat (settings : Transform.DateFormat)
  | dateAdd (settings : Transform.DateAdd)
  | parseJson
  | stringify (indent : Nat)
  | lookup (settings : Transform.Lookup)
  | custom (expression : String)
  | undecoded (kind : String) (config : Json) (cause : Transform.Fault)

namespace Transform

/-- The name of the kind. -/
def kind : Transform → String
  | .uppercase => "uppercase"
  | .lowercase => "lowercase"
  | .capitalize => "capitalize"
  | .trim => "trim"
  | .substring _ => "substring"
  | .replace _ => "replace"
  | .concatenate _ => "concatenate"
  | .split _ => "split"
  | .numberFormat _ => "number_format"
  | .calculate _ => "calculate"
  | .round _ => "round"
  | .ceil => "ceil"
  | .floor => "floor"
  | .dateFormat _ => "date_format"
  | .dateAdd _ => "date_add"
  | .parseJson => "parse_json"
  | .stringify _ => "stringify"
  | .lookup _ => "lookup"
  | .custom _ => "custom"
  | .undecoded kind _ _ => kind

/-- The settings in JSON. -/
def config : Transform → Json
  | .substring s => Substring.shape.encode s
  | .replace s => Replace.shape.encode s
  | .concatenate s => Concatenate.shape.encode s
  | .split s => Split.shape.encode s
  | .numberFormat s => NumberFormat.shape.encode s
  | .calculate s => Calculate.shape.encode s
  | .round decimals => Round.shape.encode decimals
  | .dateFormat s => DateFormat.shape.encode s
  | .dateAdd s => DateAdd.shape.encode s
  | .stringify indent => Stringify.shape.encode indent
  | .lookup s => Lookup.shape.encode s
  | .custom expression => Custom.shape.encode expression
  | .undecoded _ config _ => config
  | _ => .obj []

/-- Read settings of a kind. -/
def readSettings {α : Type} (kind : String) (shape : Wire.Shape α) (make : α → Transform)
    (config : Json) :
    Except Fault Transform :=
  match shape.ofJson config with
  | .ok settings => .ok (make settings)
  | .error flaw => .error (.undecodable kind flaw)

/-- The kinds, by their names, with what reads their settings. Kinds without settings take any. -/
def readers : List (String × (Json → Except Fault Transform)) :=
  [("uppercase", fun _ => .ok .uppercase),
    ("lowercase", fun _ => .ok .lowercase),
    ("capitalize", fun _ => .ok .capitalize),
    ("trim", fun _ => .ok .trim),
    ("substring", readSettings "substring" Substring.shape .substring),
    ("replace", readSettings "replace" Replace.shape .replace),
    ("concatenate", readSettings "concatenate" Concatenate.shape .concatenate),
    ("split", readSettings "split" Split.shape .split),
    ("number_format", readSettings "number_format" NumberFormat.shape .numberFormat),
    ("calculate", readSettings "calculate" Calculate.shape .calculate),
    ("round", readSettings "round" Round.shape .round),
    ("ceil", fun _ => .ok .ceil),
    ("floor", fun _ => .ok .floor),
    ("date_format", readSettings "date_format" DateFormat.shape .dateFormat),
    ("date_add", readSettings "date_add" DateAdd.shape .dateAdd),
    ("parse_json", fun _ => .ok .parseJson),
    ("stringify", readSettings "stringify" Stringify.shape .stringify),
    ("lookup", readSettings "lookup" Lookup.shape .lookup),
    ("custom", readSettings "custom" Custom.shape .custom)]

/-- **The transformation of a kind with settings**; null stands for none. -/
def ofParts (kind : String) (config : Json) : Except Fault Transform :=
  match readers.lookup kind with
  | some read => read (if config.isNull then .obj [] else config)
  | none => .error (.unknownKind kind)

/-- **The transformation of a kind with settings, kept as it is if it cannot be read.** -/
def keep (kind : String) (config : Json) : Transform :=
  match ofParts kind config with
  | .ok t => t
  | .error cause => .undecoded kind config cause

/-- The transformation could not be read. -/
def isUndecoded : Transform → Bool
  | .undecoded _ _ _ => true
  | _ => false

/-- Equality: the same kind, and settings of equal values. -/
def same (a b : Transform) : Bool :=
  a.kind == b.kind && a.isUndecoded == b.isUndecoded && a.config.same b.config

end Transform

end Reshape
