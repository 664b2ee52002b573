/-
# Reshape.Command.Arguments -- reading a command line

A command line is read from left to right, and the first word that does not fit settles that it is
refused. A word that begins with `-` and goes on names switches: one by its long name after `--`,
perhaps with a value after `=`, or several by their short names, of which the last one may have its
value right behind it. A value may also be the next word. After the word `--` all words are
operands. Only switches that take several values may be repeated; a shared switch may also stand on
both sides of the command, where the right one counts.
-/

import Reshape.Command.Grammar

namespace Reshape.Command

/-- Why no command is run. -/
inductive Stop where
  | misuse
  | help (verb : Option Verb)
  | helpOnHelp
  | version
  deriving DecidableEq, Repr

/-- **What was read of a level.** `given` has the switches with their values, the last one first; a
flag's value is empty. `pending` is a switch whose value is the next word. -/
structure Progress where
  given : List (String × String) := []
  operands : List String := []
  pending : Option Switch := none
  onlyOperands : Bool := false
  deriving DecidableEq, Repr

namespace Progress

/-- A switch was given. -/
def has (p : Progress) (s : Switch) : Bool :=
  (p.given.lookup s.long).isSome

/-- A switch is given with a value. -/
def add (p : Progress) (s : Switch) (value : String) : Progress :=
  { p with given := (s.long, value) :: p.given, pending := none }

/-- A value of a switch, right there or in the next word. -/
def takeValue (p : Progress) (s : Switch) (kind : ValueKind) : Option String → Except Stop Progress
  | some value => if kind.accepts value then .ok (p.add s value) else .error .misuse
  | none => .ok { p with pending := some s }

/-- Give the value that a switch waits for. -/
def complete (p : Progress) (s : Switch) (value : String) : Except Stop Progress :=
  match s.meaning with
  | .value _ kind => p.takeValue s kind (some value)
  | .values _ kind => p.takeValue s kind (some value)
  | _ => .error .misuse

/-- A switch is named; `attached` is the value that came with its name. -/
def name (verb : Option Verb) (p : Progress) (s : Switch) (attached : Option String) :
    Except Stop Progress :=
  match s.meaning, attached with
  | .flag, none => if p.has s then .error .misuse else .ok (p.add s "")
  | .help, none => .error (.help verb)
  | .version, none => .error .version
  | .value _ kind, attached => if p.has s then .error .misuse else p.takeValue s kind attached
  | .values _ kind, attached => p.takeValue s kind attached
  | _, some _ => .error .misuse

/-- The next operand. -/
def operand (level : Level) (p : Progress) (word : String) : Except Stop Progress :=
  match level.operands[p.operands.length]? with
  | some o =>
    if o.kind.accepts word then .ok { p with operands := p.operands ++ [word] } else .error .misuse
  | none => .error .misuse

end Progress

/-! ## Words -/

/-- A name, and the value after the first `=`. -/
def splitValue (cs : List Char) : String × Option String :=
  match Text.cut? ['='] cs with
  | some (before, after) => (String.ofList before, some (String.ofList after))
  | none => (String.ofList cs, none)

/-- Read a long name. -/
def readLong (verb : Option Verb) (level : Level) (p : Progress) (cs : List Char) :
    Except Stop Progress :=
  let (name, attached) := splitValue cs
  match level.switches.find? fun s => s.long == name with
  | some s => p.name verb s attached
  | none => .error .misuse

/-- A switch is set, and takes no value. -/
def Switch.standsAlone (s : Switch) : Bool :=
  match s.meaning with
  | .value _ _ => false
  | .values _ _ => false
  | _ => true

/-- What stands right behind a short name. -/
def attachedTo : List Char → Option String
  | [] => none
  | '=' :: cs => some (String.ofList cs)
  | cs => some (String.ofList cs)

/-- Read short names. -/
def readShort (verb : Option Verb) (level : Level) : Progress → List Char → Except Stop Progress
  | p, [] => .ok p
  | p, c :: cs =>
    match level.switches.find? fun s => s.short == some c with
    | some s =>
      if s.standsAlone then do
        let p ← p.name verb s none
        readShort verb level p cs
      else p.name verb s (attachedTo cs)
    | none => .error .misuse

/-- The word names switches. -/
def namesSwitches (word : String) : Bool :=
  match word.toList with
  | '-' :: _ :: _ => true
  | _ => false

/-- **Read a word.** -/
def readWord (verb : Option Verb) (level : Level) (p : Progress) (word : String) :
    Except Stop Progress :=
  if p.onlyOperands then p.operand level word
  else
    match p.pending with
    | some s => if namesSwitches word then .error .misuse else p.complete s word
    | none =>
      match word.toList with
      | ['-', '-'] => .ok { p with onlyOperands := true }
      | '-' :: '-' :: cs => readLong verb level p cs
      | '-' :: c :: cs => readShort verb level p (c :: cs)
      | _ => p.operand level word

/-- Read the words of a level. All operands have to be there. -/
def readLevel (verb : Option Verb) (level : Level) : Progress → List String → Except Stop Progress
  | p, [] =>
    if p.pending.isSome || p.operands.length < level.operands.length then .error .misuse else .ok p
  | p, word :: words => do
    let p ← readWord verb level p word
    readLevel verb level p words

/-! ## Lines -/

/-- **A command with its operands and switches.** What stands after the command comes first among
the switches. -/
structure Line where
  verb : Verb
  operands : List String
  given : List (String × String)
  deriving DecidableEq, Repr

/-- The command with a name. -/
def verbNamed? (name : String) : Option Verb :=
  Verb.all.find? fun v => v.name == name

/-- What the words after `help` ask for. -/
def helpOn : List String → Stop
  | [] => .help none
  | ["help"] => .helpOnHelp
  | [name] =>
    match verbNamed? name with
    | some v => .help (some v)
    | none => .misuse
  | _ => .misuse

/-- Read what stands before the command, and the rest after it. -/
def readFrom : Progress → List String → Except Stop Line
  | _, [] => .error .misuse
  | p, word :: words =>
    match p.pending.isNone && !p.onlyOperands, verbNamed? word with
    | true, some v => do
      let q ← readLevel (some v) v.level {} words
      return ⟨v, q.operands, q.given ++ p.given⟩
    | free, _ =>
      if free && word == "help" then .error (helpOn words)
      else do
        let p ← readWord none firstLevel p word
        readFrom p words

/-- **Read a command line.** -/
def readLine (words : List String) : Except Stop Line :=
  readFrom {} words

namespace Line

/-- The operand at a place. -/
def operand (l : Line) (place : Nat) : String :=
  (l.operands[place]?).getD ""

/-- The value of a switch. -/
def value? (l : Line) (long : String) : Option String :=
  l.given.lookup long

/-- The values of a switch that may be repeated, in order. -/
def values (l : Line) (long : String) : List String :=
  ((l.given.filter fun e => e.1 == long).map Prod.snd).reverse

/-- A flag is set. -/
def has (l : Line) (long : String) : Bool :=
  (l.value? long).isSome

end Line

end Reshape.Command
