/-
# Reshape.Pattern.Reading -- the tree of a text

Reads a pattern front to back. `Modes` say how the characters at hand are meant; they are set from
outside, by `(?flags)` for the rest of a group, and by `(?flags:...)` for a group. Groups are
numbered in the order of their opening parentheses.

What is refused, among others: look-around, references to groups, escapes of letters without a
meaning, repetitions of nothing, and properties that are not known.

A place in the text is the list of characters that are left. The recursion runs on a bound that the
length of the text provides.
-/

import Reshape.Pattern.Syntax
import Reshape.Pattern.Flaw
import Reshape.Decimal.Reader

namespace Reshape.Pattern

/-- **How characters are meant.** -/
structure Modes where
  ignoreCase : Bool := false
  multiLine : Bool := false
  dotAll : Bool := false
  swapGreed : Bool := false
  verbose : Bool := false
  returns : Bool := false
  unicode : Bool := true
  deriving DecidableEq, Repr, Inhabited

/-- What is left of the text. -/
abbrev Rest := List Char

/-- A flaw and its spot, by the numbers of characters left at its start and its end; `earlier` is
the spot that it repeats. -/
structure Spot where
  flaw : Flaw
  start : Nat
  stop : Nat
  earlier : Option (Nat × Nat)

/-- Refuse the text between two places. -/
def refuse {α : Type} (flaw : Flaw) (start stop : Rest) : Except Spot α :=
  .error ⟨flaw, start.length, stop.length, none⟩

/-- Refuse the text between two places since it repeats some characters; `left` were left before
these. -/
def refuseRepeated {α : Type} (flaw : Flaw) (start stop : Rest) (left : Nat) : Except Spot α :=
  .error ⟨flaw, start.length, stop.length, some (left, left - (start.length - stop.length))⟩

/-- Refuse the next character. -/
def refuseNext {α : Type} (flaw : Flaw) (cs : Rest) : Except Spot α :=
  refuse flaw cs cs.tail

/-! ## Blanks -/

/-- Drop the rest of a comment, up to the end of its line. -/
def dropComment (cs : Rest) : Rest :=
  (cs.dropWhile (· ≠ '\n')).tail

/-- Drop blanks and comments, if the mode says so. -/
def skip (m : Modes) (cs : Rest) : Rest :=
  if m.verbose then go cs.length cs else cs
where
  go : (bound : Nat) → Rest → Rest
    | 0, cs => cs
    | bound + 1, cs =>
      match cs.dropWhile Text.isBlank with
      | '#' :: cs => go bound (dropComment cs)
      | cs => cs

/-- Pass over one character and the blanks behind it. -/
def pass (m : Modes) (cs : Rest) : Rest :=
  skip m cs.tail

/-! ## Escapes -/

/-- What a single item of a pattern stands for. -/
inductive Primitive where
  | char (c : Char)
  | set (s : CharSet)
  | look (l : Look)
  | dot

/-- A claim under the modes at hand. -/
def Modes.claim (m : Modes) (c : Claim) : Primitive :=
  .look ⟨c, !m.unicode, m.returns⟩

/-- Characters that always may follow a backslash. -/
def isMeta (c : Char) : Bool :=
  "\\.+*?()|[]\x7b\x7d^$#&-~".toList.contains c

/-- Characters that may follow a backslash and then stand for themselves. -/
def isEscapable (c : Char) : Bool :=
  isMeta c || (c.toNat < 0x80 && !c.isAlphanum && c != '<' && c != '>')

/-- The letters that stand for control characters. -/
def control? : Char → Option Char
  | 'a' => some '\x07'
  | 'f' => some '\x0c'
  | 't' => some '\t'
  | 'n' => some '\n'
  | 'r' => some '\r'
  | 'v' => some '\x0b'
  | _ => none

/-- The character with a number in hexadecimal; `start` and `stop` enclose the digits. -/
def hexChar (digits : List Char) (start stop : Rest) : Except Spot Char :=
  let n := digits.foldl (fun n c => 16 * n + (Text.hexValue? c).getD 0) 0
  if n < 0x110000 ∧ ¬(0xD800 ≤ n ∧ n ≤ 0xDFFF) then .ok (Char.ofNat n)
  else refuse .badHex start stop

/-- Hexadecimal digits, `count` of them. -/
def hexDigits (m : Modes) : (count : Nat) → Rest → Except Spot (List Char × Rest)
  | 0, cs => .ok ([], cs)
  | _ + 1, [] => refuse .openEscape [] []
  | count + 1, c :: cs =>
    if (Text.hexValue? c).isNone then refuseNext .badHexDigit (c :: cs)
    else do
      let (ds, rest) ← hexDigits m count (skip m cs)
      return (c :: ds, rest)

/-- Hexadecimal digits up to a brace, which is passed over; `brace` is the opening one. -/
def hexBraced (m : Modes) (brace : Rest) : (bound : Nat) → Rest → Except Spot (List Char × Rest)
  | _, [] => refuse .openEscape brace []
  | 0, cs => refuse .openEscape brace cs
  | bound + 1, c :: cs =>
    if c = '\x7d' then .ok ([], skip m cs)
    else if (Text.hexValue? c).isNone then refuseNext .badHexDigit (c :: cs)
    else do
      let (ds, rest) ← hexBraced m brace bound (skip m cs)
      return (c :: ds, rest)

/-- The number of a character after `\x`, `\u` or `\U`: two, four or eight digits, or any in
braces. -/
def hex (m : Modes) (kind : Char) (cs : Rest) : Except Spot (Char × Rest) :=
  match skip m cs with
  | [] => refuse .openEscape [] []
  | '\x7b' :: rest => do
    let brace := '\x7b' :: rest
    let (ds, after) ← hexBraced m brace rest.length (skip m rest)
    if ds.isEmpty then refuse .emptyHex brace after
    else
      let c ← hexChar ds rest after
      return (c, after)
  | cs => do
    let count := if kind = 'x' then 2 else if kind = 'u' then 4 else 8
    let (ds, after) ← hexDigits m count cs
    let c ← hexChar ds cs after
    return (c, after)

/-- Cut a text at the first occurrence of a mark. -/
def cutAt? (mark : String) (name : List Char) : Option (List Char × List Char) :=
  Text.cut? mark.toList name

/-- A set under the modes at hand: closed under case, then perhaps its complement. -/
def foldAndNegate (m : Modes) (negated : Bool) (s : CharSet) : CharSet :=
  let s := if m.ignoreCase then .fold s else s
  if negated then .complement s else s

/-- The set of a property, given as one name or as a name and a value. -/
def propertySet (start stop : Rest) (m : Modes) (negated : Bool) (name : List Char) :
    Except Spot CharSet :=
  let cut? :=
    match cutAt? "!=" name with
    | some (p, v) => some (true, p, v)
    | none =>
      match cutAt? ":" name with
      | some (p, v) => some (false, p, v)
      | none => (cutAt? "=" name).map fun (p, v) => (false, p, v)
  match cut? with
  | some (differs, p, v) =>
    match CharSet.valued? p v with
    | some s => .ok (foldAndNegate m (negated != differs) s)
    | none => refuse .unknownValue start stop
  | none =>
    match CharSet.named? name with
    | some s => .ok (foldAndNegate m negated s)
    | none => refuse .unknownProperty start stop

/-- The name of a property in braces, and what follows; blanks within do not count. -/
def bracedName (m : Modes) : (bound : Nat) → Rest → Option (List Char × Rest)
  | _, [] => none
  | 0, _ => none
  | bound + 1, c :: cs =>
    if c = '\x7d' then some ([], cs)
    else (bracedName m bound (skip m cs)).map fun (name, rest) => (c :: name, rest)

/-- The set after `\p` or `\P`; `start` is the backslash. -/
def property (m : Modes) (start : Rest) (negated : Bool) (cs : Rest) :
    Except Spot (CharSet × Rest) :=
  match skip m cs with
  | [] => refuse .openEscape [] []
  | '\x7b' :: rest =>
    match bracedName m rest.length (skip m rest) with
    | none => refuse .openEscape [] []
    | some (name, after) =>
      if !m.unicode then refuse .outsideAscii start after
      else do
        let s ← propertySet start after m negated name
        return (s, after)
  | c :: rest =>
    if c = '\\' then refuseNext .badProperty (c :: rest)
    else
      let after := skip m rest
      if !m.unicode then refuse .outsideAscii start after
      else
        match CharSet.named? [c] with
        | some s => .ok (foldAndNegate m negated s, after)
        | none => refuse .unknownProperty start after

/-- The digits, the blanks or the word characters. -/
def shorthand (m : Modes) (start : Rest) (c : Char) (after : Rest) : Except Spot CharSet :=
  let negated := c.isUpper
  if !m.unicode && negated then refuse .outsideText start after
  else
    let s : CharSet :=
      match c.toLower, m.unicode with
      | 'd', true => .categories ["Nd"]
      | 's', true => .blank
      | _, true => .word
      | 'd', false => (CharSet.asciiNamed? "digit").getD .none
      | 's', false => (CharSet.asciiNamed? "space").getD .none
      | _, false => (CharSet.asciiNamed? "word").getD .none
    .ok (if negated then .complement s else s)

/-- Letters and hyphens, up to something else. -/
def edgeName (m : Modes) : (bound : Nat) → Rest → List Char × Rest
  | 0, cs => ([], cs)
  | bound + 1, cs =>
    match cs with
    | c :: rest =>
      if c.isAlpha || c = '-' then
        let (name, after) := edgeName m bound (skip m rest)
        (c :: name, after)
      else ([], cs)
    | [] => ([], [])

/-- What stands in braces after `\b`, unless it is a count; `start` is the backslash. -/
def edge (m : Modes) (start : Rest) (cs : Rest) : Except Spot (Claim × Rest) :=
  match cs with
  | '\x7b' :: rest =>
    match skip m rest with
    | [] => refuse .openBrace start []
    | c :: inner =>
      if !(c.isAlpha || c = '-') then .ok (.wordEdge, cs)
      else
        let (name, after) := edgeName m (c :: inner).length (c :: inner)
        match after with
        | '\x7d' :: beyond =>
          match String.ofList name with
          | "start" => .ok (.wordStart, beyond)
          | "end" => .ok (.wordEnd, beyond)
          | "start-half" => .ok (.halfWordStart, beyond)
          | "end-half" => .ok (.halfWordEnd, beyond)
          | _ => refuse .unknownWordEdge cs after
        | _ => refuse .openWordEdge cs after
  | _ => .ok (.wordEdge, cs)

/-- **What a backslash and the characters behind it stand for**; `start` is the backslash and `cs`
what follows it. -/
def escape (m : Modes) (start cs : Rest) : Except Spot (Primitive × Rest) :=
  match cs with
  | [] => refuse .openEscape start []
  | c :: rest =>
    if Decimal.isDigit c then refuse .backreference start rest
    else if c = 'x' || c = 'u' || c = 'U' then do
      let (d, after) ← hex m c rest
      if !m.unicode && c = 'x' && 0x80 ≤ d.toNat && d.toNat < 0x100 then
        refuse .outsideText start after
      else return (.char d, after)
    else if c = 'p' || c = 'P' then do
      let (s, after) ← property m start (c = 'P') rest
      return (.set s, after)
    else if "dswDSW".toList.contains c then do
      let s ← shorthand m start c rest
      return (.set s, rest)
    else if isEscapable c then .ok (.char c, rest)
    else
      match control? c with
      | some d => .ok (.char d, rest)
      | none =>
        match c with
        | 'A' => .ok (m.claim .textStart, rest)
        | 'z' => .ok (m.claim .textEnd, rest)
        | 'B' => .ok (m.claim .noWordEdge, rest)
        | '<' => .ok (m.claim .wordStart, rest)
        | '>' => .ok (m.claim .wordEnd, rest)
        | 'b' => do
          let (claim, after) ← edge m start rest
          return (m.claim claim, after)
        | _ => refuse .badEscape start rest

/-! ## Sets in brackets -/

/-- An operator between sets. -/
inductive SetOp where
  | inter
  | diff
  | exclusive

/-- The operator that comes next. -/
def setOp? : Rest → Option (SetOp × Rest)
  | '&' :: '&' :: cs => some (.inter, cs)
  | '-' :: '-' :: cs => some (.diff, cs)
  | '~' :: '~' :: cs => some (.exclusive, cs)
  | _ => none

/-- The sets on the two sides of an operator, put together. -/
def combine (m : Modes) (left : Option (CharSet × SetOp)) (right : CharSet) : CharSet :=
  let close (s : CharSet) : CharSet := if m.ignoreCase then .fold s else s
  match left with
  | none => right
  | some (l, .inter) => .inter (close l) (close right)
  | some (l, .diff) => .diff (close l) (close right)
  | some (l, .exclusive) => .exclusive (close l) (close right)

/-- A set of ASCII by its name between `[:` and `:]`; `none` if that is not what comes next. -/
def asciiClass? (cs : Rest) : Option (Bool × CharSet × Rest) :=
  match cs with
  | '[' :: ':' :: rest =>
    let (negated, rest) := match rest with
      | '^' :: rest => (true, rest)
      | rest => (false, rest)
    let name := rest.takeWhile (· ≠ ':')
    match rest.dropWhile (· ≠ ':') with
    | ':' :: ']' :: after =>
      (CharSet.asciiNamed? (String.ofList name)).map fun s => (negated, s, after)
    | _ => none
  | _ => none

/-- One item of a set in brackets. -/
def classItem (m : Modes) (cs : Rest) : Except Spot (Primitive × Rest) :=
  match cs with
  | '\\' :: rest => escape m cs rest
  | c :: rest => .ok (.char c, rest)
  | [] => refuse .openClass [] []

/-- An item as a bound of a range; it stands between two places. -/
def asBound (m : Modes) (start stop : Rest) : Primitive → Except Spot Char
  | .char c => if !m.unicode && 0x80 ≤ c.toNat then refuse .outsideAscii start stop else .ok c
  | _ => refuse .badRangeEnd start stop

/-- An item as a set. -/
def asSet (m : Modes) (start stop : Rest) : Primitive → Except Spot CharSet
  | .char c =>
    if !m.unicode && 0x80 ≤ c.toNat then refuse .outsideAscii start stop else .ok (.single c)
  | .set s => .ok s
  | _ => refuse .badClassEscape start stop

/-- A range, or a single item, of a set whose bracket opened between two places. -/
def classRange (m : Modes) (opening inside : Rest) (cs : Rest) : Except Spot (CharSet × Rest) := do
  let (first, after) ← classItem m cs
  let rest := skip m after
  match rest with
  | [] => refuse .openClass opening inside
  | c :: behind =>
    let next := (skip m behind).head?
    if c ≠ '-' || next = some ']' || next = some '-' then
      let s ← asSet m cs after first
      return (s, rest)
    else
      let second := skip m behind
      if second.isEmpty then refuse .openClass opening inside
      else
        let (last, stop) ← classItem m second
        let low ← asBound m cs after first
        let high ← asBound m second stop last
        if high < low then refuse .badClassRange cs stop
        else return (.ranges [(low.toNat, high.toNat)], stop)

/-- Hyphens at the front of a set stand for themselves. -/
def leadingHyphens (m : Modes) : (bound : Nat) → Rest → Bool × Rest
  | 0, cs => (false, cs)
  | bound + 1, cs =>
    match cs with
    | '-' :: rest => (true, (leadingHyphens m bound (skip m rest)).2)
    | cs => (false, cs)

/-- The front of a set, after its bracket: whether it is negated, and what stands for itself
there. -/
def classFront (m : Modes) (cs : Rest) : Bool × CharSet × Rest :=
  let (negated, cs) := match skip m cs with
    | '^' :: rest => (true, skip m rest)
    | rest => (false, rest)
  match leadingHyphens m cs.length cs with
  | (true, cs) => (negated, .single '-', cs)
  | (false, ']' :: rest) => (negated, .single ']', skip m rest)
  | (false, cs) => (negated, .none, cs)

/-- The set between two brackets under the modes at hand; without scripts a set stays within
ASCII. -/
def finishClass (m : Modes) (start stop : Rest) (negated : Bool) (s : CharSet) :
    Except Spot CharSet :=
  if m.unicode then .ok (foldAndNegate m negated s)
  else if negated then refuse .outsideText start stop
  else .ok (if m.ignoreCase then CharSet.foldAscii s else s)

mutual

/-- **A set in brackets**, from its bracket on. -/
def bracket (m : Modes) : (bound : Nat) → Rest → Except Spot (CharSet × Rest)
  | 0, cs => refuse .openClass cs cs
  | bound + 1, cs => do
    let (negated, front, inside) := classFront m cs.tail
    if inside.isEmpty then refuse .openClass cs inside
    else
      let (s, after) ← classBody m bound cs inside none front inside
      let s ← finishClass m cs after negated s
      return (s, after)

/-- The inside of a set whose bracket opened between two places. `left` is what stands before the
last operator, and `here` what was read since. -/
def classBody (m : Modes) : (bound : Nat) → (opening inside : Rest) →
    (left : Option (CharSet × SetOp)) → (here : CharSet) → Rest → Except Spot (CharSet × Rest)
  | 0, opening, inside, _, _, _ => refuse .openClass opening inside
  | bound + 1, opening, inside, left, here, cs =>
    match skip m cs with
    | [] => refuse .openClass opening inside
    | ']' :: rest => .ok (combine m left here, rest)
    | '[' :: rest =>
      match asciiClass? ('[' :: rest) with
      | some (negated, s, after) =>
        if !m.unicode && negated then refuse .outsideText ('[' :: rest) after
        else classBody m bound opening inside left (.union here (foldAndNegate m negated s)) after
      | none => do
        let (s, after) ← bracket m bound ('[' :: rest)
        classBody m bound opening inside left (.union here s) after
    | cs =>
      match setOp? cs with
      | some (op, rest) =>
        classBody m bound opening inside (some (combine m left here, op)) .none rest
      | none => do
        let (s, after) ← classRange m opening inside cs
        classBody m bound opening inside left (.union here s) after

end

/-! ## Flags and names of groups -/

/-- Switch a mode on or off by its letter. -/
def Modes.switch? (m : Modes) (on : Bool) : Char → Option Modes
  | 'i' => some { m with ignoreCase := on }
  | 'm' => some { m with multiLine := on }
  | 's' => some { m with dotAll := on }
  | 'U' => some { m with swapGreed := on }
  | 'u' => some { m with unicode := on }
  | 'R' => some { m with returns := on }
  | 'x' => some { m with verbose := on }
  | _ => none

/-- Flags up to a colon or a parenthesis. `seen` lists the characters that came, with the numbers of
characters left at them, and `minus` is the place of a minus sign that nothing follows yet. -/
def flags : (m : Modes) → (on : Bool) → (seen : List (Char × Nat)) → (minus : Option Rest) → Rest →
    Except Spot (Modes × Rest)
  | _, _, _, _, [] => refuse .openFlags [] []
  | m, on, seen, minus, c :: rest =>
    if c = ':' || c = ')' then
      match minus with
      | some place => refuseNext .danglingMinus place
      | none => .ok (m, c :: rest)
    else
      let here := (c, rest.length + 1)
      if c = '-' then
        match seen.lookup c with
        | some left => refuseRepeated .repeatedMinus (c :: rest) rest left
        | none => flags m false (here :: seen) (some (c :: rest)) rest
      else
        match m.switch? on c with
        | none => refuseNext .unknownFlag (c :: rest)
        | some m =>
          match seen.lookup c with
          | some left => refuseRepeated .repeatedFlag (c :: rest) rest left
          | none => flags m on (here :: seen) none rest

/-- The characters of a group's name. -/
def isNameChar (first : Bool) (c : Char) : Bool :=
  c = '_' || CharSet.alphabetic.has c ||
    (!first && (c = '.' || c = '[' || c = ']' || (CharSet.categories ["Nd", "Nl", "No"]).has c))

/-- The name of a group, up to the angle that closes it. -/
def groupName : (first : Bool) → Rest → Except Spot (List Char × Rest)
  | _, [] => refuse .openName [] []
  | first, c :: rest =>
    if c = '>' then .ok ([], rest)
    else if !isNameChar first c then refuseNext .badName (c :: rest)
    else do
      let (name, after) ← groupName false rest
      return (c :: name, after)

/-! ## The grammar -/

/-- What reading has gathered: the modes at hand, the number of groups, their names, and how many
characters were left at each name. -/
structure State where
  modes : Modes
  groups : Nat := 0
  names : List (String × Nat) := []
  places : List (String × Nat) := []

/-- A part of a sequence: a tree, or flags, which cannot be repeated. -/
inductive Part where
  | node (n : Node)
  | flags

/-- The trees among parts. -/
def nodesOf (parts : List Part) : List Node :=
  parts.filterMap fun
    | .node n => some n
    | .flags => none

/-- A character under the modes at hand. -/
def literal (m : Modes) (c : Char) : Node :=
  if !m.ignoreCase then .one (.single c)
  else if m.unicode then
    .one (if (Text.caseFamily c).length ≤ 1 then .single c else .fold (.single c))
  else .one (CharSet.foldAscii (.single c))

/-- Any character under the modes at hand; `start` and `stop` enclose the dot. -/
def dot (m : Modes) (start stop : Rest) : Except Spot Node :=
  if !m.unicode then refuse .outsideText start stop
  else if m.dotAll then .ok (.one .all)
  else if m.returns then .ok (.one (.complement .lineEnds))
  else .ok (.one (.complement (.single '\n')))

/-- One item of a sequence. -/
def primitive (m : Modes) (cs : Rest) : Except Spot (Node × Rest) :=
  match cs with
  | '\\' :: rest => do
    let (p, after) ← escape m cs rest
    match p with
    | .char c => return (literal m c, after)
    | .set s => return (.one s, after)
    | .look l => return (.look l, after)
    | .dot => return (.empty, after)
  | '.' :: rest => do
    let n ← dot m cs rest
    return (n, rest)
  | '^' :: rest =>
    .ok (.look ⟨if m.multiLine then .lineStart else .textStart, !m.unicode, m.returns⟩, rest)
  | '$' :: rest =>
    .ok (.look ⟨if m.multiLine then .lineEnd else .textEnd, !m.unicode, m.returns⟩, rest)
  | c :: rest => .ok (literal m c, rest)
  | [] => .ok (.empty, [])

/-- The last part, if it can be repeated. -/
def repeatable? : List Part → Option (Node × List Part)
  | .node n :: parts => some (n, parts)
  | _ => none

/-- A repetition; a mode turns the preference of all repetitions around. -/
def repeated (m : Modes) (least : Nat) (most : Option Nat) (greedy : Bool) (body : Node) : Node :=
  .times least most (greedy != m.swapGreed) body

/-- Decimal digits, with blanks around them. -/
def decimal (m : Modes) (cs : Rest) : Except Spot Nat × Rest :=
  let cs := cs.dropWhile Text.isBlank
  let (ds, after) := go cs.length cs
  let n := Decimal.natOfDigits ds
  let rest := after.dropWhile Text.isBlank
  if ds.isEmpty then (refuse .missingCount cs after, rest)
  else if n < Decimal.twoTo 32 then (.ok n, rest)
  else (refuse .badNumber cs after, rest)
where
  go : (bound : Nat) → Rest → List Char × Rest
    | 0, cs => ([], cs)
    | bound + 1, cs =>
      match cs with
      | c :: rest =>
        if Decimal.isDigit c then
          let (ds, after) := go bound (skip m rest)
          (c :: ds, after)
        else ([], cs)
      | [] => ([], [])

/-- Counts in braces: the least and the greatest number of repetitions; `cs` is the brace. -/
def counts (m : Modes) (cs : Rest) : Except Spot ((Nat × Option Nat) × Rest) := do
  let inside := pass m cs
  if inside.isEmpty then refuse .openCount cs inside
  let (least, rest) := decimal m inside
  let ((low, high), rest) ←
    match rest with
    | [] => refuse .openCount cs []
    | ',' :: behind =>
      match skip m behind with
      | [] => refuse .openCount cs []
      | '\x7d' :: after => do
        let n ← least
        pure ((n, none), '\x7d' :: after)
      | more => do
        let n ← least
        let (most, after) := decimal m more
        let k ← most
        pure ((n, some k), after)
    | rest => do
      let n ← least
      pure ((n, some n), rest)
  match rest with
  | '\x7d' :: after =>
    if high.any (· < low) then refuse .badCounts cs after else return ((low, high), skip m after)
  | _ => refuse .openCount cs rest

/-- A question mark that turns the preference of a repetition around. -/
def lazyMark : Rest → Bool × Rest
  | '?' :: cs => (true, cs)
  | cs => (false, cs)

/-- A repetition without counts. -/
def uncounted? : Char → Option (Nat × Option Nat)
  | '?' => some (0, some 1)
  | '*' => some (0, none)
  | '+' => some (1, none)
  | _ => none

/-- A prefix of look-around: how many characters it has. -/
def lookaround? : Rest → Option Nat
  | '?' :: '=' :: _ => some 2
  | '?' :: '!' :: _ => some 2
  | '?' :: '<' :: '=' :: _ => some 3
  | '?' :: '<' :: '!' :: _ => some 3
  | _ => none

/-- What the front of a group says; `left` characters were left at a name. -/
inductive Front where
  | numbered
  | named (name : String) (left : Nat)
  | plain (modes : Modes)
  | setting (modes : Modes)

/-- A name of a group that no group had before; `places` are those of the names that came. -/
def newName (places : List (String × Nat)) (cs : Rest) : Except Spot (Front × Rest) := do
  let (name, after) ← groupName true cs
  let text := String.ofList name
  if name.isEmpty then refuse .emptyName cs cs
  else
    match places.lookup text with
    | some left => refuseRepeated .repeatedName cs (cs.drop name.length) left
    | none => return (.named text cs.length, after)

/-- The front of a group, after its parenthesis, which is at `opening`. -/
def groupFront (s : State) (opening cs : Rest) : Except Spot (Front × Rest) :=
  match lookaround? cs with
  | some n => refuse .lookaround opening (cs.drop n)
  | none =>
    match cs with
    | '?' :: 'P' :: '<' :: rest => newName s.places rest
    | '?' :: '<' :: rest => newName s.places rest
    | '?' :: [] => refuse .openGroup opening opening.tail
    | '?' :: rest => do
      let (m, after) ← flags s.modes true [] none rest
      match after with
      | ')' :: after =>
        if rest.head? = some ')' then refuse .nothingToRepeat cs cs else return (.setting m, after)
      | after => return (.plain m, after.tail)
    | cs => .ok (.numbered, cs)

mutual

/-- **Alternatives**, up to a closing parenthesis or the end. -/
def alternatives : (bound : Nat) → State → Rest → Except Spot (Node × State × Rest)
  | 0, _, cs => refuse .tooDeep cs cs
  | bound + 1, s, cs => do
    let (choices, s, rest) ← branches bound s cs
    return (.ofChoices choices, s, rest)

/-- The choices between bars. -/
def branches : (bound : Nat) → State → Rest → Except Spot (List Node × State × Rest)
  | 0, _, cs => refuse .tooDeep cs cs
  | bound + 1, s, cs => do
    let (parts, s, rest) ← sequence bound s [] cs
    let first := Node.ofParts (nodesOf parts.reverse)
    match rest with
    | '|' :: rest =>
      let (others, s, rest) ← branches bound s rest
      return (first :: others, s, rest)
    | rest => return ([first], s, rest)

/-- A sequence; `parts` holds what was read, last part first. -/
def sequence : (bound : Nat) → State → (parts : List Part) → Rest →
    Except Spot (List Part × State × Rest)
  | 0, _, _, cs => refuse .tooDeep cs cs
  | bound + 1, s, parts, cs =>
    match skip s.modes cs with
    | [] => .ok (parts, s, [])
    | ')' :: rest => .ok (parts, s, ')' :: rest)
    | '|' :: rest => .ok (parts, s, '|' :: rest)
    | '(' :: rest => do
      let (part, s, after) ← group bound s ('(' :: rest)
      sequence bound s (part :: parts) after
    | '[' :: rest => do
      let (set, after) ← bracket s.modes (2 * rest.length + 4) ('[' :: rest)
      sequence bound s (.node (.one set) :: parts) after
    | '\x7b' :: rest =>
      match repeatable? parts with
      | none => refuse .nothingToRepeat ('\x7b' :: rest) ('\x7b' :: rest)
      | some (part, parts) => do
        let ((least, most), after) ← counts s.modes ('\x7b' :: rest)
        let (isLazy, after) := lazyMark after
        sequence bound s (.node (repeated s.modes least most (!isLazy) part) :: parts) after
    | c :: rest =>
      match uncounted? c with
      | some (least, most) =>
        match repeatable? parts with
        | none => refuse .nothingToRepeat (c :: rest) (c :: rest)
        | some (part, parts) =>
          let (isLazy, after) := lazyMark rest
          sequence bound s (.node (repeated s.modes least most (!isLazy) part) :: parts) after
      | none => do
        let (n, after) ← primitive s.modes (c :: rest)
        sequence bound s (.node n :: parts) after

/-- A group or a setting of flags, from its parenthesis on. -/
def group : (bound : Nat) → State → Rest → Except Spot (Part × State × Rest)
  | 0, _, cs => refuse .tooDeep cs cs
  | bound + 1, s, cs => do
    let (front, inside) ← groupFront s cs (pass s.modes cs)
    match front with
    | .setting m => return (.flags, { s with modes := m }, inside)
    | .plain m => body bound none cs s.modes { s with modes := m } inside
    | .numbered =>
      body bound (some (s.groups + 1)) cs s.modes { s with groups := s.groups + 1 } inside
    | .named name left =>
      let index := s.groups + 1
      let inner : State :=
        { s with
          groups := index
          names := (name, index) :: s.names
          places := (name, left) :: s.places }
      body bound (some index) cs s.modes inner inside

/-- The inside of a group that opened at `opening`, up to its closing parenthesis; then the modes
from outside hold again. -/
def body : (bound : Nat) → (index : Option Nat) → (opening : Rest) → (outer : Modes) → State →
    Rest → Except Spot (Part × State × Rest)
  | 0, _, opening, _, _, _ => refuse .tooDeep opening opening
  | bound + 1, index, opening, outer, s, inside => do
    let (n, s, rest) ← alternatives bound s inside
    match rest with
    | ')' :: rest => return (.node (.group index n), { s with modes := outer }, rest)
    | _ => refuse .openGroup opening opening.tail

end

/-- **The tree of a text**, with the number of its groups and their names. -/
def Node.ofText (m : Modes) (text : String) : Except Fault (Node × State) :=
  let cs := text.toList
  let outcome : Except Spot (Node × State) := do
    let (n, s, rest) ← alternatives (5 * cs.length + 5) { modes := m } cs
    if !rest.isEmpty then refuseNext .closedGroup rest
    else if maxHeight < n.height then refuse .tooDeep cs []
    else return (n, s)
  match outcome with
  | .ok r => .ok r
  | .error spot =>
    let mark (start stop : Nat) : Mark := ⟨cs.length - start, cs.length - stop⟩
    .error (.flawed text spot.flaw (mark spot.start spot.stop)
      (spot.earlier.map fun (start, stop) => mark start stop))

end Reshape.Pattern
