/-
# Reshape.Pattern.CharSet -- sets of characters in patterns

The sets that a pattern can name: ranges, general categories, scripts and other properties, the
digits, blanks and word characters of every script or of ASCII alone, and what set operations make
of them. `has` decides membership.

`fold` closes a set under case: a character is in it when some character that differs in case only
is.
-/

import Reshape.Text.Case
import Reshape.Text.ScriptTable

namespace Reshape.Pattern

/-- **A set of characters.** -/
inductive CharSet where
  | ranges (rs : List (Nat × Nat))
  | categories (names : List String)
  | blank
  | word
  | union (a b : CharSet)
  | inter (a b : CharSet)
  | diff (a b : CharSet)
  | exclusive (a b : CharSet)
  | complement (a : CharSet)
  | fold (a : CharSet)
  deriving Repr, Inhabited

namespace CharSet

/-- **Membership.** -/
def has (c : Char) : CharSet → Bool
  | ranges rs => Text.inRanges rs c
  | categories names => names.contains (Text.category c)
  | blank => Text.isBlank c
  | word => Text.isWordChar c
  | union a b => a.has c || b.has c
  | inter a b => a.has c && b.has c
  | diff a b => a.has c && !b.has c
  | exclusive a b => a.has c != b.has c
  | complement a => !a.has c
  | fold a => (Text.caseFamily c).any fun d => a.has d

/-- No character. -/
def none : CharSet := ranges []

/-- One character. -/
def single (c : Char) : CharSet := ranges [(c.toNat, c.toNat)]

/-- Every character up to the last one of ASCII. -/
def ascii : CharSet := ranges [(0, 0x7f)]

/-- Every character. -/
def all : CharSet := ranges [(0, 0x10ffff)]

/-- The two characters that end a line. -/
def lineEnds : CharSet := ranges [(0x0a, 0x0a), (0x0d, 0x0d)]

/-- ASCII letters of both cases, where a set has one of them. -/
def foldAscii (a : CharSet) : CharSet :=
  union a (ranges (((List.range 26).flatMap fun i =>
    let lower := Char.ofNat (0x61 + i)
    let upper := Char.ofNat (0x41 + i)
    if a.has lower || a.has upper then
      [(lower.toNat, lower.toNat), (upper.toNat, upper.toNat)]
    else [])))

/-- The set holds ASCII alone, as far as its form tells. -/
def isAscii : CharSet → Bool
  | ranges rs => rs.all fun r => r.2 ≤ 0x7f
  | union a b => a.isAscii && b.isAscii
  | inter a b => a.isAscii || b.isAscii
  | diff a _ => a.isAscii
  | exclusive a b => a.isAscii && b.isAscii
  | fold a => a.isAscii && ['k', 'K', 's', 'S'].all fun c => !a.has c
  | _ => false

/-- About how many ranges the set consists of. -/
def weight : CharSet → Nat
  | ranges rs => rs.length
  | categories names =>
    Text.categoryTable.foldl (fun n run => if names.contains run.2 then n + 1 else n) 0
  | blank => 10
  | word => 770
  | union a b => a.weight + b.weight
  | inter a b => a.weight + b.weight
  | diff a b => a.weight + b.weight
  | exclusive a b => a.weight + b.weight
  | complement a => a.weight + 1
  | fold a => 2 * a.weight

/-! ## Named sets -/

/-- The ranges of the sets that are named between `[:` and `:]`, all within ASCII. -/
def asciiNamed? : String → Option CharSet
  | "alnum" => some (ranges [(0x30, 0x39), (0x41, 0x5a), (0x61, 0x7a)])
  | "alpha" => some (ranges [(0x41, 0x5a), (0x61, 0x7a)])
  | "ascii" => some ascii
  | "blank" => some (ranges [(0x09, 0x09), (0x20, 0x20)])
  | "cntrl" => some (ranges [(0x00, 0x1f), (0x7f, 0x7f)])
  | "digit" => some (ranges [(0x30, 0x39)])
  | "graph" => some (ranges [(0x21, 0x7e)])
  | "lower" => some (ranges [(0x61, 0x7a)])
  | "print" => some (ranges [(0x20, 0x7e)])
  | "punct" => some (ranges [(0x21, 0x2f), (0x3a, 0x40), (0x5b, 0x60), (0x7b, 0x7e)])
  | "space" => some (ranges [(0x09, 0x0d), (0x20, 0x20)])
  | "upper" => some (ranges [(0x41, 0x5a)])
  | "word" => some (ranges [(0x30, 0x39), (0x41, 0x5a), (0x5f, 0x5f), (0x61, 0x7a)])
  | "xdigit" => some (ranges [(0x30, 0x39), (0x41, 0x46), (0x61, 0x66)])
  | _ => Option.none

/-- The general categories by their names, without blanks, hyphens and underscores, in lower
case. -/
def categoryNames : List (List String × List String) :=
  [(["l", "letter"], ["Lu", "Ll", "Lt", "Lm", "Lo"]),
    (["lc", "casedletter"], ["Lu", "Ll", "Lt"]),
    (["lu", "uppercaseletter"], ["Lu"]),
    (["ll", "lowercaseletter"], ["Ll"]),
    (["lt", "titlecaseletter"], ["Lt"]),
    (["lm", "modifierletter"], ["Lm"]),
    (["lo", "otherletter"], ["Lo"]),
    (["m", "mark", "combiningmark"], ["Mn", "Mc", "Me"]),
    (["mn", "nonspacingmark"], ["Mn"]),
    (["mc", "spacingmark"], ["Mc"]),
    (["me", "enclosingmark"], ["Me"]),
    (["n", "number"], ["Nd", "Nl", "No"]),
    (["nd", "decimalnumber", "digit"], ["Nd"]),
    (["nl", "letternumber"], ["Nl"]),
    (["no", "othernumber"], ["No"]),
    (["p", "punctuation", "punct"], ["Pc", "Pd", "Ps", "Pe", "Pi", "Pf", "Po"]),
    (["pc", "connectorpunctuation"], ["Pc"]),
    (["pd", "dashpunctuation"], ["Pd"]),
    (["ps", "openpunctuation"], ["Ps"]),
    (["pe", "closepunctuation"], ["Pe"]),
    (["pi", "initialpunctuation"], ["Pi"]),
    (["pf", "finalpunctuation"], ["Pf"]),
    (["po", "otherpunctuation"], ["Po"]),
    (["s", "symbol"], ["Sm", "Sc", "Sk", "So"]),
    (["sm", "mathsymbol"], ["Sm"]),
    (["sc", "currencysymbol"], ["Sc"]),
    (["sk", "modifiersymbol"], ["Sk"]),
    (["so", "othersymbol"], ["So"]),
    (["z", "separator"], ["Zs", "Zl", "Zp"]),
    (["zs", "spaceseparator"], ["Zs"]),
    (["zl", "lineseparator"], ["Zl"]),
    (["zp", "paragraphseparator"], ["Zp"]),
    (["c", "other"], ["Cc", "Cf", "Cs", "Co", "Cn"]),
    (["cc", "control", "cntrl"], ["Cc"]),
    (["cf", "format"], ["Cf"]),
    (["cs", "surrogate"], ["Cs"]),
    (["co", "privateuse"], ["Co"]),
    (["cn", "unassigned"], ["Cn"])]

/-- A set by the name of a general category, or of a set that is named like one. -/
def category? (name : String) : Option CharSet :=
  if name = "any" then some all
  else if name = "ascii" then some ascii
  else if name = "assigned" then some (complement (categories ["Cn"]))
  else (categoryNames.find? fun e => e.1.contains name).map fun e => categories e.2

/-- A set by the name of a script. -/
def script? (name : String) : Option CharSet :=
  if name = "unknown" || name = "zzzz" then
    some (complement (ranges (Text.scriptTable.flatMap Prod.snd)))
  else
    match Text.scriptTable.filter fun e => e.1.contains name with
    | [] => Option.none
    | entries => some (ranges (entries.flatMap Prod.snd))

/-- Letters, letter numbers and the marks that belong to words. -/
def alphabetic : CharSet :=
  union (categories ["Lu", "Ll", "Lt", "Lm", "Lo", "Nl"])
    (union (ranges [(0x24b6, 0x24e9), (0x1f130, 0x1f149), (0x1f150, 0x1f169), (0x1f170, 0x1f189)])
      (diff (categories ["Mn", "Mc"]) (ranges Text.plainMarkTable)))

/-- Capital letters and signs. -/
def uppercase : CharSet :=
  union (categories ["Lu"])
    (ranges [(0x2160, 0x216f), (0x24b6, 0x24cf), (0x1f130, 0x1f149), (0x1f150, 0x1f169),
      (0x1f170, 0x1f189)])

/-- Small letters and signs. -/
def lowercase : CharSet :=
  union (categories ["Ll"])
    (ranges [(0xaa, 0xaa), (0xba, 0xba), (0x2b0, 0x2b8), (0x2c0, 0x2c1), (0x2e0, 0x2e4),
      (0x345, 0x345), (0x37a, 0x37a), (0x10fc, 0x10fc), (0x1d2c, 0x1d6a), (0x1d78, 0x1d78),
      (0x1d9b, 0x1dbf), (0x2071, 0x2071), (0x207f, 0x207f), (0x2090, 0x209c), (0x2170, 0x217f),
      (0x24d0, 0x24e9), (0x2c7c, 0x2c7d), (0xa69c, 0xa69d), (0xa770, 0xa770), (0xa7f2, 0xa7f4),
      (0xa7f8, 0xa7f9), (0xab5c, 0xab5f), (0xab69, 0xab69), (0x10780, 0x10780), (0x10783, 0x10785),
      (0x10787, 0x107b0), (0x107b2, 0x107ba), (0x1e030, 0x1e06d)])

/-- A set by the name of a property that holds or does not. -/
def flag? (name : String) : Option CharSet :=
  if name = "alphabetic" || name = "alpha" then some alphabetic
  else if name = "uppercase" || name = "upper" then some uppercase
  else if name = "lowercase" || name = "lower" then some lowercase
  else if name = "cased" then some (union uppercase (union lowercase (categories ["Lt"])))
  else if name = "whitespace" || name = "space" || name = "wspace" then some blank
  else if name = "emoji" then some (ranges Text.emojiTable)
  else if name = "asciihexdigit" || name = "ahex" then asciiNamed? "xdigit"
  else Option.none

/-- A name without blanks, hyphens and underscores, in lower case and without a leading `is`. -/
def normalName (name : List Char) : String :=
  let plain := fun (cs : List Char) =>
    (cs.filter fun c => c != ' ' && c != '_' && c != '-' && c.toNat < 0x80).map Char.toLower
  if (name.take 2).map Char.toLower = ['i', 's'] then
    let rest := plain (name.drop 2)
    if rest = ['c'] then "isc" else String.ofList rest
  else String.ofList (plain name)

/-- **A set by the name of one property.** -/
def named? (name : List Char) : Option CharSet :=
  let n := normalName name
  (flag? n).or ((category? n).or (script? n))

/-- A set by the name of a property and one of its values. -/
def valued? (property value : List Char) : Option CharSet :=
  let p := normalName property
  let v := normalName value
  if p = "gc" || p = "generalcategory" then category? v
  else if p = "sc" || p = "script" then script? v
  else Option.none

end CharSet

end Reshape.Pattern
