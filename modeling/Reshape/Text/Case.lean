/-
# Reshape.Text.Case -- upper and lower case

Case mapping of characters and of texts. A character can map to several (`ß` to `SS`). Lower-casing
a text also knows the two forms of the Greek sigma: at the end of a word, after a cased letter and
not before one, `Σ` becomes `ς`, elsewhere `σ`. Upper-casing has no such rule.
-/

import Reshape.Text.CaseTable
import Reshape.Text.Category

namespace Reshape.Text

/-- The image of a character under a pair of tables. -/
def mapCase (specials : List (Nat × List Nat)) (table : List Run) (c : Char) : List Char :=
  match specials.lookup c.toNat with
  | some ts => ts.map Char.ofNat
  | none => [Char.ofNat (image table c.toNat)]

/-- The lower case of a character, whatever stands around it. -/
def lowerChar (c : Char) : List Char :=
  mapCase lowerSpecialTable lowerTable c

/-- The upper case of a character. -/
def upperChar (c : Char) : List Char :=
  mapCase upperSpecialTable upperTable c

/-- **The characters that differ from a character in case only**, the character among them. -/
def caseFamily (c : Char) : List Char :=
  let root := image foldTable c.toNat
  Char.ofNat root :: (foldTable.filterMap fun r => (r.preimage? root).map Char.ofNat)

/-- The first character that case rules do not look through is cased. -/
def startsCased (cs : List Char) : Bool :=
  match cs.dropWhile isCaseIgnorable with
  | c :: _ => isCased c
  | [] => false

/-- The capital sigma, whose lower case depends on its place in the word. -/
def capitalSigma : Char := 'Σ'

/-- Lower case with the characters already passed, last first. -/
def lowerFrom : (passed rest : List Char) → List Char
  | _, [] => []
  | passed, c :: rest =>
    let image :=
      if c = capitalSigma then
        if startsCased passed && !startsCased rest then ['ς'] else ['σ']
      else lowerChar c
    image ++ lowerFrom (c :: passed) rest

/-- **The lower case of a text.** -/
def lower (cs : List Char) : List Char :=
  lowerFrom [] cs

/-- **The upper case of a text.** -/
def upper (cs : List Char) : List Char :=
  cs.flatMap upperChar

end Reshape.Text
