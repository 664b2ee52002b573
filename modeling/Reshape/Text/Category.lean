/-
# Reshape.Text.Category -- classes of characters

The general category of a character, found by bisection in the table of runs, and the classes that
are made of categories and a few characters of their own: blanks, words, cased letters, what case
rules look through, what continues the character before it, and what a quotation shows as a number.
-/

import Reshape.Text.CategoryTable

namespace Reshape.Text

/-- The index of the last run that starts at or before `c`, between `low` and `low + size`. -/
def bisect (table : Array (Nat × String)) (c : Nat) : (fuel low size : Nat) → Nat
  | 0, low, _ => low
  | fuel + 1, low, size =>
    if size ≤ 1 then low
    else
      let half := size / 2
      match table[low + half]? with
      | some (start, _) =>
        if start ≤ c then bisect table c fuel (low + half) (size - half)
        else bisect table c fuel low half
      | none => low

/-- **The general category** of a character, by its two-letter name. -/
def category (c : Char) : String :=
  match categoryTable[bisect categoryTable c.toNat 32 0 categoryTable.size]? with
  | some (_, name) => name
  | none => "Cn"

/-- Some range of the list holds the character. -/
def inRanges (ranges : List (Nat × Nat)) (c : Char) : Bool :=
  ranges.any fun r => r.1 ≤ c.toNat && c.toNat ≤ r.2

/-- White space: the control characters from tab to return, the blanks of every width, and the
separators of lines and paragraphs. -/
def isBlank (c : Char) : Bool :=
  inRanges [(0x9, 0xd), (0x20, 0x20), (0x85, 0x85), (0xa0, 0xa0), (0x1680, 0x1680), (0x2000, 0x200a),
    (0x2028, 0x2029), (0x202f, 0x202f), (0x205f, 0x205f), (0x3000, 0x3000)] c

/-- What words are made of: letters, marks, decimal digits, connectors, letter numbers and symbols,
and the two joiners. -/
def isWordChar (c : Char) : Bool :=
  ["Lu", "Ll", "Lt", "Lm", "Lo", "Nl", "Mn", "Mc", "Me", "Nd", "Pc"].contains (category c) ||
    inRanges [(0x200c, 0x200d), (0x24b6, 0x24e9), (0x1f130, 0x1f149), (0x1f150, 0x1f169),
      (0x1f170, 0x1f189)] c

/-- Letters and letter-like signs that have a case. -/
def isCased (c : Char) : Bool :=
  ["Lu", "Ll", "Lt"].contains (category c) ||
    inRanges [(0xaa, 0xaa), (0xba, 0xba), (0x2b0, 0x2b8), (0x2c0, 0x2c1), (0x2e0, 0x2e4),
      (0x345, 0x345), (0x37a, 0x37a), (0x10fc, 0x10fc), (0x1d2c, 0x1d6a), (0x1d78, 0x1d78),
      (0x1d9b, 0x1dbf), (0x2071, 0x2071), (0x207f, 0x207f), (0x2090, 0x209c), (0x2160, 0x217f),
      (0x24b6, 0x24e9), (0x2c7c, 0x2c7d), (0xa69c, 0xa69d), (0xa770, 0xa770), (0xa7f2, 0xa7f4),
      (0xa7f8, 0xa7f9), (0xab5c, 0xab5f), (0xab69, 0xab69), (0x10780, 0x10780), (0x10783, 0x10785),
      (0x10787, 0x107b0), (0x107b2, 0x107ba), (0x1e030, 0x1e06d), (0x1f130, 0x1f149),
      (0x1f150, 0x1f169), (0x1f170, 0x1f189)] c

/-- Characters that the case of a letter ignores when it looks at its neighbours. -/
def isCaseIgnorable (c : Char) : Bool :=
  ["Mn", "Me", "Cf", "Lm", "Sk"].contains (category c) ||
    inRanges [(0x27, 0x27), (0x2e, 0x2e), (0x3a, 0x3a), (0xb7, 0xb7), (0x387, 0x387), (0x55f, 0x55f),
      (0x5f4, 0x5f4), (0x2018, 0x2019), (0x2024, 0x2024), (0x2027, 0x2027), (0xfe13, 0xfe13),
      (0xfe52, 0xfe52), (0xfe55, 0xfe55), (0xff07, 0xff07), (0xff0e, 0xff0e), (0xff1a, 0xff1a)] c

/-- Characters that extend the one before them. -/
def isExtender (c : Char) : Bool :=
  ["Mn", "Me"].contains (category c) ||
    inRanges [(0x9be, 0x9be), (0x9d7, 0x9d7), (0xb3e, 0xb3e), (0xb57, 0xb57), (0xbbe, 0xbbe),
      (0xbd7, 0xbd7), (0xcc2, 0xcc2), (0xcd5, 0xcd6), (0xd3e, 0xd3e), (0xd57, 0xd57), (0xdcf, 0xdcf),
      (0xddf, 0xddf), (0x1b35, 0x1b35), (0x200c, 0x200c), (0x302e, 0x302f), (0xff9e, 0xff9f),
      (0x1133e, 0x1133e), (0x11357, 0x11357), (0x114b0, 0x114b0), (0x114bd, 0x114bd),
      (0x115af, 0x115af), (0x11930, 0x11930), (0x1d165, 0x1d165), (0x1d16e, 0x1d172),
      (0xe0020, 0xe007f)] c

/-- The categories of characters that cannot be shown as they are. -/
def hiddenCategories : List String := ["Cc", "Cf", "Cs", "Co", "Cn", "Zs", "Zl", "Zp"]

/-- Characters that can be shown as they are: no controls, no formats, no unassigned ones, and of
the separators only the space. -/
def isShowable (c : Char) : Bool :=
  c = ' ' || !hiddenCategories.contains (category c)

end Reshape.Text
