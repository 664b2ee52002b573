/-
# Reshape.Proposal.Similarity -- how alike two texts are

The distance of two texts is the least number of characters that have to be inserted, deleted or
replaced to get from one to the other. It is computed row by row: the row for a start of the first
text has the distances to every start of the second one. Similarity is measured without regard to
case, on a scale from 0 to 1, by the distance in proportion to the longer text.
-/

import Reshape.Text.Case

namespace Reshape.Proposal

/-- The entries of a row after its first one. `left` is the entry before; the entries of the row
above start with the one above `left`. -/
def sweep (x : Char) : (left : Nat) → List Char → List Nat → List Nat
  | left, y :: ys, diagonal :: above :: rest =>
    let entry := min (min (above + 1) (left + 1)) (diagonal + if x = y then 0 else 1)
    entry :: sweep x entry ys (above :: rest)
  | _, _, _ => []

/-- The row for one character more of the first text. -/
def nextRow (ys : List Char) (row : List Nat) (x : Char) : List Nat :=
  match row with
  | [] => []
  | first :: _ => (first + 1) :: sweep x (first + 1) ys row

/-- The row for the whole first text. -/
def lastRow (xs ys : List Char) : List Nat :=
  xs.foldl (nextRow ys) (List.range (ys.length + 1))

/-- **The distance of two texts.** -/
def distance (xs ys : List Char) : Nat :=
  ((lastRow xs ys).getLast?).getD 0

/-- **The similarity of two texts.** Two empty texts are alike. -/
def similarity (a b : String) : Float :=
  let xs := Text.lower a.toList
  let ys := Text.lower b.toList
  let longest := max xs.length ys.length
  if longest = 0 then 1.0
  else 1.0 - Float.ofNat (distance xs ys) / Float.ofNat longest

end Reshape.Proposal
