/-
# Reshape.Pattern.Replacement -- what takes the place of a match

A replacement is a text in which `$name` and `${name}` stand for what a group matched: a number
names a group by its number, anything else by its name. Without braces the name is as long as
letters, digits and underscores of ASCII go. `$$` is a dollar sign, and a dollar sign before
anything else stands for itself. A group that does not exist, or took no part in the match, is
empty.
-/

import Reshape.Pattern.Search

namespace Reshape.Pattern

/-- A part of a replacement. -/
inductive Piece where
  | text (cs : List Char)
  | group (name : List Char)
  deriving DecidableEq, Repr

/-- The characters of a name without braces. -/
def isNameLetter (c : Char) : Bool :=
  c.isAlphanum || c = '_'

/-- **The parts of a replacement.** -/
def pieces : (bound : Nat) → List Char → List Piece
  | 0, _ => []
  | _ + 1, [] => []
  | bound + 1, c :: cs =>
    if c ≠ '$' then .text [c] :: pieces bound cs
    else
      match cs with
      | '$' :: rest => .text ['$'] :: pieces bound rest
      | '\x7b' :: rest =>
        match rest.dropWhile (· ≠ '\x7d') with
        | _ :: after => .group (rest.takeWhile (· ≠ '\x7d')) :: pieces bound after
        | [] => .text ['$'] :: pieces bound cs
      | rest =>
        match rest.takeWhile isNameLetter with
        | [] => .text ['$'] :: pieces bound rest
        | name => .group name :: pieces bound (rest.dropWhile isNameLetter)

/-- The group that a name means. -/
def groupOf? (p : Pattern) (name : List Char) : Option Nat :=
  match Decimal.unsigned? name with
  | some n => some n
  | none => p.names.lookup (String.ofList name)

/-- What a group matched. -/
def matched (text : List Char) (marks : Marks) (group : Nat) : List Char :=
  match ends? marks group with
  | some (start, stop) => (text.drop start).take (stop - start)
  | none => []

/-- The text of a replacement for a match. -/
def expand (p : Pattern) (text : List Char) (marks : Marks) (replacement : List Piece) :
    List Char :=
  replacement.flatMap fun
    | .text cs => cs
    | .group name => ((p.groupOf? name).map (matched text marks)).getD []

/-- The text with the matches replaced; `position` is the end of the match before. -/
def substitute (p : Pattern) (text : List Char) (replacement : List Piece) :
    (position : Nat) → List Marks → List Char
  | position, [] => text.drop position
  | position, marks :: others =>
    match ends? marks 0 with
    | none => substitute p text replacement position others
    | some (start, stop) =>
      (text.drop position).take (start - position) ++ p.expand text marks replacement ++
        substitute p text replacement stop others

/-- **Replace every match, or the first one alone.** -/
def replace (p : Pattern) (everywhere : Bool) (replacement text : List Char) : List Char :=
  let found := p.occurrences text
  substitute p text (pieces (replacement.length + 1) replacement) 0
    (if everywhere then found else found.take 1)

end Reshape.Pattern
