/-
# Reshape.Pattern.Syntax -- the tree of a pattern

A pattern as a tree: sets of characters in sequence and in alternatives, repetitions that prefer
more or less, groups with and without a number, and assertions about the place between two
characters.

`minLength` and `maxLength` bound the texts that a tree matches, `height` is its depth.
-/

import Reshape.Pattern.CharSet

namespace Reshape.Pattern

/-- A claim about the place between two characters. -/
inductive Claim where
  | textStart
  | textEnd
  | lineStart
  | lineEnd
  | wordEdge
  | noWordEdge
  | wordStart
  | wordEnd
  | halfWordStart
  | halfWordEnd
  deriving DecidableEq, Repr

/-- **A claim**, with the alphabet that words are made of and the marks that end a line. -/
structure Look where
  claim : Claim
  asciiWords : Bool
  returns : Bool
  deriving DecidableEq, Repr

namespace Look

/-- The character belongs to a word. -/
def inWord (l : Look) (c : Char) : Bool :=
  if l.asciiWords then c.isAlphanum || c = '_' else Text.isWordChar c

/-- **The claim holds** between two characters; there is none at the ends of the text. -/
def holds (l : Look) (before after : Option Char) : Bool :=
  let left := before.any l.inWord
  let right := after.any l.inWord
  match l.claim with
  | .textStart => before.isNone
  | .textEnd => after.isNone
  | .lineStart =>
    match before with
    | none => true
    | some c => c = '\n' || (l.returns && c = '\r' && after != some '\n')
  | .lineEnd =>
    match after with
    | none => true
    | some c => if l.returns then c = '\r' || (c = '\n' && before != some '\r') else c = '\n'
  | .wordEdge => left != right
  | .noWordEdge => left == right
  | .wordStart => !left && right
  | .wordEnd => left && !right
  | .halfWordStart => !left
  | .halfWordEnd => !right

end Look

/-- **The tree of a pattern.** -/
inductive Node where
  | empty
  | one (set : CharSet)
  | look (l : Look)
  | times (least : Nat) (most : Option Nat) (greedy : Bool) (body : Node)
  | group (index : Option Nat) (body : Node)
  | seq (parts : List Node)
  | alt (choices : List Node)
  deriving Repr, Inhabited

namespace Node

/-- Several trees after one another. -/
def ofParts : List Node → Node
  | [] => .empty
  | [n] => n
  | ns => .seq ns

/-- Several trees to choose from, the first one preferred. -/
def ofChoices : List Node → Node
  | [n] => n
  | ns => .alt ns

mutual

/-- The shortest match. -/
def minLength : Node → Nat
  | .empty => 0
  | .one _ => 1
  | .look _ => 0
  | .times least _ _ body => least * body.minLength
  | .group _ body => body.minLength
  | .seq parts => minLengths parts
  | .alt choices => leastLength choices

def minLengths : List Node → Nat
  | [] => 0
  | n :: ns => n.minLength + minLengths ns

def leastLength : List Node → Nat
  | [] => 0
  | [n] => n.minLength
  | n :: ns => min n.minLength (leastLength ns)

end

mutual

/-- No match has any character. -/
def isAlwaysEmpty : Node → Bool
  | .empty => true
  | .one _ => false
  | .look _ => true
  | .times _ most _ body => most == some 0 || body.isAlwaysEmpty
  | .group _ body => body.isAlwaysEmpty
  | .seq parts => allAlwaysEmpty parts
  | .alt choices => allAlwaysEmpty choices

def allAlwaysEmpty : List Node → Bool
  | [] => true
  | n :: ns => n.isAlwaysEmpty && allAlwaysEmpty ns

end

mutual

/-- The number of levels; single characters and claims count as none. -/
def height : Node → Nat
  | .empty => 0
  | .one _ => 0
  | .look _ => 0
  | .times _ _ _ body => body.height + 1
  | .group _ body => body.height + 1
  | .seq parts => heights parts + 1
  | .alt choices => heights choices + 1

def heights : List Node → Nat
  | [] => 0
  | n :: ns => max n.height (heights ns)

end

end Node

end Reshape.Pattern
