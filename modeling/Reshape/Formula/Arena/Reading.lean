/-
# Reshape.Formula.Arena.Reading -- numbered nodes from tokens

The grammar of `Reshape.Formula.Reading` once more, with an arena that grows while the tokens are
read: each construct adds its node after the nodes of its parts and hands on the node's place. The
limits are the same, and so are the flaws and the tokens at which they show.
-/

import Reshape.Formula.Arena.Basic

namespace Reshape.Formula

/-- The node of an operator over the places of its operands. -/
def Joint.node : Joint → NodeId → NodeId → Node
  | .binary op => .binary op
  | .logical op => .logical op

/-- The node of a name that stands for itself. -/
def constantNode? (name : String) : Option Node :=
  (constant? name).map fun t => t.node []

namespace Arena

/-- What was read, the tokens that are left, and the arena with the nodes added. -/
abbrev Progress (α : Type) := α × Tokens × Arena

mutual

/-- An expression, with or without a condition. -/
def expression : (bound depth : Nat) → Tokens → Arena → Except ParseError (Progress NodeId)
  | 0, _, ts, _ => ts.flaw .tooDeep
  | bound + 1, depth, ts, a => do
    let depth ← deepen depth ts
    let (test, rest, a) ← chain bound depth .or ts a
    if rest.peek.kind = .question then
      let (yes, rest, a) ← expression bound depth rest.advance a
      let rest ← rest.expect .colon .colon
      let (no, rest, a) ← expression bound depth rest a
      let (id, a) ← a.add (.conditional test yes no) ts.peek.offset
      return (id, rest, a)
    else return (test, rest, a)

/-- The operands of a level that binds to the left, with its operators between them. -/
def chain : (bound depth : Nat) → Level → Tokens → Arena →
    Except ParseError (Progress NodeId)
  | 0, _, _, ts, _ => ts.flaw .tooDeep
  | bound + 1, depth, level, ts, a => do
    let (first, rest, a) ← operand bound depth level ts a
    links bound depth level first rest a

/-- What stands between the operators of a level. -/
def operand : (bound depth : Nat) → Level → Tokens → Arena →
    Except ParseError (Progress NodeId)
  | 0, _, _, ts, _ => ts.flaw .tooDeep
  | bound + 1, depth, level, ts, a =>
    match level.tighter? with
    | some tighter => chain bound depth tighter ts a
    | none => power bound depth ts a

/-- Further operators of a level after a left side. -/
def links : (bound depth : Nat) → Level → NodeId → Tokens → Arena →
    Except ParseError (Progress NodeId)
  | 0, _, _, _, ts, _ => ts.flaw .tooDeep
  | bound + 1, depth, level, left, ts, a =>
    match level.joint? ts.peek.kind with
    | none => .ok (left, ts, a)
    | some joint => do
      let (right, rest, a) ← operand bound depth level ts.advance a
      let (id, a) ← a.add (joint.node left right) ts.peek.offset
      links bound depth level id rest a

/-- A power; the right side may be a power again. -/
def power : (bound depth : Nat) → Tokens → Arena → Except ParseError (Progress NodeId)
  | 0, _, ts, _ => ts.flaw .tooDeep
  | bound + 1, depth, ts, a => do
    let (base, rest, a) ← unary bound depth ts a
    if rest.peek.kind = .starStar then
      let inner ← deepen depth rest.advance
      let (exponent, after, a) ← power bound inner rest.advance a
      let (id, a) ← a.add (.binary .pow base exponent) rest.peek.offset
      return (id, after, a)
    else return (base, rest, a)

/-- An operand with signs before it. -/
def unary : (bound depth : Nat) → Tokens → Arena → Except ParseError (Progress NodeId)
  | 0, _, ts, _ => ts.flaw .tooDeep
  | bound + 1, depth, ts, a =>
    match unaryOp? ts.peek.kind with
    | none => do
      let (id, rest, a) ← primary bound depth ts a
      suffixes bound depth id rest a
    | some op => do
      let inner ← deepen depth ts.advance
      let (operand, rest, a) ← unary bound inner ts.advance a
      let (id, a) ← a.add (.unary op operand) ts.peek.offset
      return (id, rest, a)

/-- Members, calls of methods and positions after a node. -/
def suffixes : (bound depth : Nat) → NodeId → Tokens → Arena →
    Except ParseError (Progress NodeId)
  | 0, _, _, ts, _ => ts.flaw .tooDeep
  | bound + 1, depth, object, ts, a =>
    let offset := ts.peek.offset
    match ts.peek.kind with
    | .dot => do
      let (name, rest) ← ts.advance.name .propertyName
      if rest.peek.kind = .lparen then
        match Method.ofName? name with
        | none => .error ⟨offset, .notMethod name⟩
        | some m => do
          let (args, rest, a) ← arguments bound depth rest.advance a
          let (id, a) ← a.add (.method object m args) offset
          suffixes bound depth id rest a
      else
        let (id, a) ← a.add (.member object name) offset
        suffixes bound depth id rest a
    | .lbracket => do
      let (key, rest, a) ← expression bound depth ts.advance a
      let rest ← rest.expect .rbracket .closingBracket
      let (id, a) ← a.add (.index object key) offset
      suffixes bound depth id rest a
    | .lparen => .error ⟨offset, .notCallable⟩
    | _ => .ok (object, ts, a)

/-- Arguments after the opening parenthesis. -/
def arguments : (bound depth : Nat) → Tokens → Arena →
    Except ParseError (Progress (List NodeId))
  | 0, _, ts, _ => ts.flaw .tooDeep
  | bound + 1, depth, ts, a =>
    if ts.peek.kind = .rparen then .ok ([], ts.advance, a)
    else list bound depth .rparen .argumentEnd ts a

/-- Expressions between commas, at least one, up to a closing sign. -/
def list : (bound depth : Nat) → Kind → Wanted → Tokens → Arena →
    Except ParseError (Progress (List NodeId))
  | 0, _, _, _, ts, _ => ts.flaw .tooDeep
  | bound + 1, depth, closing, what, ts, a => do
    let (id, rest, a) ← expression bound depth ts a
    if rest.peek.kind = closing then return ([id], rest.advance, a)
    else
      let rest ← rest.expect .comma what
      let (more, rest, a) ← list bound depth closing what rest a
      return (id :: more, rest, a)

/-- A literal, a name, or something in parentheses or brackets. -/
def primary : (bound depth : Nat) → Tokens → Arena → Except ParseError (Progress NodeId)
  | 0, _, ts, _ => ts.flaw .tooDeep
  | bound + 1, depth, ts, a =>
    let offset := ts.peek.offset
    match ts.peek.kind with
    | .number x => do
      let (id, a) ← a.add (.number x) offset
      return (id, ts.advance, a)
    | .str s => do
      let (id, a) ← a.add (.str s) offset
      return (id, ts.advance, a)
    | .lparen => do
      let (id, rest, a) ← expression bound depth ts.advance a
      let rest ← rest.expect .rparen .closingParen
      return (id, rest, a)
    | .lbracket =>
      if ts.advance.peek.kind = .rbracket then do
        let (id, a) ← a.add (.array []) offset
        return (id, ts.advance.advance, a)
      else do
        let (items, rest, a) ← list bound depth .rbracket .itemEnd ts.advance a
        let (id, a) ← a.add (.array items) offset
        return (id, rest, a)
    | .ident name => named bound depth name offset ts.advance a
    | .eof => .error ⟨offset, .earlyEnd⟩
    | kind => .error ⟨offset, .unexpected kind⟩

/-- What follows a name that begins a primary at `offset`. -/
def named : (bound depth : Nat) → String → (offset : Nat) → Tokens → Arena →
    Except ParseError (Progress NodeId)
  | 0, _, _, _, ts, _ => ts.flaw .tooDeep
  | bound + 1, depth, name, offset, ts, a =>
    match constantNode? name with
    | some node => do
      let (id, a) ← a.add node offset
      return (id, ts, a)
    | none =>
      if name = "Math" then do
        let rest ← ts.expect .dot .mathDot
        let (function, rest) ← rest.name .mathName
        match MathFunction.ofName? function with
        | none => .error ⟨offset, .notMath function⟩
        | some f =>
          if rest.peek.kind = .lparen then do
            let (args, rest, a) ← arguments bound depth rest.advance a
            let (id, a) ← a.add (.math f args) offset
            return (id, rest, a)
          else .error ⟨offset, .bareMath function⟩
      else
        match FreeFunction.ofName? name with
        | none => .error ⟨offset, .unknownName name⟩
        | some f =>
          if ts.peek.kind = .lparen then do
            let (args, rest, a) ← arguments bound depth ts.advance a
            let (id, a) ← a.add (.call f args) offset
            return (id, rest, a)
          else .error ⟨offset, .bareFunction name⟩

end

/-- **The arena of a list of tokens.** -/
def ofTokens (ts : Tokens) : Except ParseError Arena := do
  let (id, rest, a) ← expression (boundFor ts) 0 ts {}
  if rest.peek.kind = .eof then return { a with root := some id } else rest.flaw .trailing

/-- **The arena of a text.** -/
def ofText (text : String) : Except ParseError Arena :=
  if maxLength < text.utf8ByteSize then .error ⟨maxLength, .tooLong text.utf8ByteSize⟩
  else do
    let ts ← tokens text
    ofTokens ts

end Arena

end Reshape.Formula
