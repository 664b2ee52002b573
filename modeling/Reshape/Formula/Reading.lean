/-
# Reshape.Formula.Reading -- trees from tokens

The grammar, from the loosest binding to the tightest:

    expression  =  or [ "?" expression ":" expression ]
    or          =  and { "||" and }
    and         =  equality { "&&" equality }
    equality    =  relation { ("==" | "!=" | "===" | "!==") relation }
    relation    =  sum { ("<" | "<=" | ">" | ">=") sum }
    sum         =  product { ("+" | "-") product }
    product     =  power { ("*" | "/" | "%") power }
    power       =  unary [ "**" power ]
    unary       =  ("-" | "+" | "!") unary  |  postfix
    postfix     =  primary { "." name | "." method arguments | "[" expression "]" }

and a primary is a literal, `value`, a parenthesised expression, an array, a call of a function of
`Math` or a call of a free function. The six levels with `{ }` bind to the left and are one
function, `chain`.

Nesting is limited twice. `depth` counts the expressions, operands of a sign and right sides of `**`
that enclose a place, and must stay within `maxDepth`; and no node may be higher than `maxDepth`.
The flaw shows at the next token in the first case and at the node's own token in the second.

The recursion runs on a bound computed from the number of tokens, which is never reached.
-/

import Reshape.Formula.Token
import Reshape.Formula.Term

namespace Reshape.Formula

/-- The tokens that are still to be read; the last one is `eof`. -/
abbrev Tokens := List Token

namespace Tokens

/-- The next token. -/
def peek (ts : Tokens) : Token :=
  ts.headD ⟨.eof, 0⟩

/-- The tokens after the next one; nothing comes after the end. -/
def advance : Tokens → Tokens
  | [] => []
  | t :: ts => if t.kind = .eof then t :: ts else ts

/-- A flaw at the next token. -/
def flaw {α : Type} (ts : Tokens) (f : Flaw) : Except ParseError α :=
  .error ⟨ts.peek.offset, f⟩

/-- Pass over a token of a given kind. -/
def expect (ts : Tokens) (kind : Kind) (what : Wanted) : Except ParseError Tokens :=
  if ts.peek.kind = kind then .ok ts.advance else ts.flaw (.wanted what)

/-- A name. -/
def name (ts : Tokens) (what : Wanted) : Except ParseError (String × Tokens) :=
  match ts.peek.kind with
  | .ident n => .ok (n, ts.advance)
  | _ => ts.flaw (.wanted what)

end Tokens

/-! ## Levels -/

/-- The levels of operators that bind to the left, loosest first. -/
inductive Level where
  | or
  | and
  | equality
  | relation
  | sum
  | product
  deriving DecidableEq, Repr

/-- The next tighter level. -/
def Level.tighter? : Level → Option Level
  | .or => some .and
  | .and => some .equality
  | .equality => some .relation
  | .relation => some .sum
  | .sum => some .product
  | .product => none

/-- An operator between two operands. -/
inductive Joint where
  | binary (op : BinaryOp)
  | logical (op : LogicalOp)
  deriving DecidableEq, Repr

/-- The tree of an operator over its operands. -/
def Joint.term : Joint → Term → Term → Term
  | .binary op => .binary op
  | .logical op => .logical op

/-- The operator of a sign on a level. -/
def Level.joint? : Level → Kind → Option Joint
  | .or, .orOr => some (.logical .or)
  | .and, .andAnd => some (.logical .and)
  | .equality, .eqEq => some (.binary .eq)
  | .equality, .notEq => some (.binary .notEq)
  | .equality, .eqEqEq => some (.binary .strictEq)
  | .equality, .notEqEq => some (.binary .strictNotEq)
  | .relation, .lt => some (.binary .lt)
  | .relation, .ltEq => some (.binary .ltEq)
  | .relation, .gt => some (.binary .gt)
  | .relation, .gtEq => some (.binary .gtEq)
  | .sum, .plus => some (.binary .add)
  | .sum, .minus => some (.binary .sub)
  | .product, .star => some (.binary .mul)
  | .product, .slash => some (.binary .div)
  | .product, .percent => some (.binary .rem)
  | _, _ => none

/-- What an operator sign makes of two trees on its level. -/
def Level.node? (l : Level) (k : Kind) : Option (Term → Term → Term) :=
  (l.joint? k).map Joint.term

/-- The sign before an operand. -/
def unaryOp? : Kind → Option UnaryOp
  | .minus => some .neg
  | .plus => some .plus
  | .bang => some .not
  | _ => none

/-- A node, unless it is too high. -/
def build (node : Term) (offset : Nat) : Except ParseError Term :=
  if maxDepth < node.height then .error ⟨offset, .tooDeep⟩ else .ok node

/-- One level of nesting deeper. -/
def deepen (depth : Nat) (ts : Tokens) : Except ParseError Nat :=
  if maxDepth ≤ depth then ts.flaw .tooDeep else .ok (depth + 1)

/-- The tree of a name that stands for itself. -/
def constant? : String → Option Term
  | "value" => some .input
  | "true" => some (.bool true)
  | "false" => some (.bool false)
  | "null" => some .null
  | "undefined" => some .undefined
  | "NaN" => some (.number (Float.ofBits 0x7ff8000000000000))
  | "Infinity" => some (.number (Float.ofBits 0x7ff0000000000000))
  | _ => none

/-! ## The grammar -/

mutual

/-- An expression, with or without a condition. -/
def expression : (bound depth : Nat) → Tokens → Except ParseError (Term × Tokens)
  | 0, _, ts => ts.flaw .tooDeep
  | bound + 1, depth, ts => do
    let depth ← deepen depth ts
    let (test, rest) ← chain bound depth .or ts
    if rest.peek.kind = .question then
      let (yes, rest) ← expression bound depth rest.advance
      let rest ← rest.expect .colon .colon
      let (no, rest) ← expression bound depth rest
      let t ← build (.conditional test yes no) ts.peek.offset
      return (t, rest)
    else return (test, rest)

/-- The operands of a level that binds to the left, with its operators between them. -/
def chain : (bound depth : Nat) → Level → Tokens → Except ParseError (Term × Tokens)
  | 0, _, _, ts => ts.flaw .tooDeep
  | bound + 1, depth, level, ts => do
    let (first, rest) ← operand bound depth level ts
    links bound depth level first rest

/-- What stands between the operators of a level. -/
def operand : (bound depth : Nat) → Level → Tokens → Except ParseError (Term × Tokens)
  | 0, _, _, ts => ts.flaw .tooDeep
  | bound + 1, depth, level, ts =>
    match level.tighter? with
    | some tighter => chain bound depth tighter ts
    | none => power bound depth ts

/-- Further operators of a level after a left side. -/
def links : (bound depth : Nat) → Level → Term → Tokens → Except ParseError (Term × Tokens)
  | 0, _, _, _, ts => ts.flaw .tooDeep
  | bound + 1, depth, level, left, ts =>
    match level.node? ts.peek.kind with
    | none => .ok (left, ts)
    | some node => do
      let (right, rest) ← operand bound depth level ts.advance
      let t ← build (node left right) ts.peek.offset
      links bound depth level t rest

/-- A power; the right side may be a power again. -/
def power : (bound depth : Nat) → Tokens → Except ParseError (Term × Tokens)
  | 0, _, ts => ts.flaw .tooDeep
  | bound + 1, depth, ts => do
    let (base, rest) ← unary bound depth ts
    if rest.peek.kind = .starStar then
      let inner ← deepen depth rest.advance
      let (exponent, after) ← power bound inner rest.advance
      let t ← build (.binary .pow base exponent) rest.peek.offset
      return (t, after)
    else return (base, rest)

/-- An operand with signs before it. -/
def unary : (bound depth : Nat) → Tokens → Except ParseError (Term × Tokens)
  | 0, _, ts => ts.flaw .tooDeep
  | bound + 1, depth, ts =>
    match unaryOp? ts.peek.kind with
    | none => do
      let (t, rest) ← primary bound depth ts
      suffixes bound depth t rest
    | some op => do
      let inner ← deepen depth ts.advance
      let (t, rest) ← unary bound inner ts.advance
      let t ← build (.unary op t) ts.peek.offset
      return (t, rest)

/-- Members, calls of methods and positions after a tree. -/
def suffixes : (bound depth : Nat) → Term → Tokens → Except ParseError (Term × Tokens)
  | 0, _, _, ts => ts.flaw .tooDeep
  | bound + 1, depth, t, ts =>
    let offset := ts.peek.offset
    match ts.peek.kind with
    | .dot => do
      let (name, rest) ← ts.advance.name .propertyName
      if rest.peek.kind = .lparen then
        match Method.ofName? name with
        | none => .error ⟨offset, .notMethod name⟩
        | some m => do
          let (args, rest) ← arguments bound depth rest.advance
          let t ← build (.method t m args) offset
          suffixes bound depth t rest
      else
        let t ← build (.member t name) offset
        suffixes bound depth t rest
    | .lbracket => do
      let (key, rest) ← expression bound depth ts.advance
      let rest ← rest.expect .rbracket .closingBracket
      let t ← build (.index t key) offset
      suffixes bound depth t rest
    | .lparen => .error ⟨offset, .notCallable⟩
    | _ => .ok (t, ts)

/-- Arguments after the opening parenthesis. -/
def arguments : (bound depth : Nat) → Tokens → Except ParseError (List Term × Tokens)
  | 0, _, ts => ts.flaw .tooDeep
  | bound + 1, depth, ts =>
    if ts.peek.kind = .rparen then .ok ([], ts.advance)
    else list bound depth .rparen .argumentEnd ts

/-- Expressions between commas, at least one, up to a closing sign. -/
def list : (bound depth : Nat) → Kind → Wanted → Tokens → Except ParseError (List Term × Tokens)
  | 0, _, _, _, ts => ts.flaw .tooDeep
  | bound + 1, depth, closing, what, ts => do
    let (t, rest) ← expression bound depth ts
    if rest.peek.kind = closing then return ([t], rest.advance)
    else
      let rest ← rest.expect .comma what
      let (more, rest) ← list bound depth closing what rest
      return (t :: more, rest)

/-- A literal, a name, or something in parentheses or brackets. -/
def primary : (bound depth : Nat) → Tokens → Except ParseError (Term × Tokens)
  | 0, _, ts => ts.flaw .tooDeep
  | bound + 1, depth, ts =>
    let offset := ts.peek.offset
    match ts.peek.kind with
    | .number x => .ok (.number x, ts.advance)
    | .str s => .ok (.str s, ts.advance)
    | .lparen => do
      let (t, rest) ← expression bound depth ts.advance
      let rest ← rest.expect .rparen .closingParen
      return (t, rest)
    | .lbracket =>
      if ts.advance.peek.kind = .rbracket then .ok (.array [], ts.advance.advance)
      else do
        let (items, rest) ← list bound depth .rbracket .itemEnd ts.advance
        let t ← build (.array items) offset
        return (t, rest)
    | .ident name => named bound depth name offset ts.advance
    | .eof => .error ⟨offset, .earlyEnd⟩
    | kind => .error ⟨offset, .unexpected kind⟩

/-- What follows a name that begins a primary at `offset`. -/
def named : (bound depth : Nat) → String → (offset : Nat) → Tokens →
    Except ParseError (Term × Tokens)
  | 0, _, _, _, ts => ts.flaw .tooDeep
  | bound + 1, depth, name, offset, ts =>
    match constant? name with
    | some t => .ok (t, ts)
    | none =>
      if name = "Math" then do
        let rest ← ts.expect .dot .mathDot
        let (function, rest) ← rest.name .mathName
        match MathFunction.ofName? function with
        | none => .error ⟨offset, .notMath function⟩
        | some f =>
          if rest.peek.kind = .lparen then do
            let (args, rest) ← arguments bound depth rest.advance
            let t ← build (.math f args) offset
            return (t, rest)
          else .error ⟨offset, .bareMath function⟩
      else
        match FreeFunction.ofName? name with
        | none => .error ⟨offset, .unknownName name⟩
        | some f =>
          if ts.peek.kind = .lparen then do
            let (args, rest) ← arguments bound depth ts.advance
            let t ← build (.call f args) offset
            return (t, rest)
          else .error ⟨offset, .bareFunction name⟩

end

/-- The bound on the recursion: no token is met by more than this many calls. -/
def boundFor (ts : Tokens) : Nat :=
  24 * (ts.length + 1)

/-- **The tree of a list of tokens.** -/
def Term.ofTokens (ts : Tokens) : Except ParseError Term := do
  let (t, rest) ← expression (boundFor ts) 0 ts
  if rest.peek.kind = .eof then return t else rest.flaw .trailing

/-- **The tree of a text.** -/
def Term.ofText (text : String) : Except ParseError Term :=
  if maxLength < text.utf8ByteSize then .error ⟨maxLength, .tooLong text.utf8ByteSize⟩
  else do
    let ts ← tokens text
    Term.ofTokens ts

end Reshape.Formula
