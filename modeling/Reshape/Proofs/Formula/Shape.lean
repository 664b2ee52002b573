/-
# Reshape.Proofs.Formula.Shape -- derivations seen from outside

What can be said about the tokens of a derivation without reading them: with which kinds they begin,
that the end is not among them, and where a chain or a row of suffixes can be cut.

A sign after a construct may belong to a larger construct of the same symbol. `Kind.strength` orders
the signs by how tightly they bind to what stands before them, and `Stops n` says that the next sign
does not bind as tightly as `n`: a construct of that strength cannot go on.
-/

import Reshape.Proofs.Formula.Step

namespace Reshape.Formula

/-! ## What follows -/

/-- How tightly a sign binds to what stands before it. -/
def Kind.strength : Kind → Nat
  | .question => 1
  | .orOr => 2
  | .andAnd => 3
  | .eqEq | .notEq | .eqEqEq | .notEqEq => 4
  | .lt | .ltEq | .gt | .gtEq => 5
  | .plus | .minus => 6
  | .star | .slash | .percent => 7
  | .starStar => 8
  | .dot | .lbracket | .lparen => 9
  | _ => 0

/-- The strength of the operators of a level. -/
def Level.strength : Level → Nat
  | .or => 2
  | .and => 3
  | .equality => 4
  | .relation => 5
  | .sum => 6
  | .product => 7

/-- **The next sign binds less tightly than `n`.** -/
def Stops (n : Nat) (ks : List Kind) : Prop :=
  (ks.headD .eof).strength < n

theorem Stops.mono {m n : Nat} {ks : List Kind} (h : Stops m ks) (hmn : m ≤ n) : Stops n ks :=
  Nat.lt_of_lt_of_le h hmn

theorem Stops.cons {n : Nat} {k : Kind} {ks : List Kind} (h : k.strength < n) :
    Stops n (k :: ks) :=
  h

theorem Stops.headD_ne {n : Nat} {k : Kind} {ks : List Kind} (h : Stops n ks)
    (hk : n ≤ k.strength) : ks.headD .eof ≠ k := by
  rintro rfl
  exact absurd h (Nat.not_lt.mpr hk)

/-- No parenthesis opens next, so a name before it is not called. -/
def NoCall (ks : List Kind) : Prop :=
  ks.headD .eof ≠ .lparen

theorem NoCall.cons {k : Kind} {ks : List Kind} (h : k ≠ .lparen) : NoCall (k :: ks) :=
  h

theorem Stops.noCall {ks : List Kind} (h : Stops 9 ks) : NoCall ks :=
  h.headD_ne (Nat.le_refl 9)

namespace Grammar

theorem Operator.strength_kind {l : Level} (op : Operator l) : op.kind.strength = l.strength := by
  cases op <;> rfl

theorem Operator.strength_lt {l : Level} (op : Operator l) : op.kind.strength < l.strength + 1 :=
  Nat.lt_succ_of_le (Nat.le_of_eq op.strength_kind)

theorem Tighter.strength {l l' : Level} (h : Tighter l l') : l'.strength = l.strength + 1 := by
  cases h <;> rfl

theorem Operator.kind_inj {l : Level} {op op' : Operator l} (h : op.kind = op'.kind) :
    op = op' := by
  cases op <;> cases op' <;> first | rfl | cases h

/-- A sign that binds less tightly than a level is none of its operators. -/
theorem node?_of_stops {l : Level} {ks : List Kind} (h : Stops l.strength ks) :
    l.node? (ks.headD .eof) = none := by
  cases hn : l.node? (ks.headD .eof) with
  | none => rfl
  | some node =>
    obtain ⟨op, hop, -⟩ := exists_operator hn
    have hs := op.strength_kind
    rw [hop] at hs
    exact absurd h (Nat.not_lt.mpr (Nat.le_of_eq hs.symm))

end Grammar

/-! ## First tokens -/

/-- The kinds that a primary begins with. -/
def Kind.beginsPrimary : Kind → Bool
  | .number _ | .str _ | .ident _ | .lparen | .lbracket => true
  | _ => false

/-- The kinds that an expression begins with. -/
def Kind.begins : Kind → Bool
  | .minus | .plus | .bang => true
  | k => k.beginsPrimary

theorem Kind.begins_of_beginsPrimary {k : Kind} (h : k.beginsPrimary = true) : k.begins = true := by
  cases k <;> first | rfl | cases h

theorem unaryOp?_of_beginsPrimary {k : Kind} (h : k.beginsPrimary = true) : unaryOp? k = none := by
  cases k <;> first | rfl | cases h

/-- There is a first kind, and it is one of `p`. -/
def Begins (p : Kind → Bool) (ks : List Kind) : Prop :=
  ∃ k rest, ks = k :: rest ∧ p k = true

theorem Begins.append {p : Kind → Bool} {ks : List Kind} (h : Begins p ks) (more : List Kind) :
    Begins p (ks ++ more) := by
  obtain ⟨k, rest, rfl, hk⟩ := h
  exact ⟨k, rest ++ more, rfl, hk⟩

theorem Begins.mono {p q : Kind → Bool} {ks : List Kind} (h : Begins p ks)
    (hpq : ∀ {k}, p k = true → q k = true) : Begins q ks := by
  obtain ⟨k, rest, hks, hk⟩ := h
  exact ⟨k, rest, hks, hpq hk⟩

theorem Begins.headD {p : Kind → Bool} {ks : List Kind} (h : Begins p ks) :
    p (ks.headD .eof) = true := by
  obtain ⟨k, rest, rfl, hk⟩ := h
  exact hk

/-- The next token is of a kind that the kinds ahead begin with. -/
theorem Begins.peek {p : Kind → Bool} {ks more : List Kind} {ts : Tokens} (h : Begins p ks)
    (hts : ts.kinds = ks ++ more) : p ts.peek.kind = true := by
  rw [Tokens.peek_kind, hts]
  exact (h.append more).headD

theorem Begins.length_pos {p : Kind → Bool} {ks : List Kind} (h : Begins p ks) : 0 < ks.length := by
  obtain ⟨k, rest, rfl, -⟩ := h
  exact Nat.succ_pos rest.length

namespace Grammar

theorem Primary.begins (p : Primary) : Begins Kind.beginsPrimary p.kinds := by
  cases p <;> exact ⟨_, _, Primary.kinds.eq_def _, rfl⟩

theorem Suffixed.begins : (s : Suffixed) → Begins Kind.beginsPrimary s.kinds
  | .plain p => by
    rw [Suffixed.kinds]
    exact p.begins
  | .suffix s _ => by
    rw [Suffixed.kinds]
    exact s.begins.append _

theorem Unary.begins (u : Unary) : Begins Kind.begins u.kinds := by
  cases u with
  | plain s =>
    rw [Unary.kinds]
    exact s.begins.mono Kind.begins_of_beginsPrimary
  | signed op u =>
    refine ⟨signKind op, u.kinds, by rw [Unary.kinds], ?_⟩
    cases op <;> rfl

theorem Power.begins (p : Power) : Begins Kind.begins p.kinds := by
  cases p with
  | plain u =>
    rw [Power.kinds]
    exact u.begins
  | pow u p =>
    rw [Power.kinds]
    exact u.begins.append _

mutual

theorem Chain.begins : {l : Level} → (c : Chain l) → Begins Kind.begins c.kinds
  | _, .single o => by
    rw [Chain.kinds]
    exact o.begins
  | _, .link c _ _ => by
    rw [Chain.kinds]
    exact c.begins.append _

theorem Operand.begins : {l : Level} → (o : Operand l) → Begins Kind.begins o.kinds
  | _, .chain _ c => by
    rw [Operand.kinds]
    exact c.begins
  | _, .power p => by
    rw [Operand.kinds]
    exact p.begins

end

theorem Expression.begins (e : Expression) : Begins Kind.begins e.kinds := by
  cases e with
  | plain c =>
    rw [Expression.kinds]
    exact c.begins
  | choice c y n =>
    rw [Expression.kinds]
    exact c.begins.append _

theorem Items.begins (es : Items) : Begins Kind.begins es.kinds := by
  cases es with
  | last e =>
    rw [Items.kinds]
    exact e.begins
  | more e es =>
    rw [Items.kinds]
    exact e.begins.append _

/-! ## No end inside -/

mutual

theorem Expression.eof_not_mem : (e : Expression) → Kind.eof ∉ e.kinds
  | .plain c => by
    rw [Expression.kinds]
    exact c.eof_not_mem
  | .choice c y n => by
    rw [Expression.kinds]
    simp [c.eof_not_mem, y.eof_not_mem, n.eof_not_mem]

theorem Chain.eof_not_mem : {l : Level} → (c : Chain l) → Kind.eof ∉ c.kinds
  | _, .single o => by
    rw [Chain.kinds]
    exact o.eof_not_mem
  | _, .link c op o => by
    have hop : Kind.eof ≠ op.kind := by cases op <;> simp [Operator.kind]
    rw [Chain.kinds]
    simp [c.eof_not_mem, hop, o.eof_not_mem]

theorem Operand.eof_not_mem : {l : Level} → (o : Operand l) → Kind.eof ∉ o.kinds
  | _, .chain _ c => by
    rw [Operand.kinds]
    exact c.eof_not_mem
  | _, .power p => by
    rw [Operand.kinds]
    exact p.eof_not_mem

theorem Power.eof_not_mem : (p : Power) → Kind.eof ∉ p.kinds
  | .plain u => by
    rw [Power.kinds]
    exact u.eof_not_mem
  | .pow u p => by
    rw [Power.kinds]
    simp [u.eof_not_mem, p.eof_not_mem]

theorem Unary.eof_not_mem : (u : Unary) → Kind.eof ∉ u.kinds
  | .plain s => by
    rw [Unary.kinds]
    exact s.eof_not_mem
  | .signed op u => by
    have hop : Kind.eof ≠ signKind op := by cases op <;> simp [signKind]
    rw [Unary.kinds]
    simp [hop, u.eof_not_mem]

theorem Suffixed.eof_not_mem : (s : Suffixed) → Kind.eof ∉ s.kinds
  | .plain p => by
    rw [Suffixed.kinds]
    exact p.eof_not_mem
  | .suffix s x => by
    rw [Suffixed.kinds]
    simp [s.eof_not_mem, x.eof_not_mem]

theorem Suffix.eof_not_mem : (x : Suffix) → Kind.eof ∉ x.kinds
  | .member _ => by rw [Suffix.kinds]; simp
  | .method _ args => by rw [Suffix.kinds]; simp [args.eof_not_mem]
  | .index key => by rw [Suffix.kinds]; simp [key.eof_not_mem]

theorem Primary.eof_not_mem : (p : Primary) → Kind.eof ∉ p.kinds
  | .number _ => by rw [Primary.kinds]; simp
  | .str _ => by rw [Primary.kinds]; simp
  | .constant _ => by rw [Primary.kinds]; simp
  | .parens e => by rw [Primary.kinds]; simp [e.eof_not_mem]
  | .array items => by rw [Primary.kinds]; simp [items.eof_not_mem]
  | .math _ args => by rw [Primary.kinds]; simp [args.eof_not_mem]
  | .call _ args => by rw [Primary.kinds]; simp [args.eof_not_mem]

theorem Sequence.eof_not_mem : (es : Sequence) → Kind.eof ∉ es.kinds
  | .empty => by rw [Sequence.kinds]; simp
  | .items es => by
    rw [Sequence.kinds]
    exact es.eof_not_mem

theorem Items.eof_not_mem : (es : Items) → Kind.eof ∉ es.kinds
  | .last e => by
    rw [Items.kinds]
    exact e.eof_not_mem
  | .more e es => by
    rw [Items.kinds]
    simp [e.eof_not_mem, es.eof_not_mem]

end

/-! ## What a left side grows by -/

/-- An operator with the operand on its right. -/
structure Link (l : Level) where
  op : Operator l
  right : Operand l

def Link.kinds {l : Level} (s : Link l) : List Kind :=
  s.op.kind :: s.right.kinds

/-- A chain with one link more. -/
def Chain.grow {l : Level} (c : Chain l) (s : Link l) : Chain l :=
  .link c s.op s.right

theorem Chain.kinds_grow {l : Level} (c : Chain l) (s : Link l) :
    (c.grow s).kinds = c.kinds ++ s.kinds := by
  rw [Chain.grow, Chain.kinds, Link.kinds]

theorem Suffixed.kinds_suffix (s : Suffixed) (x : Suffix) :
    (Suffixed.suffix s x).kinds = s.kinds ++ x.kinds := by
  rw [Suffixed.kinds]

/-- The operand that a chain begins with. -/
def Chain.first {l : Level} : Chain l → Operand l
  | .single o => o
  | .link c _ _ => c.first

/-- The links of a chain, from left to right. -/
def Chain.links {l : Level} : Chain l → List (Link l)
  | .single _ => []
  | .link c op o => c.links ++ [⟨op, o⟩]

/-- The primary that has the suffixes. -/
def Suffixed.first : Suffixed → Primary
  | .plain p => p
  | .suffix s _ => s.first

/-- The suffixes, from left to right. -/
def Suffixed.suffixes : Suffixed → List Suffix
  | .plain _ => []
  | .suffix s x => s.suffixes ++ [x]

/-- **A chain is its first operand grown by its links.** -/
theorem Chain.eq_foldl {l : Level} : (c : Chain l) → c = c.links.foldl Chain.grow (.single c.first)
  | .single _ => rfl
  | .link c op o => by
    rw [Chain.links, List.foldl_append, Chain.first, ← c.eq_foldl]
    rfl

theorem Suffixed.eq_foldl : (s : Suffixed) → s = s.suffixes.foldl Suffixed.suffix (.plain s.first)
  | .plain _ => rfl
  | .suffix s x => by
    rw [Suffixed.suffixes, List.foldl_append, Suffixed.first, ← s.eq_foldl]
    rfl

/-- Each link has a token, and the first operand has one more. -/
theorem Chain.links_lt {l : Level} : (c : Chain l) → c.links.length < c.kinds.length
  | .single o => by
    rw [Chain.links, Chain.kinds]
    exact o.begins.length_pos
  | .link c op o => by
    have hc := c.links_lt
    rw [Chain.links, Chain.kinds, List.length_append, List.length_append, List.length_singleton,
      List.length_cons]
    omega

theorem Suffix.noCall (x : Suffix) (ks : List Kind) : NoCall (x.kinds ++ ks) := by
  cases x <;> rw [Suffix.kinds] <;> exact .cons (by simp)

theorem Suffix.kinds_pos (x : Suffix) : 0 < x.kinds.length := by
  cases x <;> rw [Suffix.kinds] <;> exact Nat.succ_pos _

theorem Suffixed.suffixes_lt : (s : Suffixed) → s.suffixes.length < s.kinds.length
  | .plain p => by
    rw [Suffixed.suffixes, Suffixed.kinds]
    exact p.begins.length_pos
  | .suffix s x => by
    have hs := s.suffixes_lt
    have hx := x.kinds_pos
    rw [Suffixed.suffixes, Suffixed.kinds, List.length_append, List.length_append,
      List.length_singleton]
    omega

end Grammar

end Reshape.Formula
