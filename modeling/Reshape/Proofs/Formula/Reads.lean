/-
# Reshape.Proofs.Formula.Reads -- a construct is read when its parts are

`Reads parse kinds ks a` says that `parse` passes over the kinds `kinds` in front of `ks` and gives
`a`. There is one lemma for each construct of the grammar: when the parts are read and the sign that
follows does not belong to the construct, the whole is read. Nothing here speaks of derivations.

A left side is read in a loop. What holds of it is that the reader comes, after the left side, to
the next turn of the loop with the tree of the left side in hand (`Reaches`); a link or a suffix is
one turn.
-/

import Reshape.Proofs.Formula.Shape

namespace Reshape.Formula

/-- **`parse` goes on as `resume` after `kinds` in front of `ks`.** -/
def Reaches {α : Type} (parse : Tokens → Except ParseError α) (kinds ks : List Kind)
    (resume : Tokens → Except ParseError α) : Prop :=
  ∀ ts : Tokens, ts.kinds = kinds ++ ks →
    ∃ rest : Tokens, rest.kinds = ks ∧ parse ts = resume rest

/-- **`parse` passes over `kinds` in front of `ks` and gives `a`.** -/
def Reads {α : Type} (parse : Tokens → Except ParseError (α × Tokens)) (kinds ks : List Kind)
    (a : α) : Prop :=
  Reaches parse kinds ks fun rest => .ok (a, rest)

theorem Reaches.trans {α : Type} {parse resume last : Tokens → Except ParseError α}
    {kinds more ks : List Kind} (h : Reaches parse kinds (more ++ ks) resume)
    (hmore : Reaches resume more ks last) : Reaches parse (kinds ++ more) ks last := by
  intro ts hts
  rw [List.append_assoc] at hts
  obtain ⟨rest, hrest, hparse⟩ := h ts hts
  obtain ⟨after, hafter, hresume⟩ := hmore rest hrest
  exact ⟨after, hafter, hparse.trans hresume⟩

section

variable {b depth : Nat} {ks : List Kind} {t : Term} {kinds : List Kind}

/-! ## Expressions -/

theorem reads_plain (hc : Reads (chain b (depth + 1) .or) kinds ks t) (hd : depth < maxDepth)
    (hs : Stops 1 ks) : Reads (expression (b + 1) depth) kinds ks t := by
  intro ts hts
  obtain ⟨rest, hrest, hread⟩ := hc ts hts
  refine ⟨rest, hrest, ?_⟩
  have hq : rest.peek.kind ≠ .question := by
    rw [Tokens.peek_kind, hrest]
    exact hs.headD_ne (Nat.le_refl 1)
  rw [expression, deepen_of_lt hd, ok_bind, hread, ok_bind]
  dsimp only
  rw [if_neg hq]
  rfl

theorem reads_choice {test yes no : List Kind} {c y n : Term}
    (hc : Reads (chain b (depth + 1) .or) test (.question :: (yes ++ .colon :: (no ++ ks))) c)
    (hy : Reads (expression b (depth + 1)) yes (.colon :: (no ++ ks)) y)
    (hn : Reads (expression b (depth + 1)) no ks n) (hd : depth < maxDepth)
    (hh : (Term.conditional c y n).height ≤ maxDepth) :
    Reads (expression (b + 1) depth) (test ++ .question :: (yes ++ .colon :: no)) ks
      (.conditional c y n) := by
  intro ts hts
  obtain ⟨rest, hrest, hread⟩ := hc ts (by simpa using hts)
  obtain ⟨afterYes, hafterYes, hreadYes⟩ := hy rest.advance (Tokens.kinds_advance hrest (by simp))
  obtain ⟨afterColon, hafterColon, hcolon⟩ := Tokens.expect_of_kinds hafterYes (by simp) .colon
  obtain ⟨afterNo, hafterNo, hreadNo⟩ := hn afterColon hafterColon
  refine ⟨afterNo, hafterNo, ?_⟩
  rw [expression, deepen_of_lt hd, ok_bind, hread, ok_bind]
  dsimp only
  rw [if_pos (Tokens.peek_of_kinds hrest), hreadYes, ok_bind]
  dsimp only
  rw [hcolon, ok_bind, hreadNo, ok_bind]
  dsimp only
  rw [build_of_le hh]
  rfl

/-! ## Chains -/

theorem reads_operand_chain {l l' : Level} (hl : l.tighter? = some l')
    (hc : Reads (chain b depth l') kinds ks t) : Reads (operand (b + 1) depth l) kinds ks t := by
  intro ts hts
  obtain ⟨rest, hrest, hread⟩ := hc ts hts
  refine ⟨rest, hrest, ?_⟩
  rw [operand, hl]
  exact hread

theorem reads_operand_power (hp : Reads (power b depth) kinds ks t) :
    Reads (operand (b + 1) depth .product) kinds ks t := by
  intro ts hts
  obtain ⟨rest, hrest, hread⟩ := hp ts hts
  refine ⟨rest, hrest, ?_⟩
  rw [operand]
  exact hread

theorem reaches_single {l : Level} (ho : Reads (operand b depth l) kinds ks t) :
    Reaches (chain (b + 1) depth l) kinds ks (links b depth l t) := by
  intro ts hts
  obtain ⟨rest, hrest, hread⟩ := ho ts hts
  refine ⟨rest, hrest, ?_⟩
  rw [chain, hread]
  rfl

theorem reaches_link {l : Level} {left o : Term} (op : Grammar.Operator l)
    (ho : Reads (operand b depth l) kinds ks o) (hh : (op.node left o).height ≤ maxDepth) :
    Reaches (links (b + 1) depth l left) (op.kind :: kinds) ks
      (links b depth l (op.node left o)) := by
  intro ts hts
  have hop : op.kind ≠ .eof := by cases op <;> simp [Grammar.Operator.kind]
  obtain ⟨rest, hrest, hread⟩ := ho ts.advance (Tokens.kinds_advance hts hop)
  refine ⟨rest, hrest, ?_⟩
  rw [links, Tokens.peek_of_kinds hts, node?_kind]
  dsimp only
  rw [hread, ok_bind]
  dsimp only
  rw [build_of_le hh]
  rfl

/-- The loop ends where the level stops. -/
theorem reads_chain {l : Level} {m : Nat}
    (hc : Reaches (chain m depth l) kinds ks (links (b + 1) depth l t))
    (hs : Stops l.strength ks) : Reads (chain m depth l) kinds ks t := by
  intro ts hts
  obtain ⟨rest, hrest, hread⟩ := hc ts hts
  refine ⟨rest, hrest, ?_⟩
  rw [hread, links, Tokens.peek_kind, hrest, Grammar.node?_of_stops hs]

/-! ## Powers and signs -/

theorem reads_power_plain (hu : Reads (unary b depth) kinds ks t) (hs : Stops 8 ks) :
    Reads (power (b + 1) depth) kinds ks t := by
  intro ts hts
  obtain ⟨rest, hrest, hread⟩ := hu ts hts
  refine ⟨rest, hrest, ?_⟩
  have hstar : rest.peek.kind ≠ .starStar := by
    rw [Tokens.peek_kind, hrest]
    exact hs.headD_ne (Nat.le_refl 8)
  rw [power, hread, ok_bind]
  dsimp only
  rw [if_neg hstar]
  rfl

theorem reads_power_pow {base exponent : List Kind} {u p : Term}
    (hu : Reads (unary b depth) base (.starStar :: (exponent ++ ks)) u)
    (hp : Reads (power b (depth + 1)) exponent ks p) (hd : depth < maxDepth)
    (hh : (Term.binary .pow u p).height ≤ maxDepth) :
    Reads (power (b + 1) depth) (base ++ .starStar :: exponent) ks (.binary .pow u p) := by
  intro ts hts
  obtain ⟨rest, hrest, hread⟩ := hu ts (by simpa using hts)
  obtain ⟨after, hafter, hexponent⟩ := hp rest.advance (Tokens.kinds_advance hrest (by simp))
  refine ⟨after, hafter, ?_⟩
  rw [power, hread, ok_bind]
  dsimp only
  rw [if_pos (Tokens.peek_of_kinds hrest), deepen_of_lt hd, ok_bind, hexponent, ok_bind]
  dsimp only
  rw [build_of_le hh]
  rfl

theorem reads_signed (op : UnaryOp) (hu : Reads (unary b (depth + 1)) kinds ks t)
    (hd : depth < maxDepth) (hh : (Term.unary op t).height ≤ maxDepth) :
    Reads (unary (b + 1) depth) (Grammar.signKind op :: kinds) ks (.unary op t) := by
  intro ts hts
  have hop : Grammar.signKind op ≠ .eof := by cases op <;> simp [Grammar.signKind]
  obtain ⟨rest, hrest, hread⟩ := hu ts.advance (Tokens.kinds_advance hts hop)
  refine ⟨rest, hrest, ?_⟩
  rw [unary, Tokens.peek_of_kinds hts, unaryOp?_eq_some.mpr rfl]
  dsimp only
  rw [deepen_of_lt hd, ok_bind, hread, ok_bind]
  dsimp only
  rw [build_of_le hh]
  rfl

/-! ## Suffixes -/

/-- A primary and what stands after it. -/
def suffixed (b depth : Nat) (ts : Tokens) : Except ParseError (Term × Tokens) := do
  let (t, rest) ← primary b depth ts
  suffixes b depth t rest

theorem reaches_suffixed_plain (hp : Reads (primary b depth) kinds ks t) :
    Reaches (suffixed b depth) kinds ks (suffixes b depth t) := by
  intro ts hts
  obtain ⟨rest, hrest, hread⟩ := hp ts hts
  refine ⟨rest, hrest, ?_⟩
  rw [suffixed, hread]
  rfl

theorem reaches_member {name : String} (hne : NoCall ks)
    (hh : (Term.member t name).height ≤ maxDepth) :
    Reaches (suffixes (b + 1) depth t) [.dot, .ident name] ks
      (suffixes b depth (.member t name)) := by
  intro ts hts
  obtain ⟨rest, hrest, hname⟩ :=
    Tokens.name_of_kinds (Tokens.kinds_advance hts (by simp)) .propertyName
  refine ⟨rest, hrest, ?_⟩
  have hparen : rest.peek.kind ≠ .lparen := by
    rw [Tokens.peek_kind, hrest]
    exact hne
  rw [suffixes, Tokens.peek_of_kinds hts]
  dsimp only
  rw [hname, ok_bind]
  dsimp only
  rw [if_neg hparen, build_of_le hh]
  rfl

theorem reaches_method {args : List Term} (m : Method)
    (ha : Reads (arguments b depth) kinds ks args) (hh : (Term.method t m args).height ≤ maxDepth) :
    Reaches (suffixes (b + 1) depth t) (.dot :: .ident m.name :: .lparen :: kinds) ks
      (suffixes b depth (.method t m args)) := by
  intro ts hts
  obtain ⟨afterName, hafterName, hname⟩ :=
    Tokens.name_of_kinds (Tokens.kinds_advance hts (by simp)) .propertyName
  obtain ⟨rest, hrest, hargs⟩ :=
    ha afterName.advance (Tokens.kinds_advance hafterName (by simp))
  refine ⟨rest, hrest, ?_⟩
  rw [suffixes, Tokens.peek_of_kinds hts]
  dsimp only
  rw [hname, ok_bind]
  dsimp only
  rw [if_pos (Tokens.peek_of_kinds hafterName), Method.ofName?_eq_some.mpr rfl]
  dsimp only
  rw [hargs, ok_bind]
  dsimp only
  rw [build_of_le hh]
  rfl

theorem reaches_index {key : Term} (hk : Reads (expression b depth) kinds (.rbracket :: ks) key)
    (hh : (Term.index t key).height ≤ maxDepth) :
    Reaches (suffixes (b + 1) depth t) (.lbracket :: (kinds ++ [.rbracket])) ks
      (suffixes b depth (.index t key)) := by
  intro ts hts
  obtain ⟨afterKey, hafterKey, hkey⟩ :=
    hk ts.advance (by simpa using Tokens.kinds_advance hts (by simp))
  obtain ⟨rest, hrest, hclose⟩ := Tokens.expect_of_kinds hafterKey (by simp) .closingBracket
  refine ⟨rest, hrest, ?_⟩
  rw [suffixes, Tokens.peek_of_kinds hts]
  dsimp only
  rw [hkey, ok_bind]
  dsimp only
  rw [hclose, ok_bind, build_of_le hh]
  rfl

/-- The loop ends where no suffix follows. -/
theorem reads_suffixed {m : Nat}
    (hs : Reaches (suffixed m depth) kinds ks (suffixes (b + 1) depth t)) (hstops : Stops 9 ks) :
    Reads (suffixed m depth) kinds ks t := by
  intro ts hts
  obtain ⟨rest, hrest, hread⟩ := hs ts hts
  refine ⟨rest, hrest, ?_⟩
  have hpeek : rest.peek.kind.strength < 9 := by
    rw [Tokens.peek_kind, hrest]
    exact hstops
  rw [hread, suffixes]
  -- only signs of strength 9 have an arm of their own
  cases hk : rest.peek.kind <;> rw [hk] at hpeek <;> first | rfl | exact absurd hpeek (by decide)

theorem reads_unary_plain (hs : Reads (suffixed b depth) kinds ks t)
    (hb : Begins Kind.beginsPrimary kinds) : Reads (unary (b + 1) depth) kinds ks t := by
  intro ts hts
  obtain ⟨rest, hrest, hread⟩ := hs ts hts
  refine ⟨rest, hrest, ?_⟩
  rw [unary, unaryOp?_of_beginsPrimary (hb.peek hts)]
  exact hread

/-! ## Lists -/

theorem reads_last {closing : Kind} {what : Wanted} (hc : closing ≠ .eof)
    (he : Reads (expression b depth) kinds (closing :: ks) t) :
    Reads (list (b + 1) depth closing what) (kinds ++ [closing]) ks [t] := by
  intro ts hts
  obtain ⟨rest, hrest, hread⟩ := he ts (by simpa using hts)
  refine ⟨rest.advance, Tokens.kinds_advance hrest hc, ?_⟩
  rw [list, hread, ok_bind]
  dsimp only
  rw [if_pos (Tokens.peek_of_kinds hrest)]
  rfl

theorem reads_more {closing : Kind} {what : Wanted} {more : List Kind} {ts : List Term}
    (hc : closing ≠ .comma) (he : Reads (expression b depth) kinds (.comma :: (more ++ ks)) t)
    (hes : Reads (list b depth closing what) more ks ts) :
    Reads (list (b + 1) depth closing what) (kinds ++ .comma :: more) ks (t :: ts) := by
  intro tokens htokens
  obtain ⟨rest, hrest, hread⟩ := he tokens (by simpa using htokens)
  obtain ⟨afterComma, hafterComma, hcomma⟩ := Tokens.expect_of_kinds hrest (by simp) what
  obtain ⟨after, hafter, hmore⟩ := hes afterComma hafterComma
  refine ⟨after, hafter, ?_⟩
  have hpeek : rest.peek.kind ≠ closing := by
    rw [Tokens.peek_of_kinds hrest]
    exact hc.symm
  rw [list, hread, ok_bind]
  dsimp only
  rw [if_neg hpeek, hcomma, ok_bind, hmore]
  rfl

theorem reads_no_arguments : Reads (arguments (b + 1) depth) [.rparen] ks [] := by
  intro ts hts
  refine ⟨ts.advance, Tokens.kinds_advance hts (by simp), ?_⟩
  rw [arguments, if_pos (Tokens.peek_of_kinds hts)]

theorem reads_arguments {ts : List Term}
    (hes : Reads (list b depth .rparen .argumentEnd) kinds ks ts) (hb : Begins Kind.begins kinds) :
    Reads (arguments (b + 1) depth) kinds ks ts := by
  intro tokens htokens
  obtain ⟨rest, hrest, hread⟩ := hes tokens htokens
  refine ⟨rest, hrest, ?_⟩
  have hpeek : tokens.peek.kind ≠ .rparen := by
    intro h
    have hk := hb.peek htokens
    rw [h] at hk
    cases hk
  rw [arguments, if_neg hpeek]
  exact hread

/-! ## Primaries -/

theorem reads_number (x : Float) : Reads (primary (b + 1) depth) [.number x] ks (.number x) := by
  intro ts hts
  refine ⟨ts.advance, Tokens.kinds_advance hts (by simp), ?_⟩
  rw [primary, Tokens.peek_of_kinds hts]

theorem reads_str (text : String) : Reads (primary (b + 1) depth) [.str text] ks (.str text) := by
  intro ts hts
  refine ⟨ts.advance, Tokens.kinds_advance hts (by simp), ?_⟩
  rw [primary, Tokens.peek_of_kinds hts]

theorem reads_parens (he : Reads (expression b depth) kinds (.rparen :: ks) t) :
    Reads (primary (b + 1) depth) (.lparen :: (kinds ++ [.rparen])) ks t := by
  intro ts hts
  obtain ⟨rest, hrest, hread⟩ :=
    he ts.advance (by simpa using Tokens.kinds_advance hts (by simp))
  obtain ⟨after, hafter, hclose⟩ := Tokens.expect_of_kinds hrest (by simp) .closingParen
  refine ⟨after, hafter, ?_⟩
  rw [primary, Tokens.peek_of_kinds hts]
  dsimp only
  rw [hread, ok_bind]
  dsimp only
  rw [hclose]
  rfl

theorem reads_empty_array :
    Reads (primary (b + 1) depth) [.lbracket, .rbracket] ks (.array []) := by
  intro ts hts
  have hnext := Tokens.kinds_advance hts (by simp)
  refine ⟨ts.advance.advance, Tokens.kinds_advance hnext (by simp), ?_⟩
  rw [primary, Tokens.peek_of_kinds hts]
  dsimp only
  rw [if_pos (Tokens.peek_of_kinds hnext)]

theorem reads_array {items : List Term}
    (hes : Reads (list b depth .rbracket .itemEnd) kinds ks items) (hb : Begins Kind.begins kinds)
    (hh : (Term.array items).height ≤ maxDepth) :
    Reads (primary (b + 1) depth) (.lbracket :: kinds) ks (.array items) := by
  intro ts hts
  have hnext : ts.advance.kinds = kinds ++ ks := Tokens.kinds_advance hts (by simp)
  obtain ⟨rest, hrest, hread⟩ := hes ts.advance hnext
  refine ⟨rest, hrest, ?_⟩
  have hpeek : ts.advance.peek.kind ≠ .rbracket := by
    intro h
    have hk := hb.peek hnext
    rw [h] at hk
    cases hk
  rw [primary, Tokens.peek_of_kinds hts]
  dsimp only
  rw [if_neg hpeek, hread, ok_bind]
  dsimp only
  rw [build_of_le hh]
  rfl

/-- A primary that begins with a name is what the name makes of the tokens after it. -/
theorem reads_ident {name : String}
    (hn : ∀ offset, Reads (named b depth name offset) kinds ks t) :
    Reads (primary (b + 1) depth) (.ident name :: kinds) ks t := by
  intro ts hts
  obtain ⟨rest, hrest, hread⟩ := hn ts.peek.offset ts.advance (Tokens.kinds_advance hts (by simp))
  refine ⟨rest, hrest, ?_⟩
  rw [primary, Tokens.peek_of_kinds hts]
  exact hread

theorem reads_constant (c : Grammar.Constant) (offset : Nat) :
    Reads (named (b + 1) depth c.name offset) [] ks c.tree := by
  intro ts hts
  refine ⟨ts, hts, ?_⟩
  rw [named, constant?_name]

theorem reads_math {args : List Term} (f : MathFunction) (offset : Nat)
    (ha : Reads (arguments b depth) kinds ks args) (hh : (Term.math f args).height ≤ maxDepth) :
    Reads (named (b + 1) depth "Math" offset)
      (.dot :: .ident (Grammar.mathName f) :: .lparen :: kinds) ks (.math f args) := by
  intro ts hts
  obtain ⟨afterDot, hafterDot, hdot⟩ := Tokens.expect_of_kinds hts (by simp) .mathDot
  obtain ⟨afterName, hafterName, hname⟩ := Tokens.name_of_kinds hafterDot .mathName
  obtain ⟨after, hafter, hargs⟩ := ha afterName.advance (Tokens.kinds_advance hafterName (by simp))
  refine ⟨after, hafter, ?_⟩
  have hmath : constant? "Math" = none := rfl
  rw [named, hmath]
  dsimp only
  rw [if_pos rfl, hdot, ok_bind, hname, ok_bind]
  dsimp only
  rw [MathFunction.ofName?_eq_some.mpr rfl]
  dsimp only
  rw [if_pos (Tokens.peek_of_kinds hafterName), hargs, ok_bind]
  dsimp only
  rw [build_of_le hh]
  rfl

theorem reads_call {args : List Term} (f : FreeFunction) (offset : Nat)
    (ha : Reads (arguments b depth) kinds ks args) (hh : (Term.call f args).height ≤ maxDepth) :
    Reads (named (b + 1) depth (Grammar.freeName f) offset) (.lparen :: kinds) ks
      (.call f args) := by
  intro ts hts
  obtain ⟨after, hafter, hargs⟩ := ha ts.advance (Tokens.kinds_advance hts (by simp))
  refine ⟨after, hafter, ?_⟩
  rw [named, constant?_freeName]
  dsimp only
  rw [if_neg (freeName_ne_math f), FreeFunction.ofName?_eq_some.mpr rfl]
  dsimp only
  rw [if_pos (Tokens.peek_of_kinds hts), hargs, ok_bind]
  dsimp only
  rw [build_of_le hh]
  rfl

end

end Reshape.Formula
