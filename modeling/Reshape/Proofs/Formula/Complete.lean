/-
# Reshape.Proofs.Formula.Complete -- what has a derivation is read

A derivation within the limits on nesting and height is read by the function of its symbol, which
gives its tree, wherever the tokens after it stop the symbol. The recursion is over the derivation.

The reader runs on a bound, so a derivation needs room (`Room`): 24 calls for each of its tokens,
and a few for the way from the function of its symbol to the first one that passes over a token.
`Level.calls` counts that way for the operands of a level. A loop spends one call of the bound on
each turn, and each turn passes over a token, which gives back more than the turn spends.
-/

import Reshape.Proofs.Formula.Reads

namespace Reshape.Formula

/-! ## Room -/

/-- **There is room** for a derivation with these tokens, height and nesting at a bound and a depth,
with `calls` calls to spare. -/
structure Room (calls bound depth : Nat) (kinds : List Kind) (height nesting : Nat) : Prop where
  bound_le : 24 * kinds.length + calls ≤ bound
  nesting_le : depth + nesting ≤ maxDepth
  height_le : height ≤ maxDepth

theorem Room.exists_succ {calls bound depth height nesting : Nat} {kinds : List Kind}
    (h : Room (calls + 1) bound depth kinds height nesting) :
    ∃ b, bound = b + 1 ∧ Room calls b depth kinds height nesting := by
  have hbound := h.bound_le
  exact ⟨bound - 1, by omega, by omega, h.nesting_le, h.height_le⟩

/-- The calls from an operand of a level down to a power. -/
def Level.calls (l : Level) : Nat :=
  19 - 2 * l.strength

namespace Grammar

theorem Tighter.calls {l l' : Level} (h : Tighter l l') : l.calls = l'.calls + 2 := by
  cases h <;> rfl

/-- A bound with room for a chain has a call for each of its links. -/
theorem Chain.exists_bound {l : Level} {bound depth : Nat} (c : Chain l)
    (h : Room (l.calls + 1) bound depth c.kinds c.tree.height c.nesting) :
    ∃ b, bound = b + 1 + c.links.length + 1 ∧
      Room l.calls (b + 1 + 24 * c.links.length) depth c.kinds c.tree.height c.nesting := by
  have hlinks := c.links_lt
  have hbound := h.bound_le
  refine ⟨bound - c.links.length - 2, by omega, by omega, h.nesting_le, h.height_le⟩

theorem Suffixed.exists_bound {bound depth : Nat} (s : Suffixed)
    (h : Room 2 bound depth s.kinds s.tree.height s.nesting) :
    ∃ b, bound = b + 1 + s.suffixes.length ∧
      Room 2 (b + 1 + 24 * s.suffixes.length) depth s.kinds s.tree.height s.nesting := by
  have hsuffixes := s.suffixes_lt
  have hbound := h.bound_le
  refine ⟨bound - s.suffixes.length - 1, by omega, by omega, h.nesting_le, h.height_le⟩

theorem Operator.height_node {l : Level} (op : Operator l) (left right : Term) :
    (op.node left right).height = max left.height right.height + 1 := by
  cases op <;> rw [Operator.node, Term.height]

theorem Suffix.height_lt_node (x : Suffix) (t : Term) : t.height < (x.node t).height := by
  cases x <;> rw [Suffix.node, Term.height] <;> omega

/-! ## Derivations -/

mutual

/-- **An expression with room is read** where its tokens stop. -/
theorem Expression.reads : (d : Expression) → (bound depth : Nat) → (ks : List Kind) → Stops 1 ks →
    Room 17 bound depth d.kinds d.tree.height d.nesting →
    Reads (expression bound depth) d.kinds ks d.tree
  | .plain c, bound, depth, ks, hs, hr => by
    obtain ⟨bound, rfl, hb, hn, hh⟩ := hr.exists_succ
    rw [Expression.kinds] at hb
    rw [Expression.nesting] at hn
    rw [Expression.tree] at hh
    rw [Expression.kinds, Expression.tree]
    have hroom : Room (Level.or.calls + 1) bound (depth + 1) c.kinds c.tree.height c.nesting :=
      ⟨hb, by omega, hh⟩
    obtain ⟨b, rfl, hlinks⟩ := c.exists_bound hroom
    have hc := Chain.reaches c _ _ ks (hs.mono (by decide)) hlinks
    exact reads_plain (reads_chain hc (hs.mono (by decide))) (by omega) hs
  | .choice c y n, bound, depth, ks, hs, hr => by
    obtain ⟨bound, rfl, hb, hn, hh⟩ := hr.exists_succ
    simp only [Expression.kinds, List.length_append, List.length_cons] at hb
    rw [Expression.nesting] at hn
    rw [Expression.tree] at hh
    rw [Expression.kinds, Expression.tree]
    have hheights := hh
    rw [Term.height] at hheights
    -- the test stops at the question mark, the first branch at the colon
    have hy := Expression.reads y bound (depth + 1) (.colon :: (n.kinds ++ ks)) (.cons (by decide))
      ⟨by omega, by omega, by omega⟩
    have hno := Expression.reads n bound (depth + 1) ks hs ⟨by omega, by omega, by omega⟩
    have hroom : Room (Level.or.calls + 1) bound (depth + 1) c.kinds c.tree.height c.nesting :=
      ⟨by rw [show Level.or.calls = 15 from rfl]; omega, by omega, by omega⟩
    obtain ⟨b, rfl, hlinks⟩ := c.exists_bound hroom
    have hc := Chain.reaches c _ _ (.question :: (y.kinds ++ .colon :: (n.kinds ++ ks)))
      (.cons (by decide)) hlinks
    exact reads_choice (reads_chain hc (.cons (by decide))) hy hno (by omega) hh
termination_by structural d => d

theorem Chain.reaches : {l : Level} → (c : Chain l) → (bound depth : Nat) → (ks : List Kind) →
    Stops (l.strength + 1) ks →
    Room l.calls (bound + 24 * c.links.length) depth c.kinds c.tree.height c.nesting →
    Reaches (chain (bound + c.links.length + 1) depth l) c.kinds ks (links bound depth l c.tree)
  | l, .single o, bound, depth, ks, hs, hr => by
    rw [Chain.links, Chain.kinds, Chain.tree, Chain.nesting] at hr
    rw [Chain.links, Chain.kinds, Chain.tree]
    exact reaches_single (Operand.reads o bound depth ks hs hr)
  | l, .link c op o, bound, depth, ks, hs, hr => by
    obtain ⟨hb, hn, hh⟩ := hr
    simp only [Chain.kinds, Chain.links, List.length_append, List.length_cons,
      List.length_nil] at hb
    rw [Chain.nesting] at hn
    rw [Chain.tree] at hh
    have hheights := hh
    rw [op.height_node] at hheights
    have hlinks := c.links_lt
    have ho := Operand.reads o bound depth ks hs ⟨by omega, by omega, by omega⟩
    -- the turn for this link is one that the shorter chain has not spent
    have hc := Chain.reaches c (bound + 1) depth (op.kind :: (o.kinds ++ ks)) (.cons op.strength_lt)
      ⟨by omega, by omega, by omega⟩
    have hturns : bound + (Chain.link c op o).links.length + 1
        = bound + 1 + c.links.length + 1 := by
      rw [Chain.links, List.length_append, List.length_singleton]
      omega
    rw [Chain.kinds, Chain.tree, hturns]
    exact hc.trans (reaches_link op ho hh)
termination_by structural _ d => d

theorem Operand.reads : {l : Level} → (o : Operand l) → (bound depth : Nat) → (ks : List Kind) →
    Stops (l.strength + 1) ks →
    Room l.calls bound depth o.kinds o.tree.height o.nesting →
    Reads (operand bound depth l) o.kinds ks o.tree
  | _, .chain ht c, bound, depth, ks, hs, hr => by
    rw [ht.calls] at hr
    rw [← ht.strength] at hs
    obtain ⟨bound, rfl, hroom⟩ := hr.exists_succ
    rw [Operand.kinds, Operand.tree, Operand.nesting] at hroom
    rw [Operand.kinds, Operand.tree]
    obtain ⟨b, rfl, hlinks⟩ := c.exists_bound hroom
    have hc := Chain.reaches c _ _ ks (hs.mono (Nat.le_succ _)) hlinks
    exact reads_operand_chain (tighter?_eq_some.mpr ht) (reads_chain hc hs)
  | _, .power p, bound, depth, ks, hs, hr => by
    have hcalls : Level.product.calls = 4 + 1 := rfl
    rw [hcalls] at hr
    obtain ⟨bound, rfl, hroom⟩ := hr.exists_succ
    rw [Operand.kinds, Operand.tree, Operand.nesting] at hroom
    rw [Operand.kinds, Operand.tree]
    exact reads_operand_power (Power.reads p bound depth ks hs hroom)
termination_by structural _ d => d

theorem Power.reads : (p : Power) → (bound depth : Nat) → (ks : List Kind) → Stops 8 ks →
    Room 4 bound depth p.kinds p.tree.height p.nesting → Reads (power bound depth) p.kinds ks p.tree
  | .plain u, bound, depth, ks, hs, hr => by
    obtain ⟨bound, rfl, hroom⟩ := hr.exists_succ
    rw [Power.kinds, Power.tree, Power.nesting] at hroom
    rw [Power.kinds, Power.tree]
    exact reads_power_plain (Unary.reads u bound depth ks (hs.mono (by decide)) hroom) hs
  | .pow u p, bound, depth, ks, hs, hr => by
    obtain ⟨bound, rfl, hb, hn, hh⟩ := hr.exists_succ
    simp only [Power.kinds, List.length_append, List.length_cons] at hb
    rw [Power.nesting] at hn
    rw [Power.tree] at hh
    rw [Power.kinds, Power.tree]
    have hheights := hh
    rw [Term.height] at hheights
    have hu := Unary.reads u bound depth (.starStar :: (p.kinds ++ ks)) (.cons (by decide))
      ⟨by omega, by omega, by omega⟩
    have hp := Power.reads p bound (depth + 1) ks hs ⟨by omega, by omega, by omega⟩
    exact reads_power_pow hu hp (by omega) hh
termination_by structural d => d

theorem Unary.reads : (u : Unary) → (bound depth : Nat) → (ks : List Kind) → Stops 9 ks →
    Room 3 bound depth u.kinds u.tree.height u.nesting → Reads (unary bound depth) u.kinds ks u.tree
  | .plain s, bound, depth, ks, hs, hr => by
    obtain ⟨bound, rfl, hroom⟩ := hr.exists_succ
    rw [Unary.kinds, Unary.tree, Unary.nesting] at hroom
    rw [Unary.kinds, Unary.tree]
    obtain ⟨b, rfl, hsuffixes⟩ := s.exists_bound hroom
    have hreaches := Suffixed.reaches s _ _ ks hs.noCall hsuffixes
    exact reads_unary_plain (reads_suffixed hreaches hs) s.begins
  | .signed op u, bound, depth, ks, hs, hr => by
    obtain ⟨bound, rfl, hb, hn, hh⟩ := hr.exists_succ
    simp only [Unary.kinds, List.length_cons] at hb
    rw [Unary.nesting] at hn
    rw [Unary.tree] at hh
    rw [Unary.kinds, Unary.tree]
    have hheights := hh
    rw [Term.height] at hheights
    have hu := Unary.reads u bound (depth + 1) ks hs ⟨by omega, by omega, by omega⟩
    exact reads_signed op hu (by omega) hh
termination_by structural d => d

theorem Suffixed.reaches : (s : Suffixed) → (bound depth : Nat) → (ks : List Kind) →
    NoCall ks →
    Room 2 (bound + 24 * s.suffixes.length) depth s.kinds s.tree.height s.nesting →
    Reaches (suffixed (bound + s.suffixes.length) depth) s.kinds ks (suffixes bound depth s.tree)
  | .plain p, bound, depth, ks, hs, hr => by
    rw [Suffixed.suffixes, Suffixed.kinds, Suffixed.tree, Suffixed.nesting] at hr
    rw [Suffixed.suffixes, Suffixed.kinds, Suffixed.tree]
    exact reaches_suffixed_plain (Primary.reads p bound depth ks hr)
  | .suffix s x, bound, depth, ks, hne, hroom => by
    obtain ⟨hb, hn, hh⟩ := hroom
    simp only [Suffixed.kinds, Suffixed.suffixes, List.length_append, List.length_cons,
      List.length_nil] at hb
    rw [Suffixed.nesting] at hn
    rw [Suffixed.tree] at hh
    have hheight := x.height_lt_node s.tree
    have hsuffixes := s.suffixes_lt
    have hpos := x.kinds_pos
    have hs := Suffixed.reaches s (bound + 1) depth (x.kinds ++ ks) (x.noCall ks)
      ⟨by omega, by omega, by omega⟩
    have hturns : bound + (Suffixed.suffix s x).suffixes.length
        = bound + 1 + s.suffixes.length := by
      rw [Suffixed.suffixes, List.length_append, List.length_singleton]
      omega
    rw [Suffixed.kinds, Suffixed.tree, hturns]
    exact hs.trans (Suffix.reaches x bound depth ks s.tree hne ⟨by omega, by omega, hh⟩)
termination_by structural d => d

theorem Suffix.reaches : (x : Suffix) → (bound depth : Nat) → (ks : List Kind) → (t : Term) →
    NoCall ks → Room 2 (bound + 24) depth x.kinds (x.node t).height x.nesting →
    Reaches (suffixes (bound + 1) depth t) x.kinds ks (suffixes bound depth (x.node t))
  | .member name, bound, depth, ks, t, hne, hroom => by
    rw [Suffix.kinds, Suffix.node]
    exact reaches_member hne hroom.height_le
  | .method m args, bound, depth, ks, t, _, hroom => by
    obtain ⟨hb, hn, hh⟩ := hroom
    simp only [Suffix.kinds, List.length_append, List.length_cons, List.length_nil] at hb
    rw [Suffix.nesting] at hn
    rw [Suffix.node] at hh
    have hheights := hh
    rw [Term.height] at hheights
    rw [Suffix.kinds, Suffix.node]
    exact reaches_method m (Sequence.reads args bound depth ks ⟨by omega, hn, by omega⟩) hh
  | .index key, bound, depth, ks, t, _, hroom => by
    obtain ⟨hb, hn, hh⟩ := hroom
    simp only [Suffix.kinds, List.length_append, List.length_cons, List.length_nil] at hb
    rw [Suffix.nesting] at hn
    rw [Suffix.node] at hh
    have hheights := hh
    rw [Term.height] at hheights
    rw [Suffix.kinds, Suffix.node]
    have hk := Expression.reads key bound depth (.rbracket :: ks) (.cons (by decide))
      ⟨by omega, hn, by omega⟩
    exact reaches_index hk hh
termination_by structural d => d

theorem Primary.reads : (p : Primary) → (bound depth : Nat) → (ks : List Kind) →
    Room 2 bound depth p.kinds p.tree.height p.nesting →
    Reads (primary bound depth) p.kinds ks p.tree
  | .number x, bound, depth, ks, hr => by
    obtain ⟨bound, rfl, -⟩ := hr.exists_succ
    rw [Primary.kinds, Primary.tree]
    exact reads_number x
  | .str text, bound, depth, ks, hr => by
    obtain ⟨bound, rfl, -⟩ := hr.exists_succ
    rw [Primary.kinds, Primary.tree]
    exact reads_str text
  | .constant c, bound, depth, ks, hr => by
    -- one call for the primary, one for its name
    obtain ⟨bound, rfl, hroom⟩ := hr.exists_succ
    obtain ⟨bound, rfl, -⟩ := hroom.exists_succ
    rw [Primary.kinds, Primary.tree]
    exact reads_ident (reads_constant c)
  | .parens e, bound, depth, ks, hr => by
    obtain ⟨bound, rfl, hb, hn, hh⟩ := hr.exists_succ
    simp only [Primary.kinds, List.length_append, List.length_cons, List.length_nil] at hb
    rw [Primary.nesting] at hn
    rw [Primary.tree] at hh
    rw [Primary.kinds, Primary.tree]
    exact reads_parens (Expression.reads e bound depth (.rparen :: ks) (.cons (by decide))
      ⟨by omega, hn, hh⟩)
  | .array .empty, bound, depth, ks, hr => by
    obtain ⟨bound, rfl, -⟩ := hr.exists_succ
    rw [Primary.kinds, Primary.tree, Sequence.kinds, Sequence.trees]
    exact reads_empty_array
  | .array (.items es), bound, depth, ks, hr => by
    obtain ⟨bound, rfl, hb, hn, hh⟩ := hr.exists_succ
    simp only [Primary.kinds, Sequence.kinds, List.length_append, List.length_cons,
      List.length_nil] at hb
    rw [Primary.nesting, Sequence.nesting] at hn
    rw [Primary.tree, Sequence.trees] at hh
    rw [Primary.kinds, Primary.tree, Sequence.kinds, Sequence.trees]
    have hheights := hh
    rw [Term.height] at hheights
    have hes := Items.reads es bound depth .rbracket .itemEnd ks (.inr rfl)
      ⟨by omega, hn, by omega⟩
    exact reads_array hes (es.begins.append _) hh
  | .math f args, bound, depth, ks, hr => by
    obtain ⟨bound, rfl, hroom⟩ := hr.exists_succ
    obtain ⟨bound, rfl, hb, hn, hh⟩ := hroom.exists_succ
    simp only [Primary.kinds, List.length_append, List.length_cons, List.length_nil] at hb
    rw [Primary.nesting] at hn
    rw [Primary.tree] at hh
    rw [Primary.kinds, Primary.tree]
    have hheights := hh
    rw [Term.height] at hheights
    have ha := Sequence.reads args bound depth ks ⟨by omega, hn, by omega⟩
    exact reads_ident fun offset => reads_math f offset ha hh
  | .call f args, bound, depth, ks, hr => by
    obtain ⟨bound, rfl, hroom⟩ := hr.exists_succ
    obtain ⟨bound, rfl, hb, hn, hh⟩ := hroom.exists_succ
    simp only [Primary.kinds, List.length_append, List.length_cons, List.length_nil] at hb
    rw [Primary.nesting] at hn
    rw [Primary.tree] at hh
    rw [Primary.kinds, Primary.tree]
    have hheights := hh
    rw [Term.height] at hheights
    have ha := Sequence.reads args bound depth ks ⟨by omega, hn, by omega⟩
    exact reads_ident fun offset => reads_call f offset ha hh
termination_by structural d => d

theorem Sequence.reads : (es : Sequence) → (bound depth : Nat) → (ks : List Kind) →
    Room 19 bound depth es.kinds (Term.heights es.trees) es.nesting →
    Reads (arguments bound depth) (es.kinds ++ [.rparen]) ks es.trees
  | .empty, bound, depth, ks, hr => by
    obtain ⟨bound, rfl, -⟩ := hr.exists_succ
    rw [Sequence.kinds, Sequence.trees]
    exact reads_no_arguments
  | .items es, bound, depth, ks, hr => by
    obtain ⟨bound, rfl, hroom⟩ := hr.exists_succ
    rw [Sequence.kinds, Sequence.trees, Sequence.nesting] at hroom
    rw [Sequence.kinds, Sequence.trees]
    exact reads_arguments (Items.reads es bound depth .rparen .argumentEnd ks (.inl rfl) hroom)
      (es.begins.append _)
termination_by structural d => d

theorem Items.reads : (es : Items) → (bound depth : Nat) → (closing : Kind) → (what : Wanted) →
    (ks : List Kind) → closing = .rparen ∨ closing = .rbracket →
    Room 18 bound depth es.kinds (Term.heights es.trees) es.nesting →
    Reads (list bound depth closing what) (es.kinds ++ [closing]) ks es.trees
  | .last e, bound, depth, closing, what, ks, hc, hr => by
    obtain ⟨bound, rfl, hb, hn, hh⟩ := hr.exists_succ
    rw [Items.kinds] at hb
    rw [Items.nesting] at hn
    rw [Items.trees, Term.heights, Term.heights, Nat.max_zero] at hh
    rw [Items.kinds, Items.trees]
    have hstops : closing.strength < 1 := by rcases hc with rfl | rfl <;> decide
    have heof : closing ≠ .eof := by rcases hc with rfl | rfl <;> simp
    exact reads_last heof (Expression.reads e bound depth (closing :: ks) (.cons hstops)
      ⟨hb, hn, hh⟩)
  | .more e es, bound, depth, closing, what, ks, hc, hr => by
    obtain ⟨bound, rfl, hb, hn, hh⟩ := hr.exists_succ
    simp only [Items.kinds, List.length_append, List.length_cons] at hb
    rw [Items.nesting] at hn
    rw [Items.trees, Term.heights] at hh
    rw [Items.kinds, Items.trees, List.append_assoc]
    have hcomma : closing ≠ .comma := by rcases hc with rfl | rfl <;> simp
    have he := Expression.reads e bound depth (.comma :: ((es.kinds ++ [closing]) ++ ks))
      (.cons (by decide)) ⟨by omega, by omega, by omega⟩
    have hes := Items.reads es bound depth closing what ks hc ⟨by omega, by omega, by omega⟩
    exact reads_more hcomma he hes
termination_by structural d => d

end

end Grammar

end Reshape.Formula
