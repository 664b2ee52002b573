/-
# Reshape.Proofs.Formula.Size -- how large a tree can be

A tree has at most as many nodes as there are tokens that it is read from: each construct has a
token of its own, a name, a sign or a bracket. This is proved for derivations
(`Grammar.Expression.size_le`) and carries over to the readers by their soundness, where the tokens
that are left are accounted for as well (`size_of_expression` and its like).
-/

import Reshape.Proofs.Formula.Sound

namespace Reshape.Formula

/-! ## Derivations -/

namespace Grammar

theorem Constant.size_tree (c : Constant) : c.tree.size = 1 := by
  cases c <;> rw [Constant.tree, Term.size.eq_def]

theorem Operator.size_node {l : Level} (op : Operator l) (s t : Term) :
    (op.node s t).size = s.size + t.size + 1 := by
  cases op <;> rw [Operator.node, Term.size]

mutual

/-- **A tree has no more nodes than its derivation has tokens.** -/
theorem Expression.size_le : (e : Expression) → e.tree.size ≤ e.kinds.length
  | .plain c => by
    rw [Expression.tree, Expression.kinds]
    exact c.size_le
  | .choice c y n => by
    have hc := c.size_le
    have hy := y.size_le
    have hn := n.size_le
    simp only [Expression.tree, Expression.kinds, Term.size, List.length_append, List.length_cons]
    omega

theorem Chain.size_le : {l : Level} → (c : Chain l) → c.tree.size ≤ c.kinds.length
  | _, .single o => by
    rw [Chain.tree, Chain.kinds]
    exact o.size_le
  | _, .link c op o => by
    have hc := c.size_le
    have ho := o.size_le
    simp only [Chain.tree, Chain.kinds, op.size_node, List.length_append, List.length_cons]
    omega

theorem Operand.size_le : {l : Level} → (o : Operand l) → o.tree.size ≤ o.kinds.length
  | _, .chain _ c => by
    rw [Operand.tree, Operand.kinds]
    exact c.size_le
  | _, .power p => by
    rw [Operand.tree, Operand.kinds]
    exact p.size_le

theorem Power.size_le : (p : Power) → p.tree.size ≤ p.kinds.length
  | .plain u => by
    rw [Power.tree, Power.kinds]
    exact u.size_le
  | .pow u p => by
    have hu := u.size_le
    have hp := p.size_le
    simp only [Power.tree, Power.kinds, Term.size, List.length_append, List.length_cons]
    omega

theorem Unary.size_le : (u : Unary) → u.tree.size ≤ u.kinds.length
  | .plain s => by
    rw [Unary.tree, Unary.kinds]
    exact s.size_le
  | .signed op u => by
    have hu := u.size_le
    simp only [Unary.tree, Unary.kinds, Term.size, List.length_cons]
    omega

theorem Suffixed.size_le : (s : Suffixed) → s.tree.size ≤ s.kinds.length
  | .plain p => by
    rw [Suffixed.tree, Suffixed.kinds]
    exact p.size_le
  | .suffix s x => by
    have hs := s.size_le
    have hx := x.size_le s.tree
    rw [Suffixed.tree, Suffixed.kinds, List.length_append]
    omega

theorem Suffix.size_le : (x : Suffix) → (t : Term) → (x.node t).size ≤ t.size + x.kinds.length
  | .member _, t => by
    simp only [Suffix.node, Suffix.kinds, Term.size, List.length_cons, List.length_nil]
    omega
  | .method _ args, t => by
    have hargs := args.size_le
    simp only [Suffix.node, Suffix.kinds, Term.size, List.length_append, List.length_cons]
    omega
  | .index key, t => by
    have hkey := key.size_le
    simp only [Suffix.node, Suffix.kinds, Term.size, List.length_append, List.length_cons]
    omega

theorem Primary.size_le : (p : Primary) → p.tree.size ≤ p.kinds.length
  | .number _ => by simp [Primary.tree, Primary.kinds, Term.size]
  | .str _ => by simp [Primary.tree, Primary.kinds, Term.size]
  | .constant c => by
    rw [Primary.tree, Primary.kinds, c.size_tree]
    exact Nat.le_refl 1
  | .parens e => by
    have he := e.size_le
    simp only [Primary.tree, Primary.kinds, List.length_append, List.length_cons]
    omega
  | .array items => by
    have hitems := items.size_le
    simp only [Primary.tree, Primary.kinds, Term.size, List.length_append, List.length_cons]
    omega
  | .math _ args => by
    have hargs := args.size_le
    simp only [Primary.tree, Primary.kinds, Term.size, List.length_append, List.length_cons]
    omega
  | .call _ args => by
    have hargs := args.size_le
    simp only [Primary.tree, Primary.kinds, Term.size, List.length_append, List.length_cons]
    omega

theorem Sequence.size_le : (es : Sequence) → Term.sizes es.trees ≤ es.kinds.length
  | .empty => by simp [Sequence.trees, Sequence.kinds, Term.sizes]
  | .items es => by
    rw [Sequence.trees, Sequence.kinds]
    exact es.size_le

theorem Items.size_le : (es : Items) → Term.sizes es.trees ≤ es.kinds.length
  | .last e => by
    rw [Items.trees, Items.kinds, Term.sizes, Term.sizes]
    exact e.size_le
  | .more e es => by
    have he := e.size_le
    have hes := es.size_le
    simp only [Items.trees, Items.kinds, Term.sizes, List.length_append, List.length_cons]
    omega

end

end Grammar

/-! ## Readers -/

theorem Tokens.length_kinds (ts : Tokens) : ts.kinds.length = ts.length :=
  List.length_map _

/-- What was read and what is left is no more than there was. -/
theorem Accounts.size_add_length_le {depth nesting : Nat} {ts rest : Tokens} {t tree : Term}
    {kinds : List Kind} (h : Accounts depth ts.kinds t rest kinds tree nesting)
    (hsize : tree.size ≤ kinds.length) : t.size + rest.length ≤ ts.length := by
  have hpassed := congrArg List.length h.passed
  rw [List.length_append, Tokens.length_kinds, Tokens.length_kinds] at hpassed
  rw [← h.tree_eq]
  omega

theorem AccountsAll.sizes_add_length_le {depth nesting : Nat} {ts rest : Tokens} {closing : Kind}
    {args trees : List Term} {kinds : List Kind}
    (h : AccountsAll depth ts.kinds closing args rest kinds trees nesting)
    (hsize : Term.sizes trees ≤ kinds.length) : Term.sizes args + rest.length < ts.length := by
  have hpassed := congrArg List.length h.passed
  rw [List.length_append, List.length_cons, Tokens.length_kinds, Tokens.length_kinds] at hpassed
  rw [← h.trees_eq]
  omega

section Sizes

variable {b depth : Nat} {ts rest : Tokens} {t : Term}

theorem size_of_expression (h : expression b depth ts = .ok (t, rest)) :
    t.size + rest.length ≤ ts.length := by
  obtain ⟨d, hd⟩ := (sound b).expression h
  exact hd.size_add_length_le d.size_le

theorem size_of_chain {l : Level} (h : chain b depth l ts = .ok (t, rest)) :
    t.size + rest.length ≤ ts.length := by
  obtain ⟨d, hd⟩ := (sound b).chain h
  exact hd.size_add_length_le d.size_le

theorem size_of_operand {l : Level} (h : operand b depth l ts = .ok (t, rest)) :
    t.size + rest.length ≤ ts.length := by
  obtain ⟨d, hd⟩ := (sound b).operand h
  exact hd.size_add_length_le d.size_le

theorem size_of_power (h : power b depth ts = .ok (t, rest)) :
    t.size + rest.length ≤ ts.length := by
  obtain ⟨d, hd⟩ := (sound b).power h
  exact hd.size_add_length_le d.size_le

theorem size_of_unary (h : unary b depth ts = .ok (t, rest)) :
    t.size + rest.length ≤ ts.length := by
  obtain ⟨d, hd⟩ := (sound b).unary h
  exact hd.size_add_length_le d.size_le

theorem size_of_primary (h : primary b depth ts = .ok (t, rest)) :
    t.size + rest.length ≤ ts.length := by
  obtain ⟨d, hd⟩ := (sound b).primary h
  exact hd.size_add_length_le d.size_le

theorem sizes_of_arguments {args : List Term} (h : arguments b depth ts = .ok (args, rest)) :
    Term.sizes args + rest.length < ts.length := by
  obtain ⟨d, hd⟩ := (sound b).arguments h
  exact hd.sizes_add_length_le d.size_le

theorem sizes_of_list {closing : Kind} {what : Wanted} {items : List Term} (hc : closing ≠ .eof)
    (h : list b depth closing what ts = .ok (items, rest)) :
    Term.sizes items + rest.length < ts.length := by
  obtain ⟨d, hd⟩ := (sound b).list hc h
  exact hd.sizes_add_length_le d.size_le

end Sizes

/-! ## Single tokens -/

/-- Passing over a token that is not the end leaves one less. -/
theorem Tokens.length_of_peek {ts : Tokens} {k : Kind} (h : ts.peek.kind = k) (hk : k ≠ .eof) :
    ts.length = ts.advance.length + 1 := by
  have hkinds := congrArg List.length (Tokens.kinds_of_peek h hk)
  rw [List.length_cons, Tokens.length_kinds, Tokens.length_kinds] at hkinds
  exact hkinds

theorem Tokens.length_of_expect {ts rest : Tokens} {k : Kind} {what : Wanted}
    (h : ts.expect k what = .ok rest) (hk : k ≠ .eof) : ts.length = rest.length + 1 := by
  have hkinds := congrArg List.length (Tokens.kinds_of_expect h hk)
  rw [List.length_cons, Tokens.length_kinds, Tokens.length_kinds] at hkinds
  exact hkinds

theorem Tokens.length_of_name {ts rest : Tokens} {what : Wanted} {n : String}
    (h : ts.name what = .ok (n, rest)) : ts.length = rest.length + 1 := by
  have hkinds := congrArg List.length (Tokens.kinds_of_name h)
  rw [List.length_cons, Tokens.length_kinds, Tokens.length_kinds] at hkinds
  exact hkinds

end Reshape.Formula
