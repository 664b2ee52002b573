/-
# Reshape.Proofs.Formula.Sound -- what is read has a derivation

Whenever a function of the reader gives a result, there is a derivation of the same construct: its
tokens are the ones that were passed over, its tree is the result, its nesting fits under the limit
from the depth of the call, and the result is not too high. `Sound` says this for all functions of
the reader at one bound, and is carried from a bound to the next.

The reader builds a chain from the left while it goes, so the statement about `links` starts from a
derivation of the part that is already read and gives one of the whole; `suffixes` likewise.
-/

import Reshape.Proofs.Formula.Step

namespace Reshape.Formula

open Grammar

/-- A derivation with these tokens, tree and nesting accounts for a result `t` that was read at
`depth` and left `rest` of the kinds `before`. -/
structure Accounts (depth : Nat) (before : List Kind) (t : Term) (rest : Tokens)
    (kinds : List Kind) (tree : Term) (nesting : Nat) : Prop where
  passed : before = kinds ++ rest.kinds
  tree_eq : tree = t
  height_le : t.height ≤ maxDepth
  nesting_le : nesting ≤ maxDepth - depth

/-- The same for a list of results, where a closing sign was passed over too. -/
structure AccountsAll (depth : Nat) (before : List Kind) (closing : Kind) (ts : List Term)
    (rest : Tokens) (kinds : List Kind) (trees : List Term) (nesting : Nat) : Prop where
  passed : before = kinds ++ closing :: rest.kinds
  trees_eq : trees = ts
  nesting_le : nesting ≤ maxDepth - depth

/-- **Every function of the reader is sound at a bound.** -/
structure Sound (b : Nat) : Prop where
  expression {depth : Nat} {ts rest : Tokens} {t : Term} :
    expression b depth ts = .ok (t, rest) →
      ∃ d : Expression, Accounts depth ts.kinds t rest d.kinds d.tree d.nesting
  chain {depth : Nat} {l : Level} {ts rest : Tokens} {t : Term} :
    chain b depth l ts = .ok (t, rest) →
      ∃ d : Chain l, Accounts depth ts.kinds t rest d.kinds d.tree d.nesting
  operand {depth : Nat} {l : Level} {ts rest : Tokens} {t : Term} :
    operand b depth l ts = .ok (t, rest) →
      ∃ d : Operand l, Accounts depth ts.kinds t rest d.kinds d.tree d.nesting
  links {depth : Nat} {l : Level} {before : List Kind} {left t : Term} {ts rest : Tokens}
    (c : Chain l) : Accounts depth before left ts c.kinds c.tree c.nesting →
    links b depth l left ts = .ok (t, rest) →
      ∃ d : Chain l, Accounts depth before t rest d.kinds d.tree d.nesting
  power {depth : Nat} {ts rest : Tokens} {t : Term} :
    power b depth ts = .ok (t, rest) →
      ∃ d : Power, Accounts depth ts.kinds t rest d.kinds d.tree d.nesting
  unary {depth : Nat} {ts rest : Tokens} {t : Term} :
    unary b depth ts = .ok (t, rest) →
      ∃ d : Unary, Accounts depth ts.kinds t rest d.kinds d.tree d.nesting
  suffixes {depth : Nat} {before : List Kind} {object t : Term} {ts rest : Tokens}
    (s : Suffixed) : Accounts depth before object ts s.kinds s.tree s.nesting →
    suffixes b depth object ts = .ok (t, rest) →
      ∃ d : Suffixed, Accounts depth before t rest d.kinds d.tree d.nesting
  arguments {depth : Nat} {ts rest : Tokens} {args : List Term} :
    arguments b depth ts = .ok (args, rest) →
      ∃ d : Sequence, AccountsAll depth ts.kinds .rparen args rest d.kinds d.trees d.nesting
  list {depth : Nat} {closing : Kind} {what : Wanted} {ts rest : Tokens} {items : List Term} :
    closing ≠ .eof → list b depth closing what ts = .ok (items, rest) →
      ∃ d : Items, AccountsAll depth ts.kinds closing items rest d.kinds d.trees d.nesting
  primary {depth : Nat} {ts rest : Tokens} {t : Term} :
    primary b depth ts = .ok (t, rest) →
      ∃ d : Primary, Accounts depth ts.kinds t rest d.kinds d.tree d.nesting
  named {depth offset : Nat} {name : String} {ts rest : Tokens} {t : Term} :
    named b depth name offset ts = .ok (t, rest) →
      ∃ d : Primary, Accounts depth (.ident name :: ts.kinds) t rest d.kinds d.tree d.nesting

section Step

variable {b depth : Nat} {ts rest : Tokens} {t : Term}

/-! ## Expressions and chains -/

theorem expression_sound (ih : Sound b) (h : expression (b + 1) depth ts = .ok (t, rest)) :
    ∃ d : Expression, Accounts depth ts.kinds t rest d.kinds d.tree d.nesting := by
  rw [expression] at h
  obtain ⟨hdepth, h⟩ := deepen_bind_eq_ok.mp h
  obtain ⟨⟨test, after⟩, hc, h⟩ := bind_eq_ok.mp h
  obtain ⟨c, hc⟩ := ih.chain hc
  have hcn := hc.nesting_le
  dsimp only at h
  split at h
  case isTrue hq =>
    obtain ⟨⟨yes, afterYes⟩, hy, h⟩ := bind_eq_ok.mp h
    obtain ⟨y, hy⟩ := ih.expression hy
    have hyn := hy.nesting_le
    obtain ⟨afterColon, hcolon, h⟩ := bind_eq_ok.mp h
    obtain ⟨⟨no, afterNo⟩, hn, h⟩ := bind_eq_ok.mp h
    obtain ⟨n, hn⟩ := ih.expression hn
    have hnn := hn.nesting_le
    obtain ⟨hheight, h⟩ := build_bind_eq_ok.mp h
    cases h
    refine ⟨.choice c y n, ?_, ?_, hheight, ?_⟩
    · rw [hc.passed, Tokens.kinds_of_peek hq (by simp), hy.passed,
        Tokens.kinds_of_expect hcolon (by simp), hn.passed]
      simp [Expression.kinds]
    · rw [Expression.tree, hc.tree_eq, hy.tree_eq, hn.tree_eq]
    · rw [Expression.nesting]
      omega
  case isFalse =>
    cases h
    refine ⟨.plain c, hc.passed, hc.tree_eq, hc.height_le, ?_⟩
    rw [Expression.nesting]
    omega


theorem chain_sound {l : Level} (ih : Sound b) (h : chain (b + 1) depth l ts = .ok (t, rest)) :
    ∃ d : Chain l, Accounts depth ts.kinds t rest d.kinds d.tree d.nesting := by
  rw [chain] at h
  obtain ⟨⟨first, after⟩, ho, h⟩ := bind_eq_ok.mp h
  obtain ⟨o, ho⟩ := ih.operand ho
  -- the first operand is the chain that `links` starts from
  have hsingle : Accounts depth ts.kinds first after (Chain.single o).kinds
      (Chain.single o).tree (Chain.single o).nesting := by
    rw [Chain.kinds, Chain.tree, Chain.nesting]
    exact ho
  exact ih.links _ hsingle h

theorem operand_sound {l : Level} (ih : Sound b) (h : operand (b + 1) depth l ts = .ok (t, rest)) :
    ∃ d : Operand l, Accounts depth ts.kinds t rest d.kinds d.tree d.nesting := by
  rw [operand] at h
  split at h
  case h_1 l' hl =>
    obtain ⟨c, hc⟩ := ih.chain h
    refine ⟨.chain (tighter?_eq_some.mp hl) c, ?_⟩
    rw [Operand.kinds, Operand.tree, Operand.nesting]
    exact hc
  case h_2 hl =>
    obtain ⟨p, hp⟩ := ih.power h
    cases l <;> cases hl
    refine ⟨.power p, ?_⟩
    rw [Operand.kinds, Operand.tree, Operand.nesting]
    exact hp

theorem links_sound {l : Level} {before : List Kind} {left : Term} (ih : Sound b) (c : Chain l)
    (hc : Accounts depth before left ts c.kinds c.tree c.nesting)
    (h : links (b + 1) depth l left ts = .ok (t, rest)) :
    ∃ d : Chain l, Accounts depth before t rest d.kinds d.tree d.nesting := by
  rw [links] at h
  split at h
  case h_1 => cases h; exact ⟨c, hc⟩
  case h_2 node hnode =>
    obtain ⟨op, hkind, rfl⟩ := exists_operator hnode
    obtain ⟨⟨right, after⟩, ho, h⟩ := bind_eq_ok.mp h
    obtain ⟨o, ho⟩ := ih.operand ho
    obtain ⟨hheight, h⟩ := build_bind_eq_ok.mp h
    -- the loop goes on from the chain with this link
    refine ih.links (.link c op o) ⟨?_, ?_, hheight, ?_⟩ h
    · rw [hc.passed, Tokens.kinds_of_peek hkind.symm (by cases op <;> simp [Operator.kind]),
        ho.passed, Chain.kinds]
      simp
    · rw [Chain.tree, hc.tree_eq, ho.tree_eq]
    · rw [Chain.nesting]
      exact Nat.max_le.mpr ⟨hc.nesting_le, ho.nesting_le⟩

/-! ## Powers, signs and suffixes -/

theorem power_sound (ih : Sound b) (h : power (b + 1) depth ts = .ok (t, rest)) :
    ∃ d : Power, Accounts depth ts.kinds t rest d.kinds d.tree d.nesting := by
  rw [power] at h
  obtain ⟨⟨base, after⟩, hu, h⟩ := bind_eq_ok.mp h
  obtain ⟨u, hu⟩ := ih.unary hu
  have hun := hu.nesting_le
  dsimp only at h
  split at h
  case isTrue hs =>
    obtain ⟨hdepth, h⟩ := deepen_bind_eq_ok.mp h
    obtain ⟨⟨exponent, last⟩, hp, h⟩ := bind_eq_ok.mp h
    obtain ⟨p, hp⟩ := ih.power hp
    have hpn := hp.nesting_le
    obtain ⟨hheight, h⟩ := build_bind_eq_ok.mp h
    cases h
    refine ⟨.pow u p, ?_, ?_, hheight, ?_⟩
    · rw [hu.passed, Tokens.kinds_of_peek hs (by simp), hp.passed, Power.kinds]
      simp
    · rw [Power.tree, hu.tree_eq, hp.tree_eq]
    · rw [Power.nesting]
      omega
  case isFalse =>
    cases h
    refine ⟨.plain u, ?_⟩
    rw [Power.kinds, Power.tree, Power.nesting]
    exact hu

theorem unary_sound (ih : Sound b) (h : unary (b + 1) depth ts = .ok (t, rest)) :
    ∃ d : Unary, Accounts depth ts.kinds t rest d.kinds d.tree d.nesting := by
  rw [unary] at h
  split at h
  case h_1 =>
    obtain ⟨⟨first, after⟩, hp, h⟩ := bind_eq_ok.mp h
    obtain ⟨p, hp⟩ := ih.primary hp
    have hplain : Accounts depth ts.kinds first after (Suffixed.plain p).kinds
        (Suffixed.plain p).tree (Suffixed.plain p).nesting := by
      rw [Suffixed.kinds, Suffixed.tree, Suffixed.nesting]
      exact hp
    obtain ⟨s, hs⟩ := ih.suffixes _ hplain h
    refine ⟨.plain s, ?_⟩
    rw [Unary.kinds, Unary.tree, Unary.nesting]
    exact hs
  case h_2 op hop =>
    obtain ⟨hdepth, h⟩ := deepen_bind_eq_ok.mp h
    obtain ⟨⟨operand, after⟩, hu, h⟩ := bind_eq_ok.mp h
    obtain ⟨u, hu⟩ := ih.unary hu
    have hun := hu.nesting_le
    obtain ⟨hheight, h⟩ := build_bind_eq_ok.mp h
    cases h
    refine ⟨.signed op u, ?_, ?_, hheight, ?_⟩
    · rw [Tokens.kinds_of_peek (unaryOp?_eq_some.mp hop) (by cases op <;> simp [signKind]),
        hu.passed, Unary.kinds]
      rfl
    · rw [Unary.tree, hu.tree_eq]
    · rw [Unary.nesting]
      omega

theorem suffixes_sound {before : List Kind} {object : Term} (ih : Sound b) (s : Suffixed)
    (hs : Accounts depth before object ts s.kinds s.tree s.nesting)
    (h : suffixes (b + 1) depth object ts = .ok (t, rest)) :
    ∃ d : Suffixed, Accounts depth before t rest d.kinds d.tree d.nesting := by
  rw [suffixes] at h
  split at h
  case h_1 hdot =>
    have hpassed := hs.passed
    rw [Tokens.kinds_of_peek hdot (by simp)] at hpassed
    obtain ⟨⟨name, after⟩, hn, h⟩ := bind_eq_ok.mp h
    rw [Tokens.kinds_of_name hn] at hpassed
    dsimp only at h
    -- a parenthesis after the name decides between a method and a member
    split at h
    case isTrue hparen =>
      split at h
      case h_1 => cases h
      case h_2 m hm =>
        obtain ⟨⟨args, last⟩, ha, h⟩ := bind_eq_ok.mp h
        obtain ⟨as, ha⟩ := ih.arguments ha
        obtain ⟨hheight, h⟩ := build_bind_eq_ok.mp h
        refine ih.suffixes (.suffix s (.method m as)) ⟨?_, ?_, hheight, ?_⟩ h
        · rw [hpassed, Tokens.kinds_of_peek hparen (by simp), ha.passed, Suffixed.kinds,
            Suffix.kinds, Method.ofName?_eq_some.mp hm]
          simp
        · rw [Suffixed.tree, Suffix.node, hs.tree_eq, ha.trees_eq]
        · rw [Suffixed.nesting, Suffix.nesting]
          exact Nat.max_le.mpr ⟨hs.nesting_le, ha.nesting_le⟩
    case isFalse =>
      obtain ⟨hheight, h⟩ := build_bind_eq_ok.mp h
      refine ih.suffixes (.suffix s (.member name)) ⟨?_, ?_, hheight, ?_⟩ h
      · rw [hpassed, Suffixed.kinds, Suffix.kinds]
        simp
      · rw [Suffixed.tree, Suffix.node, hs.tree_eq]
      · rw [Suffixed.nesting, Suffix.nesting, Nat.max_zero]
        exact hs.nesting_le
  case h_2 hbracket =>
    obtain ⟨⟨key, after⟩, he, h⟩ := bind_eq_ok.mp h
    obtain ⟨e, he⟩ := ih.expression he
    obtain ⟨last, hclose, h⟩ := bind_eq_ok.mp h
    obtain ⟨hheight, h⟩ := build_bind_eq_ok.mp h
    refine ih.suffixes (.suffix s (.index e)) ⟨?_, ?_, hheight, ?_⟩ h
    · rw [hs.passed, Tokens.kinds_of_peek hbracket (by simp), he.passed,
        Tokens.kinds_of_expect hclose (by simp), Suffixed.kinds, Suffix.kinds]
      simp
    · rw [Suffixed.tree, Suffix.node, hs.tree_eq, he.tree_eq]
    · rw [Suffixed.nesting, Suffix.nesting]
      exact Nat.max_le.mpr ⟨hs.nesting_le, he.nesting_le⟩
  case h_3 => cases h
  case h_4 => cases h; exact ⟨s, hs⟩

/-! ## Lists -/

theorem arguments_sound {args : List Term} (ih : Sound b)
    (h : arguments (b + 1) depth ts = .ok (args, rest)) :
    ∃ d : Sequence, AccountsAll depth ts.kinds .rparen args rest d.kinds d.trees d.nesting := by
  rw [arguments] at h
  split at h
  case isTrue hclose =>
    cases h
    refine ⟨.empty, ?_, ?_, ?_⟩
    · rw [Tokens.kinds_of_peek hclose (by simp), Sequence.kinds]
      rfl
    · rw [Sequence.trees]
    · rw [Sequence.nesting]
      exact Nat.zero_le _
  case isFalse =>
    obtain ⟨es, hes⟩ := ih.list (by simp) h
    refine ⟨.items es, ?_⟩
    rw [Sequence.kinds, Sequence.trees, Sequence.nesting]
    exact hes

theorem list_sound {closing : Kind} {what : Wanted} {items : List Term} (ih : Sound b)
    (hc : closing ≠ .eof) (h : list (b + 1) depth closing what ts = .ok (items, rest)) :
    ∃ d : Items, AccountsAll depth ts.kinds closing items rest d.kinds d.trees d.nesting := by
  rw [list] at h
  obtain ⟨⟨first, after⟩, he, h⟩ := bind_eq_ok.mp h
  obtain ⟨e, he⟩ := ih.expression he
  dsimp only at h
  split at h
  case isTrue hclose =>
    cases h
    refine ⟨.last e, ?_, ?_, ?_⟩
    · rw [he.passed, Tokens.kinds_of_peek hclose hc, Items.kinds]
    · rw [Items.trees, he.tree_eq]
    · rw [Items.nesting]
      exact he.nesting_le
  case isFalse =>
    obtain ⟨afterComma, hcomma, h⟩ := bind_eq_ok.mp h
    obtain ⟨⟨more, last⟩, hes, h⟩ := bind_eq_ok.mp h
    obtain ⟨es, hes⟩ := ih.list hc hes
    cases h
    refine ⟨.more e es, ?_, ?_, ?_⟩
    · rw [he.passed, Tokens.kinds_of_expect hcomma (by simp), hes.passed, Items.kinds]
      simp
    · rw [Items.trees, he.tree_eq, hes.trees_eq]
    · rw [Items.nesting]
      exact Nat.max_le.mpr ⟨he.nesting_le, hes.nesting_le⟩

/-! ## Primaries -/

theorem one_le_maxDepth : 1 ≤ maxDepth := by
  decide

theorem primary_sound (ih : Sound b) (h : primary (b + 1) depth ts = .ok (t, rest)) :
    ∃ d : Primary, Accounts depth ts.kinds t rest d.kinds d.tree d.nesting := by
  rw [primary] at h
  split at h
  case h_1 x hx =>
    cases h
    refine ⟨.number x, ?_, by rw [Primary.tree], ?_, by rw [Primary.nesting]; exact Nat.zero_le _⟩
    · rw [Tokens.kinds_of_peek hx (by simp), Primary.kinds]
      rfl
    · rw [Term.height.eq_def]
      exact one_le_maxDepth
  case h_2 text htext =>
    cases h
    refine ⟨.str text, ?_, by rw [Primary.tree], ?_, by rw [Primary.nesting]; exact Nat.zero_le _⟩
    · rw [Tokens.kinds_of_peek htext (by simp), Primary.kinds]
      rfl
    · rw [Term.height.eq_def]
      exact one_le_maxDepth
  case h_3 hparen =>
    obtain ⟨⟨inner, after⟩, he, h⟩ := bind_eq_ok.mp h
    obtain ⟨e, he⟩ := ih.expression he
    obtain ⟨last, hclose, h⟩ := bind_eq_ok.mp h
    cases h
    refine ⟨.parens e, ?_, ?_, he.height_le, ?_⟩
    · rw [Tokens.kinds_of_peek hparen (by simp), he.passed,
        Tokens.kinds_of_expect hclose (by simp), Primary.kinds]
      simp
    · rw [Primary.tree, he.tree_eq]
    · rw [Primary.nesting]
      exact he.nesting_le
  case h_4 hbracket =>
    split at h
    case isTrue hclose =>
      cases h
      refine ⟨.array .empty, ?_, ?_, ?_, ?_⟩
      · rw [Tokens.kinds_of_peek hbracket (by simp), Tokens.kinds_of_peek hclose (by simp),
          Primary.kinds, Sequence.kinds]
        rfl
      · rw [Primary.tree, Sequence.trees]
      · rw [Term.height, Term.heights]
        exact one_le_maxDepth
      · rw [Primary.nesting, Sequence.nesting]
        exact Nat.zero_le _
    case isFalse =>
      obtain ⟨⟨items, after⟩, hes, h⟩ := bind_eq_ok.mp h
      obtain ⟨es, hes⟩ := ih.list (by simp) hes
      obtain ⟨hheight, h⟩ := build_bind_eq_ok.mp h
      cases h
      refine ⟨.array (.items es), ?_, ?_, hheight, ?_⟩
      · rw [Tokens.kinds_of_peek hbracket (by simp), hes.passed, Primary.kinds, Sequence.kinds]
        simp
      · rw [Primary.tree, Sequence.trees, hes.trees_eq]
      · rw [Primary.nesting, Sequence.nesting]
        exact hes.nesting_le
  case h_5 name hname =>
    rw [Tokens.kinds_of_peek hname (by simp)]
    exact ih.named h
  case h_6 => cases h
  case h_7 => cases h

theorem constant_height (c : Constant) : c.tree.height = 1 := by
  cases c <;> rw [Constant.tree, Term.height.eq_def]

theorem named_sound {offset : Nat} {name : String} (ih : Sound b)
    (h : named (b + 1) depth name offset ts = .ok (t, rest)) :
    ∃ d : Primary, Accounts depth (.ident name :: ts.kinds) t rest d.kinds d.tree d.nesting := by
  rw [named] at h
  split at h
  case h_1 t' hconst =>
    cases h
    obtain ⟨c, rfl, rfl⟩ := exists_constant hconst
    refine ⟨.constant c, ?_, by rw [Primary.tree], ?_, by rw [Primary.nesting]; exact Nat.zero_le _⟩
    · rw [Primary.kinds]
      rfl
    · rw [constant_height]
      exact one_le_maxDepth
  case h_2 =>
    split at h
    case isTrue hmath =>
      obtain ⟨afterDot, hdot, h⟩ := bind_eq_ok.mp h
      obtain ⟨⟨function, afterName⟩, hname, h⟩ := bind_eq_ok.mp h
      dsimp only at h
      split at h
      case h_1 => cases h
      case h_2 f hf =>
        split at h
        case isTrue hparen =>
          obtain ⟨⟨args, last⟩, ha, h⟩ := bind_eq_ok.mp h
          obtain ⟨as, ha⟩ := ih.arguments ha
          obtain ⟨hheight, h⟩ := build_bind_eq_ok.mp h
          cases h
          refine ⟨.math f as, ?_, ?_, hheight, ?_⟩
          · rw [hmath, Tokens.kinds_of_expect hdot (by simp), Tokens.kinds_of_name hname,
              Tokens.kinds_of_peek hparen (by simp), ha.passed, Primary.kinds,
              MathFunction.ofName?_eq_some.mp hf]
            simp
          · rw [Primary.tree, ha.trees_eq]
          · rw [Primary.nesting]
            exact ha.nesting_le
        case isFalse => cases h
    case isFalse =>
      split at h
      case h_1 => cases h
      case h_2 f hf =>
        split at h
        case isTrue hparen =>
          obtain ⟨⟨args, last⟩, ha, h⟩ := bind_eq_ok.mp h
          obtain ⟨as, ha⟩ := ih.arguments ha
          obtain ⟨hheight, h⟩ := build_bind_eq_ok.mp h
          cases h
          refine ⟨.call f as, ?_, ?_, hheight, ?_⟩
          · rw [Tokens.kinds_of_peek hparen (by simp), ha.passed, Primary.kinds,
              FreeFunction.ofName?_eq_some.mp hf]
            simp
          · rw [Primary.tree, ha.trees_eq]
          · rw [Primary.nesting]
            exact ha.nesting_le
        case isFalse => cases h

end Step

/-! ## All bounds -/

theorem sound_zero : Sound 0 where
  expression h := by rw [expression] at h; cases h
  chain h := by rw [chain] at h; cases h
  operand h := by rw [operand] at h; cases h
  links _ _ h := by rw [links] at h; cases h
  power h := by rw [power] at h; cases h
  unary h := by rw [unary] at h; cases h
  suffixes _ _ h := by rw [suffixes] at h; cases h
  arguments h := by rw [arguments] at h; cases h
  list _ h := by rw [list] at h; cases h
  primary h := by rw [primary] at h; cases h
  named h := by rw [named] at h; cases h

theorem sound (b : Nat) : Sound b := by
  induction b with
  | zero => exact sound_zero
  | succ b ih =>
    exact {
      expression := expression_sound ih
      chain := chain_sound ih
      operand := operand_sound ih
      links := links_sound ih
      power := power_sound ih
      unary := unary_sound ih
      suffixes := suffixes_sound ih
      arguments := arguments_sound ih
      list := list_sound ih
      primary := primary_sound ih
      named := named_sound ih }

end Reshape.Formula
