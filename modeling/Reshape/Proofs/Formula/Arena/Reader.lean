/-
# Reshape.Proofs.Formula.Arena.Reader -- reading into an arena

The reader that adds nodes to an arena and the reader that makes a tree do the same: they fail with
the same error, or they leave the same tokens and the arena is the layout of the tree
(`ofTokens_eq_map_layout`). `Simulates` says this for all functions of the readers at one bound, and
is carried from a bound to the next.

The heights that the arena records are those of the trees only as long as 32 bits hold all places.
A tree has at most as many nodes as there were tokens for it, so it is enough that there is room for
the tokens that are left (`Fits`).
-/

import Reshape.Formula.Arena.Reading
import Reshape.Proofs.Formula.Arena.Layout
import Reshape.Proofs.Formula.Size

namespace Reshape.Formula

/-! ## Words -/

theorem Joint.size_term (j : Joint) (s t : Term) :
    (j.term s t).size = s.size + t.size + 1 := by
  cases j <;> rw [Joint.term, Term.size]

theorem children_of_constant? {name : String} {t : Term} (h : constant? name = some t) :
    t.children = [] := by
  obtain ⟨c, -, rfl⟩ := exists_constant h
  cases c <;> rfl

/-! ## Room -/

namespace Arena

open Term (layAll)

/-- There is room for so many more nodes. -/
structure Fits (a : Arena) (n : Nat) : Prop where
  aligned : a.Aligned
  room : a.nodes.length + n ≤ 2 ^ 32

theorem Fits.mono {a : Arena} {m n : Nat} (h : a.Fits n) (hm : m ≤ n) : a.Fits m :=
  ⟨h.aligned, Nat.le_trans (Nat.add_le_add_left hm _) h.room⟩

theorem Fits.lay {a : Arena} {t : Term} {n : Nat} (h : a.Fits (t.size + n)) :
    (t.lay a).2.Fits n := by
  refine ⟨(extends_lay t a).aligned h.aligned, ?_⟩
  rw [length_lay, Nat.add_assoc]
  exact h.room

/-- **Adding a node** over the layouts of its parts does what building the tree does. -/
theorem add_node {t : Term} {a : Arena} (h : a.Fits t.size) (offset : Nat) :
    (layAll t.children a).2.add (t.node (layAll t.children a).1) offset =
      (build t offset).map fun t => t.lay a := by
  rw [add, build, heightOver_node h.aligned h.room, ← t.lay_eq]
  split <;> rfl

/-- What was read, laid out. -/
def laid (a : Arena) (r : Term × Tokens) : Progress NodeId :=
  ((r.1.lay a).1, r.2, (r.1.lay a).2)

/-- The same for lists. -/
def laidAll (a : Arena) (r : List Term × Tokens) : Progress (List NodeId) :=
  ((layAll r.1 a).1, r.2, (layAll r.1 a).2)

end Arena

/-! ## Steps -/

section Bind

variable {ε α α' β γ : Type}

/-- A step that both readers make. -/
theorem bind_eq_map_bind {x : Except ε α} {f : α → Except ε β} {g : α → Except ε γ} {k : γ → β}
    (h : ∀ v, x = .ok v → f v = (g v).map k) : x >>= f = (x >>= g).map k := by
  cases x with
  | error e => rfl
  | ok v => exact h v rfl

/-- A step after which the readers go on with corresponding results. -/
theorem map_bind_eq_map_bind {x : Except ε α} {l : α → α'} {f : α' → Except ε β}
    {g : α → Except ε γ} {k : γ → β} (h : ∀ v, x = .ok v → f (l v) = (g v).map k) :
    x.map l >>= f = (x >>= g).map k := by
  cases x with
  | error e => rfl
  | ok v => exact h v rfl

end Bind

open Grammar
open Arena (laid laidAll)

/-- **Every function of the reader simulates its counterpart at a bound.** `links` and `suffixes` go
on from a tree that was read before, so they start from an arena in which it is laid out already,
and `named` starts after the name, which counts as one more token. -/
structure Simulates (b : Nat) : Prop where
  expression {depth : Nat} {ts : Tokens} {a : Arena} : a.Fits ts.length →
    Arena.expression b depth ts a = (expression b depth ts).map (laid a)
  chain {depth : Nat} {l : Level} {ts : Tokens} {a : Arena} : a.Fits ts.length →
    Arena.chain b depth l ts a = (chain b depth l ts).map (laid a)
  operand {depth : Nat} {l : Level} {ts : Tokens} {a : Arena} : a.Fits ts.length →
    Arena.operand b depth l ts a = (operand b depth l ts).map (laid a)
  links {depth : Nat} {l : Level} {left : Term} {ts : Tokens} {a : Arena} :
    a.Fits (left.size + ts.length) →
    Arena.links b depth l (left.lay a).1 ts (left.lay a).2 =
      (links b depth l left ts).map (laid a)
  power {depth : Nat} {ts : Tokens} {a : Arena} : a.Fits ts.length →
    Arena.power b depth ts a = (power b depth ts).map (laid a)
  unary {depth : Nat} {ts : Tokens} {a : Arena} : a.Fits ts.length →
    Arena.unary b depth ts a = (unary b depth ts).map (laid a)
  suffixes {depth : Nat} {object : Term} {ts : Tokens} {a : Arena} :
    a.Fits (object.size + ts.length) →
    Arena.suffixes b depth (object.lay a).1 ts (object.lay a).2 =
      (suffixes b depth object ts).map (laid a)
  arguments {depth : Nat} {ts : Tokens} {a : Arena} : a.Fits ts.length →
    Arena.arguments b depth ts a = (arguments b depth ts).map (laidAll a)
  list {depth : Nat} {closing : Kind} {what : Wanted} {ts : Tokens} {a : Arena} :
    a.Fits ts.length →
    Arena.list b depth closing what ts a = (list b depth closing what ts).map (laidAll a)
  primary {depth : Nat} {ts : Tokens} {a : Arena} : a.Fits ts.length →
    Arena.primary b depth ts a = (primary b depth ts).map (laid a)
  named {depth offset : Nat} {name : String} {ts : Tokens} {a : Arena} :
    a.Fits (ts.length + 1) →
    Arena.named b depth name offset ts a = (named b depth name offset ts).map (laid a)

section Step

variable {b depth : Nat} {ts : Tokens} {a : Arena}

/-- **A node is added** where the tree is built, and the readers go on with it. -/
theorem add_bind {β γ : Type} {t : Term} (h : a.Fits t.size) (offset : Nat)
    {f : NodeId × Arena → Except ParseError β} {g : Term → Except ParseError γ} {k : γ → β}
    (hfg : f (t.lay a) = (g t).map k) :
    (Term.layAll t.children a).2.add (t.node (Term.layAll t.children a).1) offset >>= f =
      (build t offset >>= g).map k := by
  rw [Arena.add_node h]
  refine map_bind_eq_map_bind fun t' ht => ?_
  obtain ⟨rfl, -⟩ := build_eq_ok.mp ht
  exact hfg

/-! ## Expressions and chains -/

theorem expression_simulates (ih : Simulates b) (ha : a.Fits ts.length) :
    Arena.expression (b + 1) depth ts a = (expression (b + 1) depth ts).map (laid a) := by
  rw [Arena.expression, expression]
  refine bind_eq_map_bind fun inner _ => ?_
  rw [ih.chain ha]
  refine map_bind_eq_map_bind fun r hc => ?_
  obtain ⟨test, rest⟩ := r
  have htest := size_of_chain hc
  dsimp only [laid]
  split
  case isTrue hq =>
    have hrest := Tokens.length_of_peek hq (by simp)
    have hroom : (test.lay a).2.Fits rest.advance.length := (ha.mono (by omega)).lay
    rw [ih.expression hroom]
    refine map_bind_eq_map_bind fun r hy => ?_
    obtain ⟨yes, afterYes⟩ := r
    have hyes := size_of_expression hy
    refine bind_eq_map_bind fun afterColon hcolon => ?_
    have hcolon := Tokens.length_of_expect hcolon (by simp)
    dsimp only [laid] at hcolon ⊢
    rw [ih.expression (hroom.mono (by omega)).lay]
    refine map_bind_eq_map_bind fun r hn => ?_
    obtain ⟨no, afterNo⟩ := r
    have hno := size_of_expression hn
    have hfits : a.Fits (Term.conditional test yes no).size := by
      refine ha.mono ?_
      rw [Term.size]
      omega
    exact add_bind hfits ts.peek.offset rfl
  case isFalse => rfl

theorem chain_simulates {l : Level} (ih : Simulates b) (ha : a.Fits ts.length) :
    Arena.chain (b + 1) depth l ts a = (chain (b + 1) depth l ts).map (laid a) := by
  rw [Arena.chain, chain, ih.operand ha]
  refine map_bind_eq_map_bind fun r ho => ?_
  obtain ⟨first, rest⟩ := r
  exact ih.links (ha.mono (size_of_operand ho))

theorem operand_simulates {l : Level} (ih : Simulates b) (ha : a.Fits ts.length) :
    Arena.operand (b + 1) depth l ts a = (operand (b + 1) depth l ts).map (laid a) := by
  rw [Arena.operand, operand]
  cases l.tighter? with
  | some tighter => exact ih.chain ha
  | none => exact ih.power ha

theorem links_simulates {l : Level} {left : Term} (ih : Simulates b)
    (ha : a.Fits (left.size + ts.length)) :
    Arena.links (b + 1) depth l (left.lay a).1 ts (left.lay a).2 =
      (links (b + 1) depth l left ts).map (laid a) := by
  rw [Arena.links, links, Level.node?]
  cases hj : l.joint? ts.peek.kind with
  | none => rfl
  | some j =>
    obtain ⟨op, hop, -⟩ := exists_operator_of_joint? hj
    have hts := Tokens.length_of_peek hop.symm (by cases op <;> simp [Operator.kind])
    dsimp only [Option.map_some]
    rw [ih.operand (ha.mono (by omega)).lay]
    refine map_bind_eq_map_bind fun r ho => ?_
    obtain ⟨right, rest⟩ := r
    have hright := size_of_operand ho
    have hfits : a.Fits ((j.term left right).size + rest.length) := by
      refine ha.mono ?_
      rw [j.size_term]
      omega
    have hnode := hfits.mono (Nat.le_add_right _ _)
    -- the node is known to be that of the tree only when it is known which operator it is
    cases j with
    | binary op => exact add_bind hnode ts.peek.offset (ih.links hfits)
    | logical op => exact add_bind hnode ts.peek.offset (ih.links hfits)

/-! ## Powers, signs and suffixes -/

theorem power_simulates (ih : Simulates b) (ha : a.Fits ts.length) :
    Arena.power (b + 1) depth ts a = (power (b + 1) depth ts).map (laid a) := by
  rw [Arena.power, power, ih.unary ha]
  refine map_bind_eq_map_bind fun r hu => ?_
  obtain ⟨base, rest⟩ := r
  have hbase := size_of_unary hu
  dsimp only [laid]
  split
  case isTrue hs =>
    have hrest := Tokens.length_of_peek hs (by simp)
    refine bind_eq_map_bind fun inner _ => ?_
    rw [ih.power (ha.mono (by omega)).lay]
    refine map_bind_eq_map_bind fun r hp => ?_
    obtain ⟨exponent, after⟩ := r
    have hexponent := size_of_power hp
    have hfits : a.Fits (Term.binary .pow base exponent).size := by
      refine ha.mono ?_
      rw [Term.size]
      omega
    exact add_bind hfits rest.peek.offset rfl
  case isFalse => rfl

theorem unary_simulates (ih : Simulates b) (ha : a.Fits ts.length) :
    Arena.unary (b + 1) depth ts a = (unary (b + 1) depth ts).map (laid a) := by
  rw [Arena.unary, unary]
  cases hop : unaryOp? ts.peek.kind with
  | none =>
    dsimp only
    rw [ih.primary ha]
    refine map_bind_eq_map_bind fun r hp => ?_
    obtain ⟨t, rest⟩ := r
    exact ih.suffixes (ha.mono (size_of_primary hp))
  | some op =>
    have hts := Tokens.length_of_peek (unaryOp?_eq_some.mp hop) (by cases op <;> simp [signKind])
    dsimp only
    refine bind_eq_map_bind fun inner _ => ?_
    rw [ih.unary (ha.mono (by omega))]
    refine map_bind_eq_map_bind fun r hu => ?_
    obtain ⟨operand, rest⟩ := r
    have hoperand := size_of_unary hu
    have hfits : a.Fits (Term.unary op operand).size := by
      refine ha.mono ?_
      rw [Term.size]
      omega
    exact add_bind hfits ts.peek.offset rfl

theorem suffixes_simulates {object : Term} (ih : Simulates b)
    (ha : a.Fits (object.size + ts.length)) :
    Arena.suffixes (b + 1) depth (object.lay a).1 ts (object.lay a).2 =
      (suffixes (b + 1) depth object ts).map (laid a) := by
  rw [Arena.suffixes, suffixes]
  cases hkind : ts.peek.kind with
  | dot =>
    have hts := Tokens.length_of_peek hkind (by simp)
    refine bind_eq_map_bind fun r hname => ?_
    obtain ⟨name, rest⟩ := r
    have hname := Tokens.length_of_name hname
    dsimp only
    split
    case isTrue hparen =>
      have hrest := Tokens.length_of_peek hparen (by simp)
      cases Method.ofName? name with
      | none => rfl
      | some m =>
        dsimp only
        rw [ih.arguments (ha.mono (by omega)).lay]
        refine map_bind_eq_map_bind fun r hargs => ?_
        obtain ⟨args, after⟩ := r
        have hargs := sizes_of_arguments hargs
        have hfits : a.Fits ((Term.method object m args).size + after.length) := by
          refine ha.mono ?_
          rw [Term.size]
          omega
        exact add_bind (hfits.mono (Nat.le_add_right _ _)) ts.peek.offset (ih.suffixes hfits)
    case isFalse =>
      have hfits : a.Fits ((Term.member object name).size + rest.length) := by
        refine ha.mono ?_
        rw [Term.size]
        omega
      exact add_bind (hfits.mono (Nat.le_add_right _ _)) ts.peek.offset (ih.suffixes hfits)
  | lbracket =>
    have hts := Tokens.length_of_peek hkind (by simp)
    dsimp only
    rw [ih.expression (ha.mono (by omega)).lay]
    refine map_bind_eq_map_bind fun r hkey => ?_
    obtain ⟨key, after⟩ := r
    have hkey := size_of_expression hkey
    refine bind_eq_map_bind fun rest hclose => ?_
    have hclose := Tokens.length_of_expect hclose (by simp)
    dsimp only [laid] at hclose
    have hfits : a.Fits ((Term.index object key).size + rest.length) := by
      refine ha.mono ?_
      rw [Term.size]
      omega
    exact add_bind (hfits.mono (Nat.le_add_right _ _)) ts.peek.offset (ih.suffixes hfits)
  | _ => rfl

/-! ## Lists -/

theorem arguments_simulates (ih : Simulates b) (ha : a.Fits ts.length) :
    Arena.arguments (b + 1) depth ts a = (arguments (b + 1) depth ts).map (laidAll a) := by
  rw [Arena.arguments, arguments]
  split
  case isTrue => rfl
  case isFalse => exact ih.list ha

theorem list_simulates {closing : Kind} {what : Wanted} (ih : Simulates b)
    (ha : a.Fits ts.length) :
    Arena.list (b + 1) depth closing what ts a =
      (list (b + 1) depth closing what ts).map (laidAll a) := by
  rw [Arena.list, list, ih.expression ha]
  refine map_bind_eq_map_bind fun r ht => ?_
  obtain ⟨t, rest⟩ := r
  have ht := size_of_expression ht
  dsimp only [laid]
  split
  case isTrue => rfl
  case isFalse =>
    refine bind_eq_map_bind fun after hcomma => ?_
    have hcomma := Tokens.length_of_expect hcomma (by simp)
    rw [ih.list (ha.mono (by omega)).lay]
    refine map_bind_eq_map_bind fun r _ => ?_
    obtain ⟨more, last⟩ := r
    rfl

/-! ## Primaries -/

/-- A node without parts is added where its tree needs no check. -/
theorem add_leaf {t : Term} (h : a.Fits 1) (ht : t.children = []) (offset : Nat) (rest : Tokens) :
    (do let (id, a) ← a.add (t.node []) offset; return (id, rest, a)) =
      (Except.ok (t, rest) : Except ParseError (Term × Tokens)).map (laid a) := by
  have hsize : t.size = 1 := by rw [t.size_eq, ht]; rfl
  -- the check that the arena makes cannot fail for a height of 1
  have hheight : t.height ≤ maxDepth := by
    rw [t.height_eq, ht]
    exact one_le_maxDepth
  have hadd := Arena.add_node (hsize.symm ▸ h) offset
  rw [ht, build_of_le hheight] at hadd
  change (a.add (t.node []) offset >>= _) = _
  rw [show a.add (t.node []) offset = .ok (t.lay a) from hadd]
  rfl

theorem primary_simulates (ih : Simulates b) (ha : a.Fits ts.length) :
    Arena.primary (b + 1) depth ts a = (primary (b + 1) depth ts).map (laid a) := by
  rw [Arena.primary, primary]
  cases hkind : ts.peek.kind with
  | number x =>
    have hts := Tokens.length_of_peek hkind (by simp)
    exact add_leaf (t := .number x) (ha.mono (by omega)) rfl ts.peek.offset ts.advance
  | str s =>
    have hts := Tokens.length_of_peek hkind (by simp)
    exact add_leaf (t := .str s) (ha.mono (by omega)) rfl ts.peek.offset ts.advance
  | lparen =>
    have hts := Tokens.length_of_peek hkind (by simp)
    dsimp only
    rw [ih.expression (ha.mono (by omega))]
    refine map_bind_eq_map_bind fun r _ => ?_
    obtain ⟨t, rest⟩ := r
    refine bind_eq_map_bind fun after _ => ?_
    rfl
  | lbracket =>
    have hts := Tokens.length_of_peek hkind (by simp)
    dsimp only
    split
    case isTrue =>
      exact add_leaf (t := .array []) (ha.mono (by omega)) rfl ts.peek.offset ts.advance.advance
    case isFalse =>
      rw [ih.list (ha.mono (by omega))]
      refine map_bind_eq_map_bind fun r hitems => ?_
      obtain ⟨items, rest⟩ := r
      have hitems := sizes_of_list (by simp) hitems
      have hfits : a.Fits (Term.array items).size := by
        refine ha.mono ?_
        rw [Term.size]
        omega
      exact add_bind hfits ts.peek.offset rfl
  | ident name =>
    have hts := Tokens.length_of_peek hkind (by simp)
    exact ih.named (ha.mono (by omega))
  | _ => rfl

theorem named_simulates {offset : Nat} {name : String} (ih : Simulates b)
    (ha : a.Fits (ts.length + 1)) :
    Arena.named (b + 1) depth name offset ts a =
      (named (b + 1) depth name offset ts).map (laid a) := by
  rw [Arena.named, named, constantNode?]
  cases hconst : constant? name with
  | some t =>
    exact add_leaf (ha.mono (Nat.le_add_left 1 _)) (children_of_constant? hconst) offset ts
  | none =>
    dsimp only [Option.map_none]
    split
    case isTrue =>
      refine bind_eq_map_bind fun afterDot hdot => ?_
      have hdot := Tokens.length_of_expect hdot (by simp)
      refine bind_eq_map_bind fun r hname => ?_
      obtain ⟨function, rest⟩ := r
      have hname := Tokens.length_of_name hname
      dsimp only
      cases MathFunction.ofName? function with
      | none => rfl
      | some f =>
        dsimp only
        split
        case isTrue hparen =>
          have hrest := Tokens.length_of_peek hparen (by simp)
          rw [ih.arguments (ha.mono (by omega))]
          refine map_bind_eq_map_bind fun r hargs => ?_
          obtain ⟨args, after⟩ := r
          have hargs := sizes_of_arguments hargs
          have hfits : a.Fits (Term.math f args).size := by
            refine ha.mono ?_
            rw [Term.size]
            omega
          exact add_bind hfits offset rfl
        case isFalse => rfl
    case isFalse =>
      cases FreeFunction.ofName? name with
      | none => rfl
      | some f =>
        dsimp only
        split
        case isTrue hparen =>
          have hts := Tokens.length_of_peek hparen (by simp)
          rw [ih.arguments (ha.mono (by omega))]
          refine map_bind_eq_map_bind fun r hargs => ?_
          obtain ⟨args, after⟩ := r
          have hargs := sizes_of_arguments hargs
          have hfits : a.Fits (Term.call f args).size := by
            refine ha.mono ?_
            rw [Term.size]
            omega
          exact add_bind hfits offset rfl
        case isFalse => rfl

end Step

/-! ## All bounds -/

theorem simulates_zero : Simulates 0 where
  expression _ := by rw [Arena.expression, expression]; rfl
  chain _ := by rw [Arena.chain, chain]; rfl
  operand _ := by rw [Arena.operand, operand]; rfl
  links _ := by rw [Arena.links, links]; rfl
  power _ := by rw [Arena.power, power]; rfl
  unary _ := by rw [Arena.unary, unary]; rfl
  suffixes _ := by rw [Arena.suffixes, suffixes]; rfl
  arguments _ := by rw [Arena.arguments, arguments]; rfl
  list _ := by rw [Arena.list, list]; rfl
  primary _ := by rw [Arena.primary, primary]; rfl
  named _ := by rw [Arena.named, named]; rfl

theorem simulates (b : Nat) : Simulates b := by
  induction b with
  | zero => exact simulates_zero
  | succ b ih =>
    exact {
      expression := expression_simulates ih
      chain := chain_simulates ih
      operand := operand_simulates ih
      links := links_simulates ih
      power := power_simulates ih
      unary := unary_simulates ih
      suffixes := suffixes_simulates ih
      arguments := arguments_simulates ih
      list := list_simulates ih
      primary := primary_simulates ih
      named := named_simulates ih }

/-- **Reading into an arena gives the layout of the tree** that the tokens are read as. -/
theorem ofTokens_eq_map_layout {ts : Tokens} (h : ts.length ≤ 2 ^ 32) :
    Arena.ofTokens ts = (Term.ofTokens ts).map Term.layout := by
  have hfits : ({} : Arena).Fits ts.length := ⟨rfl, (Nat.zero_add ts.length).symm ▸ h⟩
  rw [Arena.ofTokens, Term.ofTokens, (simulates _).expression hfits]
  refine map_bind_eq_map_bind fun r _ => ?_
  obtain ⟨t, rest⟩ := r
  dsimp only [laid]
  split <;> rfl

end Reshape.Formula
