/-
# Reshape.Proofs.Formula.Step -- what the parts of the reader do

The reader of formulas is made of a few small parts: it looks at a token, passes over it, checks a
limit, or looks a word up in a table. Each part has its law here, in terms of the kinds of the
tokens that are left (`Tokens.kinds`) and of the words of the grammar. The proofs about whole
constructs use these laws and do not open the parts again.
-/

import Reshape.Proofs.Except
import Reshape.Proofs.Formula.Grammar

namespace Reshape.Formula

/-! ## Tokens -/

/-- The kinds of the tokens that are left. -/
def Tokens.kinds (ts : Tokens) : List Kind :=
  ts.map Token.kind

theorem Tokens.peek_kind (ts : Tokens) : ts.peek.kind = ts.kinds.headD .eof := by
  cases ts with
  | nil => rfl
  | cons t ts => rfl

theorem Tokens.peek_of_kinds {ts : Tokens} {k : Kind} {ks : List Kind} (h : ts.kinds = k :: ks) :
    ts.peek.kind = k := by
  rw [Tokens.peek_kind, h]
  rfl

theorem Tokens.kinds_advance {ts : Tokens} {k : Kind} {ks : List Kind} (h : ts.kinds = k :: ks)
    (hk : k ≠ .eof) : ts.advance.kinds = ks := by
  cases ts with
  | nil => cases h
  | cons t ts =>
    obtain ⟨rfl, rfl⟩ := List.cons.inj h
    rw [Tokens.advance, if_neg hk]
    rfl

/-- A token that is not the end is there, and passing over it leaves the others. -/
theorem Tokens.kinds_of_peek {ts : Tokens} {k : Kind} (h : ts.peek.kind = k) (hk : k ≠ .eof) :
    ts.kinds = k :: ts.advance.kinds := by
  cases ts with
  | nil => exact absurd h.symm hk
  | cons t ts =>
    have ht : t.kind = k := h
    rw [Tokens.advance, if_neg (ht ▸ hk)]
    exact congrArg (· :: ts.map Token.kind) ht

/-! ## Steps -/

theorem Tokens.flaw_ne_ok {α : Type} {ts : Tokens} {f : Flaw} {a : α} : ts.flaw f ≠ .ok a := by
  intro h
  cases h

/-- What was expected is there, and passed over. -/
theorem Tokens.kinds_of_expect {ts rest : Tokens} {k : Kind} {what : Wanted}
    (h : ts.expect k what = .ok rest) (hk : k ≠ .eof) : ts.kinds = k :: rest.kinds := by
  unfold Tokens.expect at h
  split at h
  case isTrue hp =>
    cases h
    exact Tokens.kinds_of_peek hp hk
  case isFalse => exact absurd h Tokens.flaw_ne_ok

theorem Tokens.expect_of_kinds {ts : Tokens} {k : Kind} {ks : List Kind} (h : ts.kinds = k :: ks)
    (hk : k ≠ .eof) (what : Wanted) :
    ∃ rest : Tokens, rest.kinds = ks ∧ ts.expect k what = .ok rest := by
  refine ⟨ts.advance, Tokens.kinds_advance h hk, ?_⟩
  rw [Tokens.expect, if_pos (Tokens.peek_of_kinds h)]

theorem Tokens.kinds_of_name {ts rest : Tokens} {what : Wanted} {n : String}
    (h : ts.name what = .ok (n, rest)) : ts.kinds = .ident n :: rest.kinds := by
  unfold Tokens.name at h
  split at h
  case h_1 m hp =>
    cases h
    exact Tokens.kinds_of_peek hp (by simp)
  case h_2 => exact absurd h Tokens.flaw_ne_ok

theorem Tokens.name_of_kinds {ts : Tokens} {n : String} {ks : List Kind}
    (h : ts.kinds = .ident n :: ks) (what : Wanted) :
    ∃ rest : Tokens, rest.kinds = ks ∧ ts.name what = .ok (n, rest) := by
  refine ⟨ts.advance, Tokens.kinds_advance h (by simp), ?_⟩
  unfold Tokens.name
  rw [Tokens.peek_of_kinds h]

theorem build_eq_ok {node t : Term} {offset : Nat} :
    build node offset = .ok t ↔ node = t ∧ t.height ≤ maxDepth := by
  unfold build
  split
  case isTrue h =>
    constructor
    · intro h'
      cases h'
    · rintro ⟨rfl, ht⟩
      omega
  case isFalse h =>
    constructor
    · intro h'
      cases h'
      exact ⟨rfl, Nat.le_of_not_lt h⟩
    · rintro ⟨rfl, -⟩
      rfl

theorem build_bind_eq_ok {α : Type} {node : Term} {offset : Nat} {f : Term → Except ParseError α}
    {a : α} : build node offset >>= f = .ok a ↔ node.height ≤ maxDepth ∧ f node = .ok a := by
  rw [bind_eq_ok]
  constructor
  · rintro ⟨t, hb, hf⟩
    obtain ⟨rfl, ht⟩ := build_eq_ok.mp hb
    exact ⟨ht, hf⟩
  · rintro ⟨ht, hf⟩
    exact ⟨node, build_eq_ok.mpr ⟨rfl, ht⟩, hf⟩

theorem deepen_eq_ok {depth inner : Nat} {ts : Tokens} :
    deepen depth ts = .ok inner ↔ inner = depth + 1 ∧ inner ≤ maxDepth := by
  unfold deepen
  split
  case isTrue h =>
    constructor
    · intro h'
      exact absurd h' Tokens.flaw_ne_ok
    · rintro ⟨rfl, ht⟩
      omega
  case isFalse h =>
    constructor
    · intro h'
      cases h'
      exact ⟨rfl, by omega⟩
    · rintro ⟨rfl, -⟩
      rfl

theorem deepen_bind_eq_ok {α : Type} {depth : Nat} {ts : Tokens} {f : Nat → Except ParseError α}
    {a : α} : deepen depth ts >>= f = .ok a ↔ depth + 1 ≤ maxDepth ∧ f (depth + 1) = .ok a := by
  rw [bind_eq_ok]
  constructor
  · rintro ⟨inner, hd, hf⟩
    obtain ⟨rfl, hinner⟩ := deepen_eq_ok.mp hd
    exact ⟨hinner, hf⟩
  · rintro ⟨hinner, hf⟩
    exact ⟨depth + 1, deepen_eq_ok.mpr ⟨rfl, hinner⟩, hf⟩

theorem build_of_le {node : Term} (h : node.height ≤ maxDepth) (offset : Nat) :
    build node offset = .ok node :=
  build_eq_ok.mpr ⟨rfl, h⟩

theorem deepen_of_lt {depth : Nat} (h : depth < maxDepth) (ts : Tokens) :
    deepen depth ts = .ok (depth + 1) :=
  deepen_eq_ok.mpr ⟨rfl, h⟩

/-! ## Words -/

open Grammar

theorem tighter?_eq_some {l l' : Level} : l.tighter? = some l' ↔ Tighter l l' := by
  constructor
  · intro h
    cases l <;> cases h <;> constructor
  · rintro (_ | _ | _ | _ | _) <;> rfl

theorem node?_kind {l : Level} (op : Operator l) : l.node? op.kind = some op.node := by
  cases op <;> rfl

/-- Every sign of a level is that of an operator of the grammar. -/
theorem exists_operator_of_joint? {l : Level} {k : Kind} {j : Joint} (h : l.joint? k = some j) :
    ∃ op : Operator l, op.kind = k ∧ op.node = j.term := by
  unfold Level.joint? at h
  split at h <;> cases h
  · exact ⟨.or, rfl, rfl⟩
  · exact ⟨.and, rfl, rfl⟩
  · exact ⟨.eq, rfl, rfl⟩
  · exact ⟨.notEq, rfl, rfl⟩
  · exact ⟨.strictEq, rfl, rfl⟩
  · exact ⟨.strictNotEq, rfl, rfl⟩
  · exact ⟨.lt, rfl, rfl⟩
  · exact ⟨.ltEq, rfl, rfl⟩
  · exact ⟨.gt, rfl, rfl⟩
  · exact ⟨.gtEq, rfl, rfl⟩
  · exact ⟨.add, rfl, rfl⟩
  · exact ⟨.sub, rfl, rfl⟩
  · exact ⟨.mul, rfl, rfl⟩
  · exact ⟨.div, rfl, rfl⟩
  · exact ⟨.rem, rfl, rfl⟩

theorem exists_operator {l : Level} {k : Kind} {node : Term → Term → Term}
    (h : l.node? k = some node) : ∃ op : Operator l, op.kind = k ∧ op.node = node := by
  obtain ⟨j, hj, rfl⟩ := Option.map_eq_some_iff.mp h
  exact exists_operator_of_joint? hj

theorem unaryOp?_eq_some {k : Kind} {op : UnaryOp} : unaryOp? k = some op ↔ k = signKind op := by
  constructor
  · intro h
    unfold unaryOp? at h
    split at h <;> cases h <;> rfl
  · rintro rfl
    cases op <;> rfl

theorem constant?_name (c : Constant) : constant? c.name = some c.tree := by
  cases c with
  | truth b => cases b <;> rfl
  | _ => rfl

theorem exists_constant {name : String} {t : Term} (h : constant? name = some t) :
    ∃ c : Constant, c.name = name ∧ c.tree = t := by
  unfold constant? at h
  split at h <;> cases h
  · exact ⟨.input, rfl, rfl⟩
  · exact ⟨.truth true, rfl, rfl⟩
  · exact ⟨.truth false, rfl, rfl⟩
  · exact ⟨.null, rfl, rfl⟩
  · exact ⟨.undefined, rfl, rfl⟩
  · exact ⟨.nan, rfl, rfl⟩
  · exact ⟨.infinity, rfl, rfl⟩

theorem Method.ofName?_eq_some {name : String} {m : Method} :
    Method.ofName? name = some m ↔ name = m.name := by
  constructor
  · intro h
    obtain ⟨before, after, ht, -⟩ := List.lookup_eq_some_iff.mp h
    have hmem : (name, m) ∈ Method.table := ht ▸ by simp
    simp only [Method.table, List.mem_cons, List.not_mem_nil, or_false, Prod.mk.injEq] at hmem
    rcases hmem with h | h | h | h | h | h | h | h | h | h | h | h | h | h <;>
      obtain ⟨rfl, rfl⟩ := h <;> rfl
  · rintro rfl
    cases m <;> rfl

theorem MathFunction.ofName?_eq_some {name : String} {f : MathFunction} :
    MathFunction.ofName? name = some f ↔ name = mathName f := by
  constructor
  · intro h
    obtain ⟨before, after, ht, -⟩ := List.lookup_eq_some_iff.mp h
    have hmem : (name, f) ∈ before ++ (name, f) :: after := by simp
    rw [← ht] at hmem
    simp only [List.mem_cons, List.not_mem_nil, or_false, Prod.mk.injEq] at hmem
    rcases hmem with h | h | h | h | h | h | h | h <;> obtain ⟨rfl, rfl⟩ := h <;> rfl
  · rintro rfl
    cases f <;> rfl

theorem FreeFunction.ofName?_eq_some {name : String} {f : FreeFunction} :
    FreeFunction.ofName? name = some f ↔ name = freeName f := by
  constructor
  · intro h
    obtain ⟨before, after, ht, -⟩ := List.lookup_eq_some_iff.mp h
    have hmem : (name, f) ∈ before ++ (name, f) :: after := by simp
    rw [← ht] at hmem
    simp only [List.mem_cons, List.not_mem_nil, or_false, Prod.mk.injEq] at hmem
    rcases hmem with h | h | h | h | h | h <;> obtain ⟨rfl, rfl⟩ := h <;> rfl
  · rintro rfl
    cases f <;> rfl

theorem constant?_freeName (f : FreeFunction) : constant? (freeName f) = none := by
  cases f <;> rfl

theorem freeName_ne_math (f : FreeFunction) : freeName f ≠ "Math" := by
  cases f <;> decide

end Reshape.Formula
