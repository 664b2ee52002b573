/-
# Reshape.Proofs.Formula.Exact -- the reader accepts its grammar and nothing else

`Term.ofTokens` gives a tree exactly when the tokens before the end have a derivation with that tree
in the grammar of `Reshape.Proofs.Formula.Grammar`, within the limits on height and nesting. The
derivation is the only one of these tokens, limits or not.
-/

import Reshape.Proofs.Formula.Sound
import Reshape.Proofs.Formula.Unambiguous
import Reshape.Proofs.Formula.Complete

namespace Reshape.Formula

/-! ## Tokens before the end -/

/-- The kinds of the tokens before the end. -/
def Tokens.beforeEnd (ts : Tokens) : List Kind :=
  ts.kinds.takeWhile (· ≠ .eof)

/-- The kinds of all tokens are those before the end, and then the end. -/
theorem Tokens.exists_kinds_eq (ts : Tokens) :
    ∃ ks : List Kind, ts.kinds = ts.beforeEnd ++ ks ∧ ks.headD .eof = .eof := by
  refine ⟨ts.kinds.dropWhile (· ≠ .eof), List.takeWhile_append_dropWhile.symm, ?_⟩
  induction ts.kinds with
  | nil => rfl
  | cons k ks ih =>
    by_cases hk : k = .eof
    · subst hk
      rfl
    · rw [List.dropWhile_cons_of_pos (by simpa using hk)]
      exact ih

theorem Tokens.beforeEnd_eq {ts : Tokens} {kinds ks : List Kind} (h : ts.kinds = kinds ++ ks)
    (hkinds : Kind.eof ∉ kinds) (hks : ks.headD .eof = .eof) : ts.beforeEnd = kinds := by
  have hpos : ∀ k ∈ kinds, decide (k ≠ Kind.eof) = true := by
    intro k hk
    refine decide_eq_true ?_
    rintro rfl
    exact hkinds hk
  rw [Tokens.beforeEnd, h, List.takeWhile_append_of_pos hpos]
  cases ks with
  | nil => rw [List.takeWhile_nil, List.append_nil]
  | cons k ks =>
    have hk : k = .eof := hks
    subst hk
    rw [List.takeWhile_cons_of_neg (by simp), List.append_nil]

theorem Tokens.length_beforeEnd_le (ts : Tokens) : ts.beforeEnd.length ≤ ts.length := by
  have h := (List.takeWhile_sublist (fun k => decide (k ≠ Kind.eof)) (l := ts.kinds)).length_le
  rw [Tokens.kinds, List.length_map] at h
  exact h

/-! ## Exactness -/

/-- A tree that is read has a derivation within the limits. -/
theorem derives_of_ofTokens {ts : Tokens} {t : Term} (h : Term.ofTokens ts = .ok t) :
    ∃ d : Grammar.Expression, d.kinds = ts.beforeEnd ∧ d.tree = t ∧ t.height ≤ maxDepth ∧
      d.nesting ≤ maxDepth := by
  rw [Term.ofTokens] at h
  obtain ⟨⟨t', rest⟩, hread, h⟩ := bind_eq_ok.mp h
  dsimp only at h
  split at h
  case isTrue hend =>
    cases h
    obtain ⟨d, hd⟩ := (sound _).expression hread
    rw [Tokens.peek_kind] at hend
    exact ⟨d, (Tokens.beforeEnd_eq hd.passed d.eof_not_mem hend).symm, hd.tree_eq, hd.height_le,
      hd.nesting_le⟩
  case isFalse => exact absurd h Tokens.flaw_ne_ok

/-- A derivation within the limits is read. -/
theorem ofTokens_of_derives {ts : Tokens} (d : Grammar.Expression) (hd : d.kinds = ts.beforeEnd)
    (hheight : d.tree.height ≤ maxDepth) (hnesting : d.nesting ≤ maxDepth) :
    Term.ofTokens ts = .ok d.tree := by
  obtain ⟨ks, hts, hks⟩ := ts.exists_kinds_eq
  have hstops : Stops 1 ks := by
    rw [Stops, hks]
    exact Nat.one_pos
  have hbound : 24 * d.kinds.length + 17 ≤ boundFor ts := by
    have hlength := ts.length_beforeEnd_le
    rw [hd, boundFor]
    omega
  rw [← hd] at hts
  obtain ⟨rest, hrest, hread⟩ :=
    d.reads (boundFor ts) 0 ks hstops ⟨hbound, by omega, hheight⟩ ts hts
  have hend : rest.peek.kind = .eof := by
    rw [Tokens.peek_kind, hrest]
    exact hks
  rw [Term.ofTokens, hread, ok_bind]
  dsimp only
  rw [if_pos hend]
  rfl

/-- **The reader accepts exactly its grammar**, within a height and a nesting of 64; and no list of
tokens has two derivations. -/
theorem ofTokens_eq_ok_iff_derives (ts : Tokens) (t : Term) :
    (Term.ofTokens ts = .ok t ↔
      ∃ d : Grammar.Expression, d.kinds = ts.beforeEnd ∧ d.tree = t ∧ t.height ≤ 64 ∧
        d.nesting ≤ 64) ∧
    ∀ d d' : Grammar.Expression, d.kinds = ts.beforeEnd → d'.kinds = ts.beforeEnd → d = d' := by
  refine ⟨⟨derives_of_ofTokens, ?_⟩, ?_⟩
  · rintro ⟨d, hd, rfl, hheight, hnesting⟩
    exact ofTokens_of_derives d hd hheight hnesting
  · intro d d' hd hd'
    have hstops : Stops 1 [] := Nat.one_pos
    exact (d.unique d' [] [] hstops hstops (by rw [hd, hd'])).1

end Reshape.Formula
