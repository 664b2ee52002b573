/-
# Reshape.Proofs.Formula.Arena.Safe -- formulas that are read are safe to evaluate

What is read from a text is the layout of a tree (`ofText_eq_map_layout`). A text has at most 4096
bytes, so it has far fewer tokens than 32 bits can number, and the arena fewer nodes still. So the
arena is well-formed, and evaluation by places agrees with the evaluation of the tree for every
input: no node is visited twice, no place is outside, and the levels of recursion suffice.
-/

import Reshape.Proofs.Formula.Arena.Evaluation
import Reshape.Proofs.Formula.Arena.Reader
import Reshape.Proofs.Formula.Arena.WellFormed
import Reshape.Transform.Apply

namespace Reshape.Formula

/-! ## The number of tokens -/

theorem length_le_of_tokensFrom {bound offset : Nat} {cs : List Char} {ts : List Token}
    (h : tokensFrom bound offset cs = .ok ts) : ts.length ≤ bound + 1 := by
  induction bound generalizing offset cs ts with
  | zero =>
    cases cs with
    | nil =>
      cases h
      exact Nat.le_refl 1
    | cons c cs => cases h
  | succ bound ih =>
    cases cs with
    | nil =>
      cases h
      exact Nat.le_add_left 1 _
    | cons c cs =>
      rw [tokensFrom] at h
      split at h
      -- a blank takes up the bound and gives no token
      case isTrue => exact Nat.le_succ_of_le (ih h)
      case isFalse =>
        obtain ⟨⟨kind, rest⟩, -, h⟩ := bind_eq_ok.mp h
        obtain ⟨more, hmore, h⟩ := bind_eq_ok.mp h
        cases h
        exact Nat.succ_le_succ (ih hmore)

theorem length_le_utf8ByteSize (text : String) : text.toList.length ≤ text.utf8ByteSize := by
  have hlist : ∀ cs : List Char, cs.length ≤ (String.ofList cs).utf8ByteSize := by
    intro cs
    induction cs with
    | nil => exact Nat.zero_le _
    | cons c cs ih =>
      have hc := c.utf8Size_pos
      rw [String.ofList_cons, String.utf8ByteSize_append, String.utf8ByteSize_singleton,
        List.length_cons]
      omega
  have htext := hlist text.toList
  rwa [String.ofList_toList] at htext

/-- A text has no more tokens than bytes, apart from the end. -/
theorem length_le_of_tokens {text : String} {ts : List Token} (h : tokens text = .ok ts) :
    ts.length ≤ text.utf8ByteSize + 1 :=
  Nat.le_trans (length_le_of_tokensFrom h) (Nat.succ_le_succ (length_le_utf8ByteSize text))

theorem length_lt_of_tokens {text : String} {ts : List Token} (h : tokens text = .ok ts)
    (hshort : text.utf8ByteSize ≤ maxLength) : ts.length < 2 ^ 32 := by
  have hlength := length_le_of_tokens h
  have hmax : maxLength + 1 < 2 ^ 32 := by decide
  omega

/-- **Reading a text into an arena gives the layout of its tree**, or the same error. -/
theorem ofText_eq_map_layout (text : String) :
    Arena.ofText text = (Term.ofText text).map Term.layout := by
  rw [Arena.ofText, Term.ofText]
  split
  case isTrue => rfl
  case isFalse hshort =>
    refine bind_eq_map_bind fun ts hts => ?_
    exact ofTokens_eq_map_layout (Nat.le_of_lt (length_lt_of_tokens hts (Nat.le_of_not_lt hshort)))

/-- A tree that was read is small and low. -/
theorem tokens_of_ofText {text : String} {t : Term} (h : Term.ofText text = .ok t) :
    t.height ≤ maxDepth ∧
      ∃ ts, tokens text = .ok ts ∧ t.size ≤ ts.length ∧ ts.length < 2 ^ 32 := by
  rw [Term.ofText] at h
  split at h
  case isTrue => cases h
  case isFalse hshort =>
    obtain ⟨ts, hts, h⟩ := bind_eq_ok.mp h
    obtain ⟨⟨t', rest⟩, hread, h⟩ := bind_eq_ok.mp h
    have hsize := size_of_expression hread
    obtain ⟨d, hd⟩ := (sound _).expression hread
    dsimp only at h
    split at h
    case isTrue =>
      cases h
      exact ⟨hd.height_le, ts, hts, Nat.le_of_add_right_le hsize,
        length_lt_of_tokens hts (Nat.le_of_not_lt hshort)⟩
    case isFalse => exact absurd h Tokens.flaw_ne_ok

/-- **Every formula that is read is well-formed and safe to evaluate.** The arena is a tree of at
most as many nodes as there are tokens, so that 32 bits hold every place. For every input,
evaluation with `maxDepth` levels of recursion visits no node twice and none outside the arena, and
it comes to a value or to an evaluation error, and so does the transformation that evaluates the
text. -/
theorem wellFormed_and_safe_of_ofText {text : String} {a : Arena} (h : Arena.ofText text = .ok a) :
    a.WellFormed ∧
    (∃ ts, tokens text = .ok ts ∧ a.nodes.length ≤ ts.length ∧ ts.length < 2 ^ 32) ∧
    ∀ value : Json,
      (a.eval (.ofJson value)).visited.Nodup ∧
      (∀ id ∈ (a.eval (.ofJson value)).visited, id.toNat < a.nodes.length) ∧
      ((∃ v, (a.eval (.ofJson value)).outcome = .ok v ∧
          Transform.evaluate text value = .ok v.toJson) ∨
        ∃ e, (a.eval (.ofJson value)).outcome = .error (.fault e) ∧
          Transform.evaluate text value = .error (.noValue e)) := by
  rw [ofText_eq_map_layout] at h
  cases ht : Term.ofText text with
  | error e =>
    rw [ht] at h
    cases h
  | ok t =>
    rw [ht] at h
    cases h
    obtain ⟨hheight, ts, hts, hsize, hlength⟩ := tokens_of_ofText ht
    have hroom : t.size ≤ 2 ^ 32 := Nat.le_of_lt (Nat.lt_of_le_of_lt hsize hlength)
    have hnodes : t.layout.nodes.length = t.size :=
      (Arena.length_lay t {}).trans (Nat.zero_add t.size)
    refine ⟨Arena.wellFormed_layout hroom hheight, ⟨ts, hts, hnodes ▸ hsize, hlength⟩, ?_⟩
    intro value
    have hwithin := Arena.within_eval_layout hroom hheight (.ofJson value)
    refine ⟨hwithin.nodup, fun id hid => (hwithin.bounds id hid).2, ?_⟩
    rw [hwithin.outcome, Transform.evaluate, ht]
    dsimp only
    cases t.eval (.ofJson value) with
    | ok v => exact .inl ⟨v, rfl, rfl⟩
    | error e => exact .inr ⟨e, rfl, rfl⟩

/-- The nodes of `value.name.trim() + '!'`. -/
def greetingArena : Arena where
  nodes := [.input, .member 0 "name", .method 1 .trim [], .str "!", .binary .add 2 3]
  heights := [1, 2, 3, 1, 4]
  root := some 4

theorem wellFormed_and_safe_of_ofText_greeting :
    Arena.ofText "value.name.trim() + '!'" = .ok greetingArena ∧ greetingArena.WellFormed ∧
      ∀ value : Json, (greetingArena.eval (.ofJson value)).visited.Nodup := by
  have h : Arena.ofText "value.name.trim() + '!'" = .ok greetingArena := by decide +kernel
  obtain ⟨hwf, -, heval⟩ := wellFormed_and_safe_of_ofText h
  exact ⟨h, hwf, fun value => (heval value).1⟩

end Reshape.Formula
