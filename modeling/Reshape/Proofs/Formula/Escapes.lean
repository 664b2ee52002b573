/-
# Reshape.Proofs.Formula.Escapes -- the pieces that strings in formulas are made of

The text of a string between its quotes falls into pieces, and each piece stands for one character:
a plain character for itself, a backslash with `n`, `t`, `r` or `0` for a control character, a
backslash with any other character but `u` for that character, and `\u` with a code for the
character of that number. A string is read exactly when its text up to a quote is made of such
pieces, and the token holds what they stand for (`next_quote_eq_ok_iff`).

The pieces leave open what a code is. Four hexadecimal digits are one. They are not the only ones:
the digits are read as a number, and a number may have a plus sign in front, so that `\u+041` is
read as well (`not_forall_next_quote_eq_ok_iff`).
-/

import Mathlib.Data.List.Forall2
import Reshape.Proofs.Formula.Literals

namespace Reshape.Formula

/-! ## Codes -/

/-- `c` is the hexadecimal digit of the value `d`; from ten on it is a small or a capital letter. -/
def IsHexDigit (c : Char) (d : Nat) : Prop :=
  d < 16 ∧ (c = Nat.digitChar d ∨ c = (Nat.digitChar d).toUpper)

/-- **Hexadecimal digits that name a character**: their number is the number of the character. -/
def Names (ds : List Char) (e : Char) : Prop :=
  ∃ values, List.Forall₂ IsHexDigit ds values ∧
    e.toNat = values.foldl (fun n d => 16 * n + d) 0

/-- Four hexadecimal digits that name a character. -/
def FourDigits (hs : List Char) (e : Char) : Prop :=
  hs.length = 4 ∧ Names hs e

/-- Four places that name a character: four digits, or a plus sign and three digits. -/
def FourPlaces (hs : List Char) (e : Char) : Prop :=
  FourDigits hs e ∨ ∃ ds, hs = '+' :: ds ∧ ds.length = 3 ∧ Names ds e

theorem hexValue?_digitChar {d : Nat} (h : d < 16) :
    Text.hexValue? (Nat.digitChar d) = some d ∧
      Text.hexValue? (Nat.digitChar d).toUpper = some d := by
  have hall : ∀ d < 16, Text.hexValue? (Nat.digitChar d) = some d ∧
      Text.hexValue? (Nat.digitChar d).toUpper = some d := by decide
  exact hall d h

/-- A character is found again by how far it is from the first one of its kind. -/
theorem eq_ofNat_of_toNat_sub {first c : Char} {k d : Nat} (hfirst : first ≤ c)
    (hd : c.toNat - first.toNat + k = d) : c = Char.ofNat (first.toNat + (d - k)) := by
  have hle : first.toNat ≤ c.toNat := hfirst
  rw [show first.toNat + (d - k) = c.toNat by omega, Char.ofNat_toNat]

theorem hexValue?_eq_some_iff {c : Char} {d : Nat} :
    Text.hexValue? c = some d ↔ IsHexDigit c d := by
  constructor
  · intro h
    have hsmall : ∀ d < 10, Char.ofNat ('0'.toNat + (d - 0)) = Nat.digitChar d := by decide
    have hlow : ∀ d < 16, 10 ≤ d → Char.ofNat ('a'.toNat + (d - 10)) = Nat.digitChar d := by decide
    have hhigh : ∀ d < 16, 10 ≤ d →
        Char.ofNat ('A'.toNat + (d - 10)) = (Nat.digitChar d).toUpper := by decide
    have hspan : ∀ last : Char, c ≤ last → c.toNat ≤ last.toNat := fun last hlast => hlast
    simp only [Text.hexValue?, Bool.and_eq_true, decide_eq_true_eq] at h
    split at h
    case isTrue hc =>
      have hlast : c.toNat ≤ 57 := hspan '9' hc.2
      have hd := Option.some.inj h
      have hzero : '0'.toNat = 48 := rfl
      refine ⟨by omega, .inl ?_⟩
      rw [eq_ofNat_of_toNat_sub (k := 0) hc.1 hd, hsmall d (by omega)]
    case isFalse =>
      split at h
      case isTrue hc =>
        have hlast : c.toNat ≤ 102 := hspan 'f' hc.2
        have hd := Option.some.inj h
        have hzero : 'a'.toNat = 97 := rfl
        refine ⟨by omega, .inl ?_⟩
        rw [eq_ofNat_of_toNat_sub hc.1 hd, hlow d (by omega) (by omega)]
      case isFalse =>
        split at h
        case isTrue hc =>
          have hlast : c.toNat ≤ 70 := hspan 'F' hc.2
          have hd := Option.some.inj h
          have hzero : 'A'.toNat = 65 := rfl
          refine ⟨by omega, .inr ?_⟩
          rw [eq_ofNat_of_toNat_sub hc.1 hd, hhigh d (by omega) (by omega)]
        case isFalse => cases h
  · rintro ⟨hd, rfl | rfl⟩
    · exact (hexValue?_digitChar hd).1
    · exact (hexValue?_digitChar hd).2

theorem foldlM_hexValue?_eq_some_iff {cs : List Char} {m n : Nat} :
    cs.foldlM (fun n c => (Text.hexValue? c).map (16 * n + ·)) m = some n ↔
      ∃ values, List.Forall₂ IsHexDigit cs values ∧
        n = values.foldl (fun n d => 16 * n + d) m := by
  induction cs generalizing m with
  | nil =>
    constructor
    · intro h
      exact ⟨[], .nil, (Option.some.inj h).symm⟩
    · rintro ⟨values, hvalues, rfl⟩
      cases hvalues
      rfl
  | cons c cs ih =>
    rw [List.foldlM_cons]
    constructor
    · intro h
      obtain ⟨k, hk, h⟩ := Option.bind_eq_some_iff.mp h
      obtain ⟨d, hd, rfl⟩ := Option.map_eq_some_iff.mp hk
      obtain ⟨values, hvalues, hn⟩ := ih.mp h
      exact ⟨d :: values, .cons (hexValue?_eq_some_iff.mp hd) hvalues, hn⟩
    · rintro ⟨values, hvalues, hn⟩
      cases hvalues with
      | @cons _ d _ values hd hvalues =>
        rw [hexValue?_eq_some_iff.mpr hd]
        exact ih.mpr ⟨values, hvalues, hn⟩

theorem charOf?_eq_some_iff {n : Nat} {e : Char} : charOf? n = some e ↔ e.toNat = n := by
  constructor
  · intro h
    obtain ⟨hvalid, he⟩ := (Option.ite_none_right_eq_some).mp h
    rw [← Option.some.inj he, Char.ofNat, dif_pos hvalid]
    rfl
  · rintro rfl
    have hvalid : e.toNat.isValidChar := e.valid
    rw [charOf?, if_pos hvalid, Char.ofNat_toNat]

/-- What is read as a number in hexadecimal: digits, and perhaps a plus sign in front of them. -/
theorem hexNumber?_bind_charOf?_iff {cs : List Char} {e : Char} :
    (hexNumber? cs).bind charOf? = some e ↔
      ∃ ds, (cs = ds ∨ cs = '+' :: ds) ∧ ds ≠ [] ∧ Names ds e := by
  have hnames : ∀ ds : List Char,
      (if ds.isEmpty then none
        else ds.foldlM (fun n c => (Text.hexValue? c).map (16 * n + ·)) 0).bind charOf? = some e ↔
          ds ≠ [] ∧ Names ds e := by
    intro ds
    cases ds with
    | nil => simp
    | cons d ds =>
      rw [if_neg (by simp), Option.bind_eq_some_iff]
      simp only [foldlM_hexValue?_eq_some_iff, charOf?_eq_some_iff]
      constructor
      · rintro ⟨n, ⟨values, hvalues, rfl⟩, hn⟩
        exact ⟨List.cons_ne_nil _ _, values, hvalues, hn⟩
      · rintro ⟨-, values, hvalues, hn⟩
        exact ⟨_, ⟨values, hvalues, rfl⟩, hn⟩
  -- a plus sign is no digit, so it cannot be read as the first one
  have hplus : ∀ ds, ¬ Names ('+' :: ds) e := by
    rintro ds ⟨values, hvalues, -⟩
    cases hvalues with
    | cons hd _ => exact absurd (hexValue?_eq_some_iff.mpr hd) (by simp [Text.hexValue?])
  unfold hexNumber?
  split
  case h_1 ds =>
    rw [hnames]
    constructor
    · exact fun h => ⟨ds, .inr rfl, h⟩
    · rintro ⟨es, rfl | hes, h⟩
      · exact absurd h.2 (hplus ds)
      · rwa [(List.cons.inj hes).2]
  case h_2 hcs =>
    rw [hnames]
    constructor
    · exact fun h => ⟨cs, .inl rfl, h⟩
    · rintro ⟨es, rfl | hes, h⟩
      · exact h
      · exact absurd hes (hcs es)

/-- **The code behind `\u`**: four places that name a character. -/
theorem code_iff {h₁ h₂ h₃ h₄ e : Char} :
    (hexNumber? [h₁, h₂, h₃, h₄]).bind charOf? = some e ↔ FourPlaces [h₁, h₂, h₃, h₄] e := by
  rw [hexNumber?_bind_charOf?_iff]
  constructor
  · rintro ⟨ds, rfl | hds, -, h⟩
    · exact .inl ⟨rfl, h⟩
    · refine .inr ⟨ds, hds, ?_, h⟩
      rw [← (List.cons.inj hds).2]
      rfl
  · rintro (⟨-, h⟩ | ⟨ds, hds, hthree, h⟩)
    · exact ⟨_, .inl rfl, List.cons_ne_nil _ _, h⟩
    · exact ⟨ds, .inr hds, List.ne_nil_of_length_eq_add_one hthree, h⟩

/-! ## Pieces -/

/-- **A piece of a string** between two of `quote`, and the character that it stands for. `Code`
says which characters behind `\u` are the code of which character. -/
inductive Piece (Code : List Char → Char → Prop) (quote : Char) : List Char → Char → Prop
  | plain {c : Char} : c ≠ quote → c ≠ '\\' → Piece Code quote [c] c
  | newline : Piece Code quote ['\\', 'n'] '\n'
  | tab : Piece Code quote ['\\', 't'] '\t'
  | carriage : Piece Code quote ['\\', 'r'] '\r'
  | nul : Piece Code quote ['\\', '0'] '\x00'
  | itself {e : Char} : e ∉ ['n', 't', 'r', '0', 'u'] → Piece Code quote ['\\', e] e
  | code {hs : List Char} {e : Char} : Code hs e → Piece Code quote ('\\' :: 'u' :: hs) e

section Pieces

variable {Code : List Char → Char → Prop} {quote : Char}

/-- A backslash and a character other than `u` are a piece. -/
theorem piece_escapeOf {e : Char} (he : e ≠ 'u') : Piece Code quote ['\\', e] (escapeOf e) := by
  unfold escapeOf
  split
  case isTrue h => exact h ▸ .newline
  case isFalse hn =>
    split
    case isTrue h => exact h ▸ .tab
    case isFalse ht =>
      split
      case isTrue h => exact h ▸ .carriage
      case isFalse hr =>
        split
        case isTrue h => exact h ▸ .nul
        case isFalse h0 => exact .itself (by simp [hn, ht, hr, h0, he])

theorem escapeOf_of_not_mem {e : Char} (he : e ∉ ['n', 't', 'r', '0', 'u']) : escapeOf e = e := by
  simp only [List.mem_cons, List.not_mem_nil, or_false, not_or] at he
  obtain ⟨hn, ht, hr, h0, -⟩ := he
  simp [escapeOf, hn, ht, hr, h0]

/-- A piece in front of what is spelled is spelled with it. -/
theorem Spelled.piece {front cs text : List Char} {e : Char} (h : Piece FourPlaces quote front e)
    (hcs : Spelled quote cs text) : Spelled quote (front ++ cs) (e :: text) := by
  cases h with
  | plain hquote hback => exact .plain hquote hback hcs
  | newline => exact .escape (e := 'n') (by decide) hcs
  | tab => exact .escape (e := 't') (by decide) hcs
  | carriage => exact .escape (e := 'r') (by decide) hcs
  | nul => exact .escape (e := '0') (by decide) hcs
  | itself he =>
    have hu : e ≠ 'u' := fun h => he (by simp [h])
    have hspelled := Spelled.escape hu hcs
    rwa [escapeOf_of_not_mem he] at hspelled
  | @code hs _ hcode =>
    have hfour : hs.length = 4 := by
      rcases hcode with h | ⟨ds, rfl, hds, -⟩
      · exact h.1
      · simp [hds]
    match hs, hfour with
    | [_, _, _, _], _ => exact .code (code_iff.mpr hcode) hcs

/-- **What is spelled is made of pieces**, one for each character of the text. -/
theorem spelled_iff_pieces {cs text : List Char} :
    Spelled quote cs text ↔
      ∃ fronts, cs = List.flatten fronts ∧
        List.Forall₂ (Piece FourPlaces quote) fronts text := by
  constructor
  · intro h
    induction h with
    | nil => exact ⟨[], rfl, .nil⟩
    | plain hquote hback _ ih =>
      obtain ⟨fronts, rfl, hfronts⟩ := ih
      exact ⟨_ :: fronts, rfl, .cons (.plain hquote hback) hfronts⟩
    | escape he _ ih =>
      obtain ⟨fronts, rfl, hfronts⟩ := ih
      exact ⟨_ :: fronts, rfl, .cons (piece_escapeOf he) hfronts⟩
    | code hcode _ ih =>
      obtain ⟨fronts, rfl, hfronts⟩ := ih
      exact ⟨_ :: fronts, rfl, .cons (.code (code_iff.mp hcode)) hfronts⟩
  · rintro ⟨fronts, rfl, hfronts⟩
    induction hfronts with
    | nil => exact .nil
    | cons hpiece _ ih => exact ih.piece hpiece

end Pieces

/-! ## Strings as tokens -/

/-- Between quotes a token is the text that they enclose. -/
theorem next_quote {quote : Char} (hquote : quote = '"' ∨ quote = '\'') (offset : Nat)
    (cs : List Char) :
    next offset quote cs =
      (stringBody quote offset (offset + 1) cs).map fun r => (.str (String.ofList r.1), r.2) := by
  rcases hquote with rfl | rfl <;> rfl

/-- **A string is read exactly when its text up to a quote is made of pieces**, and its token holds
the characters that they stand for. The code behind `\u` has four places. -/
theorem next_quote_eq_ok_iff {quote : Char} (hquote : quote = '"' ∨ quote = '\'') {offset : Nat}
    {cs rest : List Char} {kind : Kind} :
    next offset quote cs = .ok (kind, rest) ↔
      ∃ fronts text, cs = List.flatten fronts ++ quote :: rest ∧
        List.Forall₂ (Piece FourPlaces quote) fronts text ∧ kind = .str (String.ofList text) := by
  have hback : '\\' ≠ quote := by rcases hquote with rfl | rfl <;> decide
  rw [next_quote hquote, map_eq_ok]
  constructor
  · rintro ⟨⟨text, rest⟩, hbody, heq⟩
    obtain ⟨rfl, rfl⟩ := Prod.mk.inj heq
    obtain ⟨body, rfl, hspelled⟩ := (stringBody_eq_ok_iff hback).mp hbody
    obtain ⟨fronts, rfl, hfronts⟩ := spelled_iff_pieces.mp hspelled
    exact ⟨fronts, text, rfl, hfronts, rfl⟩
  · rintro ⟨fronts, text, rfl, hfronts, rfl⟩
    have hspelled := spelled_iff_pieces.mpr ⟨fronts, rfl, hfronts⟩
    exact ⟨(text, rest), (stringBody_eq_ok_iff hback).mpr ⟨_, rfl, hspelled⟩, rfl⟩

/-- An escaped quote, a code, and a plus sign in front of the digits of another one. -/
theorem next_quote_eq_ok_iff_codes :
    ('\'' = '"' ∨ '\'' = '\'') ∧
      next 3 '\'' "it\\'s \\u00e9\\u+041' + 1".toList = .ok (.str "it's éA", " + 1".toList) := by
  refine ⟨.inr rfl, (next_quote_eq_ok_iff (.inr rfl)).mpr
    ⟨[['i'], ['t'], ['\\', '\''], ['s'], [' '], ['\\', 'u', '0', '0', 'e', '9'],
      ['\\', 'u', '+', '0', '4', '1']], "it's éA".toList, rfl, ?_, rfl⟩⟩
  have hcode : FourPlaces ['0', '0', 'e', '9'] 'é' := code_iff.mp rfl
  have hsigned : FourPlaces ['+', '0', '4', '1'] 'A' := code_iff.mp rfl
  exact .cons (.plain (by decide) (by decide)) <| .cons (.plain (by decide) (by decide)) <|
    .cons (.itself (by decide)) <| .cons (.plain (by decide) (by decide)) <|
    .cons (.plain (by decide) (by decide)) <| .cons (.code hcode) <| .cons (.code hsigned) .nil

/-- **Four digits are not the only codes**: a plus sign and three digits are read too. -/
theorem not_forall_next_quote_eq_ok_iff :
    ¬ ∀ (quote : Char) (offset : Nat) (cs rest : List Char) (kind : Kind),
      (quote = '"' ∨ quote = '\'') →
        (next offset quote cs = .ok (kind, rest) ↔
          ∃ fronts text, cs = List.flatten fronts ++ quote :: rest ∧
            List.Forall₂ (Piece FourDigits quote) fronts text ∧
              kind = .str (String.ofList text)) := by
  intro h
  have hread : next 0 '\'' ['\\', 'u', '+', '0', '4', '1', '\''] =
      .ok (.str (String.ofList ['A']), []) := rfl
  obtain ⟨fronts, text, hcs, hfronts, -⟩ := (h _ _ _ _ _ (.inr rfl)).mp hread
  -- the first piece begins with `\u`, so that it is a code, and the code begins with a plus sign
  cases hfronts with
  | nil => exact absurd (List.cons.inj hcs).1 (by decide)
  | @cons front _ fronts _ hpiece _ =>
    cases hpiece with
    | plain _ hback => exact hback (List.cons.inj hcs).1.symm
    | newline | tab | carriage | nul =>
      exact absurd (List.cons.inj (List.cons.inj hcs).2).1 (by decide)
    | itself he =>
      rw [← (List.cons.inj (List.cons.inj hcs).2).1] at he
      exact he (by decide)
    | @code hs _ hcode =>
      obtain ⟨hfour, values, hvalues, -⟩ := hcode
      cases hvalues with
      | nil => cases hfour
      | cons hd _ =>
        have hplus := (List.cons.inj (List.cons.inj (List.cons.inj hcs).2).2).1
        rw [← hplus] at hd
        exact absurd (hexValue?_eq_some_iff.mpr hd) (by simp [Text.hexValue?])

end Reshape.Formula
