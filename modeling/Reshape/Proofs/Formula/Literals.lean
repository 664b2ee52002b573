/-
# Reshape.Proofs.Formula.Literals -- how strings are spelled in formulas

`Spelled` says piece by piece which text the characters between two quotes stand for. Reading a
string finds the closing quote and the text spelled before it, and whatever stands behind the quote
is of no account (`stringBody_eq_ok_iff`). When the reading fails, it points to the opening quote or
between two characters of what it has read (`offset_of_stringBody`).
-/

import Reshape.Formula.Token
import Reshape.Proofs.Except
import Reshape.Proofs.Text.Size

namespace Reshape.Formula

/-! ## Codes -/

/-- Every character of a number in hexadecimal is a digit, apart from a plus sign. -/
theorem hexValue?_of_foldlM {cs : List Char} {m n : Nat}
    (h : cs.foldlM (fun n c => (Text.hexValue? c).map (16 * n + ·)) m = some n) :
    ∀ c ∈ cs, ∃ d, Text.hexValue? c = some d := by
  induction cs generalizing m with
  | nil =>
    intro c hc
    cases hc
  | cons c cs ih =>
    rw [List.foldlM_cons] at h
    obtain ⟨k, hk, h⟩ := Option.bind_eq_some_iff.mp h
    obtain ⟨d, hd, -⟩ := Option.map_eq_some_iff.mp hk
    intro c' hc'
    rcases List.mem_cons.mp hc' with rfl | hmem
    · exact ⟨d, hd⟩
    · exact ih h c' hmem

theorem utf8Size_of_hexValue? {c : Char} {d : Nat} (h : Text.hexValue? c = some d) :
    c.utf8Size = 1 := by
  have hle : ∀ last : Char, c ≤ last → last.val ≤ 0x7f → c.utf8Size = 1 := by
    intro last hlast hascii
    exact Char.utf8Size_eq_one_iff.mpr (UInt32.le_trans hlast hascii)
  simp only [Text.hexValue?, Bool.and_eq_true, decide_eq_true_eq] at h
  split at h
  case isTrue hc => exact hle '9' hc.2 (by decide)
  case isFalse =>
    split at h
    case isTrue hc => exact hle 'f' hc.2 (by decide)
    case isFalse =>
      split at h
      case isTrue hc => exact hle 'F' hc.2 (by decide)
      case isFalse => cases h

/-- A number in hexadecimal has as many bytes as characters. -/
theorem byteLength_of_hexNumber? {cs : List Char} {n : Nat} (h : hexNumber? cs = some n) :
    Text.byteLength cs = cs.length := by
  have hdigits : ∀ ds : List Char, (if ds.isEmpty then none
      else ds.foldlM (fun n c => (Text.hexValue? c).map (16 * n + ·)) 0) = some n →
      ∀ c ∈ ds, c.utf8Size = 1 := by
    intro ds hds c hc
    split at hds
    case isTrue => cases hds
    case isFalse =>
      obtain ⟨d, hd⟩ := hexValue?_of_foldlM hds c hc
      exact utf8Size_of_hexValue? hd
  have hone : ∀ ds : List Char, (∀ c ∈ ds, c.utf8Size = 1) → Text.byteLength ds = ds.length := by
    intro ds hds
    induction ds with
    | nil => rfl
    | cons c ds ih =>
      rw [Text.byteLength, hds c List.mem_cons_self, List.length_cons, Nat.add_comm,
        ih fun c hc => hds c (List.mem_cons_of_mem _ hc)]
  apply hone
  unfold hexNumber? at h
  split at h
  case h_1 ds =>
    intro c hc
    rcases List.mem_cons.mp hc with rfl | hmem
    · rfl
    · exact hdigits ds h c hmem
  case h_2 => exact hdigits cs h

/-! ## Strings -/

/-- **The text that characters between quotes stand for.** -/
inductive Spelled (quote : Char) : List Char → List Char → Prop
  | nil : Spelled quote [] []
  | plain {c : Char} {cs text : List Char} : c ≠ quote → c ≠ '\\' → Spelled quote cs text →
      Spelled quote (c :: cs) (c :: text)
  | escape {e : Char} {cs text : List Char} : e ≠ 'u' → Spelled quote cs text →
      Spelled quote ('\\' :: e :: cs) (escapeOf e :: text)
  | code {h₁ h₂ h₃ h₄ e : Char} {cs text : List Char} :
      (hexNumber? [h₁, h₂, h₃, h₄]).bind charOf? = some e → Spelled quote cs text →
      Spelled quote ('\\' :: 'u' :: h₁ :: h₂ :: h₃ :: h₄ :: cs) (e :: text)

section Steps

variable {quote : Char} (start offset : Nat)

theorem stringBody_close (cs : List Char) :
    stringBody quote start offset (quote :: cs) = .ok ([], cs) := by
  unfold stringBody
  exact if_pos rfl

theorem stringBody_plain {c : Char} (hquote : c ≠ quote) (hback : c ≠ '\\') (cs : List Char) :
    stringBody quote start offset (c :: cs) =
      (stringBody quote start (offset + c.utf8Size) cs).map fun r => (c :: r.1, r.2) := by
  rw [stringBody.eq_def]
  dsimp only
  rw [if_neg hquote, if_neg hback]

theorem stringBody_escape (hback : '\\' ≠ quote) {e : Char} (he : e ≠ 'u') (cs : List Char) :
    stringBody quote start offset ('\\' :: e :: cs) =
      (stringBody quote start (offset + 1 + e.utf8Size) cs).map fun r =>
        (escapeOf e :: r.1, r.2) := by
  rw [stringBody, if_neg hback, if_pos rfl]
  · intro _ _ _ _ _ hu
    exact absurd hu he
  · exact he

theorem stringBody_code (hback : '\\' ≠ quote) {h₁ h₂ h₃ h₄ e : Char}
    (hcode : (hexNumber? [h₁, h₂, h₃, h₄]).bind charOf? = some e) (cs : List Char) :
    stringBody quote start offset ('\\' :: 'u' :: h₁ :: h₂ :: h₃ :: h₄ :: cs) =
      (stringBody quote start (offset + 6) cs).map fun r => (e :: r.1, r.2) := by
  rw [stringBody, if_neg hback, if_pos rfl]
  simp only [hcode]

end Steps

variable {quote : Char} {start offset : Nat} {cs body text rest : List Char}

theorem stringBody_of_spelled (hback : '\\' ≠ quote) (h : Spelled quote body text)
    (start offset : Nat) (rest : List Char) :
    stringBody quote start offset (body ++ quote :: rest) = .ok (text, rest) := by
  induction h generalizing offset with
  | nil => exact stringBody_close start offset rest
  | plain hquote hplain _ ih =>
    rw [List.cons_append, stringBody_plain start offset hquote hplain, ih]
    rfl
  | escape he _ ih =>
    rw [List.cons_append, List.cons_append, stringBody_escape start offset hback he, ih]
    rfl
  | code hcode _ ih =>
    simp only [List.cons_append]
    rw [stringBody_code start offset hback hcode, ih]
    rfl

theorem spelled_of_stringBody (h : stringBody quote start offset cs = .ok (text, rest)) :
    ∃ body, cs = body ++ quote :: rest ∧ Spelled quote body text := by
  fun_induction stringBody quote start offset cs generalizing text with
  | case1 | case3 | case5 | case6 => cases h
  | case2 =>
    cases h
    exact ⟨[], rfl, .nil⟩
  | case4 offset h₁ h₂ h₃ h₄ tail e hcode _ ih =>
    obtain ⟨⟨text, rest⟩, hread, hr⟩ := map_eq_ok.mp h
    cases hr
    obtain ⟨body, rfl, hbody⟩ := ih hread
    exact ⟨'\\' :: 'u' :: h₁ :: h₂ :: h₃ :: h₄ :: body, rfl, .code hcode hbody⟩
  | case7 offset e tail _ he _ ih =>
    obtain ⟨⟨text, rest⟩, hread, hr⟩ := map_eq_ok.mp h
    cases hr
    obtain ⟨body, rfl, hbody⟩ := ih hread
    exact ⟨'\\' :: e :: body, rfl, .escape he hbody⟩
  | case8 offset c tail hquote hplain ih =>
    obtain ⟨⟨text, rest⟩, hread, hr⟩ := map_eq_ok.mp h
    cases hr
    obtain ⟨body, rfl, hbody⟩ := ih hread
    exact ⟨c :: body, rfl, .plain hquote hplain hbody⟩

/-- **A string is read exactly when its characters up to a closing quote spell a text.** -/
theorem stringBody_eq_ok_iff (hback : '\\' ≠ quote) :
    stringBody quote start offset cs = .ok (text, rest) ↔
      ∃ body, cs = body ++ quote :: rest ∧ Spelled quote body text := by
  constructor
  · exact spelled_of_stringBody
  · rintro ⟨body, rfl, hbody⟩
    exact stringBody_of_spelled hback hbody start offset rest

/-- A string that is not read is at fault where it begins, or between two of its characters. -/
theorem offset_of_stringBody {e : ParseError} (h : stringBody quote start offset cs = .error e) :
    e.offset = start ∨
      ∃ before after, cs = before ++ after ∧ e.offset = offset + Text.byteLength before := by
  fun_induction stringBody quote start offset cs with
  | case1 =>
    cases h
    exact .inl rfl
  | case2 => cases h
  | case3 offset =>
    cases h
    exact .inr ⟨[], ['\\'], rfl, rfl⟩
  | case5 offset h₁ h₂ h₃ h₄ tail =>
    cases h
    exact .inr ⟨['\\'], 'u' :: h₁ :: h₂ :: h₃ :: h₄ :: tail, rfl, rfl⟩
  | case6 offset tail =>
    cases h
    exact .inr ⟨['\\'], 'u' :: tail, rfl, rfl⟩
  | case4 offset h₁ h₂ h₃ h₄ tail e hcode _ ih =>
    refine (ih (map_eq_error.mp h)).imp_right ?_
    rintro ⟨before, after, rfl, he⟩
    refine ⟨'\\' :: 'u' :: [h₁, h₂, h₃, h₄] ++ before, after, rfl, ?_⟩
    obtain ⟨n, hn, -⟩ := Option.bind_eq_some_iff.mp hcode
    have hfour : Text.byteLength ('\\' :: 'u' :: [h₁, h₂, h₃, h₄]) = 6 := by
      rw [Text.byteLength, Text.byteLength, byteLength_of_hexNumber? hn]
      rfl
    rw [he, Text.byteLength_append, hfour, Nat.add_assoc]
  | case7 offset e tail _ he _ ih =>
    refine (ih (map_eq_error.mp h)).imp_right ?_
    rintro ⟨before, after, rfl, he⟩
    refine ⟨'\\' :: e :: before, after, rfl, ?_⟩
    rw [he, Text.byteLength, Text.byteLength, ← Nat.add_assoc, ← Nat.add_assoc]
    rfl
  | case8 offset c tail hquote hplain ih =>
    refine (ih (map_eq_error.mp h)).imp_right ?_
    rintro ⟨before, after, rfl, he⟩
    refine ⟨c :: before, after, rfl, ?_⟩
    rw [he, Text.byteLength, Nat.add_assoc]

end Reshape.Formula
