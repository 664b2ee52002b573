/-
# Reshape.Proofs.Formula.Lexemes -- what one token takes from the front of a text

`next` reads as far as the longest token goes, so at the front of a text it looks at characters
behind the token. None of them matters for the token itself: the characters that it takes are the
same token when only blanks follow them (`exists_isLexeme_of_next`). A number may look over a letter
`e` and a sign and leave both to the next token; a sign may look at up to two characters that are
not its own.
-/

import Reshape.Proofs.Formula.Literals
import Mathlib.Data.List.TakeDrop
import Mathlib.Data.List.TakeWhile

namespace Reshape.Formula

open Decimal (isDigit spanDigits)

/-! ## Blanks -/

/-- Nothing but blanks. -/
def Blanks (cs : List Char) : Prop :=
  ∀ c ∈ cs, isBlank c = true

variable {blanks : List Char}

theorem eq_of_isBlank {c : Char} (h : isBlank c = true) :
    c = ' ' ∨ c = '\t' ∨ c = '\n' ∨ c = '\x0c' ∨ c = '\r' := by
  simpa only [isBlank, Bool.or_eq_true, decide_eq_true_eq, or_assoc] using h

theorem Blanks.cases (h : Blanks blanks) :
    blanks = [] ∨ ∃ bs, blanks = ' ' :: bs ∨ blanks = '\t' :: bs ∨ blanks = '\n' :: bs ∨
      blanks = '\x0c' :: bs ∨ blanks = '\r' :: bs := by
  rcases blanks with _ | ⟨b, bs⟩
  · exact .inl rfl
  · refine .inr ⟨bs, ?_⟩
    rcases eq_of_isBlank (h b List.mem_cons_self) with rfl | rfl | rfl | rfl | rfl <;> simp

/-- A text `after` stops a run of characters with `p`. -/
def EndsRun (p : Char → Bool) (after : List Char) : Prop :=
  ∀ c ∈ after.head?, p c = false

/-- Blanks stop what takes no blank. -/
theorem Blanks.endsRun (h : Blanks blanks) {p : Char → Bool}
    (hp : [' ', '\t', '\n', '\x0c', '\r'].any p = false) : EndsRun p blanks := by
  intro c hc
  have hmem : c ∈ blanks := List.mem_of_mem_head? hc
  rw [List.any_eq_false] at hp
  apply Bool.eq_false_iff.mpr
  apply hp
  rcases eq_of_isBlank (h c hmem) with rfl | rfl | rfl | rfl | rfl <;> simp

theorem EndsRun.append {p : Char → Bool} {front after : List Char} (hfront : EndsRun p front)
    (hafter : EndsRun p after) : EndsRun p (front ++ after) := by
  rcases front with _ | ⟨c, cs⟩
  · exact hafter
  · exact hfront

/-! ## Runs of characters -/

section Runs

variable {p : Char → Bool} {front after : List Char}

theorem takeWhile_eq_nil_of_endsRun (h : EndsRun p after) : after.takeWhile p = [] := by
  rcases after with _ | ⟨c, cs⟩
  · rfl
  · exact List.takeWhile_cons_of_neg (by simp [h c rfl])

theorem takeWhile_append_of_endsRun (hfront : ∀ c ∈ front, p c = true) (hafter : EndsRun p after) :
    (front ++ after).takeWhile p = front := by
  rw [List.takeWhile_append_of_pos hfront, takeWhile_eq_nil_of_endsRun hafter, List.append_nil]

theorem dropWhile_append_of_endsRun (hfront : ∀ c ∈ front, p c = true) (hafter : EndsRun p after) :
    (front ++ after).dropWhile p = after := by
  have h := List.takeWhile_append_dropWhile (p := p) (l := front ++ after)
  rw [takeWhile_append_of_endsRun hfront hafter] at h
  exact List.append_cancel_left h

theorem spanDigits_append (hfront : ∀ d ∈ front, isDigit d = true)
    (hafter : EndsRun isDigit after) :
    spanDigits (front ++ after) = (front, after) := by
  rw [spanDigits, List.span_eq_takeWhile_dropWhile, takeWhile_append_of_endsRun hfront hafter,
    dropWhile_append_of_endsRun hfront hafter]

end Runs

/-! ## Numbers -/

/-- What the body of a number takes in: digits and points. -/
def inBody (c : Char) : Bool :=
  isDigit c || c = '.'

/-- **An exponent**: the letter, perhaps a sign, and digits. -/
structure IsExponent (e : Char) (sign ds : List Char) : Prop where
  letter : e = 'e' ∨ e = 'E'
  sign : sign = [] ∨ sign = ['+'] ∨ sign = ['-']
  nonempty : ds ≠ []
  digits : ∀ d ∈ ds, isDigit d = true

theorem spanExponent_append {e : Char} {sign ds after : List Char} (h : IsExponent e sign ds)
    (hafter : EndsRun isDigit after) :
    spanExponent (e :: (sign ++ ds ++ after)) = (e :: (sign ++ ds), after) := by
  have hspan := spanDigits_append h.digits hafter
  rcases h.sign with rfl | rfl | rfl
  · obtain ⟨d, ds, rfl⟩ := List.exists_cons_of_ne_nil h.nonempty
    have hd := h.digits d List.mem_cons_self
    -- a digit is no sign of the exponent
    have hplus : d ≠ '+' := by
      rintro rfl
      exact absurd hd (by decide)
    have hminus : d ≠ '-' := by
      rintro rfl
      exact absurd hd (by decide)
    simp only [List.nil_append, List.cons_append] at hspan ⊢
    simp [spanExponent, h.letter, hplus, hminus, hspan]
  · simp [spanExponent, h.letter, hspan, h.nonempty]
  · simp [spanExponent, h.letter, hspan, h.nonempty]

theorem spanExponent_blanks (h : Blanks blanks) : spanExponent blanks = ([], blanks) := by
  rcases h.cases with rfl | ⟨bs, rfl | rfl | rfl | rfl | rfl⟩ <;> rfl

theorem endsRun_dropWhile (p : Char → Bool) (cs : List Char) : EndsRun p (cs.dropWhile p) := by
  intro c hc
  have h := List.head?_dropWhile_not p cs
  rwa [Option.mem_def.mp hc] at h

/-- An exponent stands at the front, or nothing is taken. -/
theorem spanExponent_cases (cs : List Char) :
    spanExponent cs = ([], cs) ∨
      ∃ (e : Char) (sign ds after : List Char), cs = e :: (sign ++ ds ++ after) ∧
        IsExponent e sign ds ∧ EndsRun isDigit after := by
  rcases cs with _ | ⟨e, rest⟩
  · exact .inl rfl
  by_cases he : e = 'e' ∨ e = 'E'
  · -- the digits behind the sign decide
    have hdigits : ∀ sign tail : List Char, rest = sign ++ tail →
        (sign = [] ∨ sign = ['+'] ∨ sign = ['-']) → tail.takeWhile isDigit ≠ [] →
        ∃ (e' : Char) (sign ds after : List Char), e :: rest = e' :: (sign ++ ds ++ after) ∧
          IsExponent e' sign ds ∧ EndsRun isDigit after := by
      intro sign tail hrest hsign hne
      have hall : ∀ d ∈ tail.takeWhile isDigit, isDigit d = true := fun d => List.mem_takeWhile_imp
      refine ⟨e, sign, tail.takeWhile isDigit, tail.dropWhile isDigit, ?_,
        ⟨he, hsign, hne, hall⟩, endsRun_dropWhile isDigit tail⟩
      rw [List.append_assoc, List.takeWhile_append_dropWhile, hrest]
    rcases rest with _ | ⟨s, tail⟩
    · exact .inl (by simp [spanExponent, he, spanDigits])
    by_cases hs : s = '+' ∨ s = '-'
    · by_cases hne : tail.takeWhile isDigit = []
      · left
        simp [spanExponent, he, hs, spanDigits, List.span_eq_takeWhile_dropWhile, hne]
      · refine .inr (hdigits [s] tail rfl ?_ hne)
        rcases hs with rfl | rfl <;> simp
    · by_cases hne : (s :: tail).takeWhile isDigit = []
      · left
        simp [spanExponent, he, hs, spanDigits, List.span_eq_takeWhile_dropWhile, hne]
      · exact .inr (hdigits [] (s :: tail) rfl (.inl rfl) hne)
  · exact .inl (by simp [spanExponent, he])

/-- An exponent at the front stays the same when only blanks follow it. -/
theorem spanExponent_front (cs : List Char) :
    ∃ exponent rest, spanExponent cs = (exponent, rest) ∧ cs = exponent ++ rest ∧
      EndsRun inBody exponent ∧
      ∀ blanks, Blanks blanks → spanExponent (exponent ++ blanks) = (exponent, blanks) := by
  rcases spanExponent_cases cs with h | ⟨e, sign, ds, after, rfl, h, hafter⟩
  · refine ⟨[], cs, h, rfl, ?_, fun blanks => spanExponent_blanks⟩
    intro c hc
    cases hc
  · refine ⟨e :: (sign ++ ds), after, spanExponent_append h hafter, rfl, ?_, ?_⟩
    · intro c hc
      cases hc
      rcases h.letter with rfl | rfl <;> rfl
    · intro blanks hblanks
      exact spanExponent_append h (hblanks.endsRun rfl)

/-- A number is read when its body and its exponent together are a float. -/
theorem numberToken_append_eq_ok_iff {offset : Nat} {body exponent after rest : List Char}
    {kind : Kind} (hbody : ∀ c ∈ body, inBody c = true) (hends : EndsRun inBody (exponent ++ after))
    (hexponent : spanExponent (exponent ++ after) = (exponent, after)) :
    numberToken offset (body ++ (exponent ++ after)) = .ok (kind, rest) ↔
      ∃ x, Decimal.parseChars? (body ++ exponent) = some x ∧ .number x = kind ∧ after = rest := by
  have htake : (body ++ (exponent ++ after)).takeWhile (fun c => isDigit c || c = '.') = body :=
    takeWhile_append_of_endsRun hbody hends
  rw [numberToken, htake, List.drop_left, hexponent]
  dsimp only
  cases Decimal.parseChars? (body ++ exponent) with
  | none =>
    constructor
    · intro h
      cases h
    · rintro ⟨x, hx, -⟩
      cases hx
  | some x =>
    constructor
    · intro h
      cases h
      exact ⟨x, rfl, rfl, rfl⟩
    · rintro ⟨x', hx, rfl, rfl⟩
      cases hx
      rfl

/-- A number begins with a digit, or with a point and a digit, and both belong to its body. -/
theorem takeWhile_inBody_of_startsNumber {c : Char} {cs : List Char}
    (h : startsNumber (c :: cs) = true) :
    ∃ body, (c :: cs).takeWhile inBody = c :: body ∧
      ∀ after, startsNumber (c :: (body ++ after)) = true := by
  simp only [startsNumber, Bool.or_eq_true, Bool.and_eq_true, decide_eq_true_eq] at h
  rcases h with hc | ⟨rfl, hhead⟩
  · refine ⟨cs.takeWhile inBody, List.takeWhile_cons_of_pos (by simp [inBody, hc]), fun after => ?_⟩
    simp [startsNumber, hc]
  · rcases cs with _ | ⟨d, cs⟩
    · cases hhead
    have hd : isDigit d = true := hhead
    have hbody : inBody d = true := by simp [inBody, hd]
    refine ⟨d :: cs.takeWhile inBody, ?_, fun after => ?_⟩
    · rw [List.takeWhile_cons_of_pos rfl, List.takeWhile_cons_of_pos hbody]
    · simp [startsNumber, hd]

/-- **A number is the same number before blanks.** -/
theorem number_front {offset : Nat} {c : Char} {cs rest : List Char} {kind : Kind}
    (hstart : startsNumber (c :: cs) = true)
    (h : numberToken offset (c :: cs) = .ok (kind, rest)) :
    ∃ more, cs = more ++ rest ∧ ∀ offset blanks, Blanks blanks →
      startsNumber (c :: (more ++ blanks)) = true ∧
      numberToken offset (c :: (more ++ blanks)) = .ok (kind, blanks) := by
  obtain ⟨body, htake, hafter⟩ := takeWhile_inBody_of_startsNumber hstart
  obtain ⟨exponent, rest', hspan, hdrop, hends, hblanks⟩ :=
    spanExponent_front ((c :: cs).dropWhile inBody)
  have hbody : ∀ d ∈ c :: body, inBody d = true := htake ▸ fun d => List.mem_takeWhile_imp
  have hcs : c :: cs = (c :: body) ++ (exponent ++ rest') := by
    rw [← hdrop, ← htake, List.takeWhile_append_dropWhile]
  rw [hcs, numberToken_append_eq_ok_iff hbody (hdrop ▸ endsRun_dropWhile inBody _)
    (hdrop ▸ hspan)] at h
  obtain ⟨x, hx, rfl, rfl⟩ := h
  refine ⟨body ++ exponent, ?_, fun offset blanks hb => ?_⟩
  · rw [List.append_assoc]
    exact (List.cons.inj hcs).2
  · rw [List.append_assoc]
    refine ⟨hafter _, ?_⟩
    have hends : EndsRun inBody (exponent ++ blanks) := hends.append (hb.endsRun rfl)
    exact (numberToken_append_eq_ok_iff hbody hends (hblanks blanks hb)).mpr ⟨x, hx, rfl, rfl⟩

/-! ## Signs -/

/-- **A sign is the same sign before blanks.** -/
theorem sign_front {cs rest : List Char} {kind : Kind} (h : sign? cs = some (kind, rest)) :
    ∃ front, cs = front ++ rest ∧ front ≠ [] ∧
      ∀ blanks, Blanks blanks → sign? (front ++ blanks) = some (kind, blanks) := by
  unfold sign? at h
  split at h
  all_goals cases h
  -- no blank is the second or third character of a longer sign
  all_goals
    first
    | refine ⟨[_], rfl, List.cons_ne_nil _ _, fun blanks hblanks => ?_⟩
    | refine ⟨[_, _], rfl, List.cons_ne_nil _ _, fun blanks hblanks => ?_⟩
    | refine ⟨[_, _, _], rfl, List.cons_ne_nil _ _, fun blanks hblanks => ?_⟩
    rcases hblanks.cases with rfl | ⟨bs, rfl | rfl | rfl | rfl | rfl⟩ <;> rfl

/-! ## Lexemes -/

/-- **A lexeme**: `c` and the characters behind it are one token, wherever they stand, as long as
only blanks follow. -/
structure IsLexeme (kind : Kind) (c : Char) (more : List Char) : Prop where
  solid : isBlank c = false
  next : ∀ offset blanks, Blanks blanks →
    Formula.next offset c (more ++ blanks) = .ok (kind, blanks)

theorem startsNumber_eq_false {c : Char} {after : List Char} (hdigit : isDigit c = false)
    (hpoint : c = '.' → EndsRun isDigit after) : startsNumber (c :: after) = false := by
  simp only [startsNumber, hdigit, Bool.false_or, Bool.and_eq_false_iff, decide_eq_false_iff_not]
  by_cases hc : c = '.'
  · right
    rcases after with _ | ⟨d, ds⟩
    · rfl
    · exact hpoint hc d rfl
  · exact .inl hc

theorem isDigit_eq_false_of_startsNumber {c : Char} {cs : List Char}
    (h : ¬ startsNumber (c :: cs) = true) : isDigit c = false := by
  rw [Bool.not_eq_true, startsNumber, Bool.or_eq_false_iff] at h
  exact h.1

section Fronts

variable {offset : Nat} {c : Char} {cs rest : List Char} {kind : Kind}
  (hsolid : isBlank c = false) (hdigit : isDigit c = false)

include hsolid

theorem exists_isLexeme_number (hstart : startsNumber (c :: cs) = true)
    (h : numberToken offset (c :: cs) = .ok (kind, rest)) :
    ∃ more, cs = more ++ rest ∧ IsLexeme kind c more := by
  obtain ⟨more, hcs, hmore⟩ := number_front hstart h
  refine ⟨more, hcs, hsolid, fun offset blanks hblanks => ?_⟩
  obtain ⟨hstart, hnumber⟩ := hmore offset blanks hblanks
  rw [next, if_pos hstart, hnumber]

include hdigit

theorem isLexeme_ident (hname : startsName c = true) :
    IsLexeme (.ident (String.ofList (c :: cs.takeWhile continuesName))) c
      (cs.takeWhile continuesName) := by
  refine ⟨hsolid, fun offset blanks hblanks => ?_⟩
  have hpoint : c ≠ '.' := by
    rintro rfl
    exact absurd hname (by decide)
  have hnumber : ¬ startsNumber (c :: (cs.takeWhile continuesName ++ blanks)) = true :=
    Bool.eq_false_iff.mp (startsNumber_eq_false hdigit fun h => absurd h hpoint)
  have hall : ∀ d ∈ c :: cs.takeWhile continuesName, continuesName d = true := by
    intro d hd
    rcases List.mem_cons.mp hd with rfl | hmem
    · simp [continuesName, hname]
    · exact List.mem_takeWhile_imp hmem
  have hends : EndsRun continuesName blanks := hblanks.endsRun rfl
  rw [next, if_neg hnumber, if_pos hname, ← List.cons_append,
    takeWhile_append_of_endsRun hall hends, dropWhile_append_of_endsRun hall hends]

theorem exists_isLexeme_str {text : List Char} (hquote : c = '"' ∨ c = '\'')
    (h : stringBody c offset (offset + 1) cs = .ok (text, rest)) :
    ∃ more, cs = more ++ rest ∧ IsLexeme (.str (String.ofList text)) c more := by
  have hback : '\\' ≠ c ∧ c ≠ '.' ∧ ¬ startsName c = true := by
    rcases hquote with rfl | rfl <;> decide
  obtain ⟨hback, hpoint, hname⟩ := hback
  obtain ⟨body, rfl, hbody⟩ := spelled_of_stringBody h
  refine ⟨body ++ [c], by simp, hsolid, fun offset blanks hblanks => ?_⟩
  have hnumber : ¬ startsNumber (c :: (body ++ [c] ++ blanks)) = true :=
    Bool.eq_false_iff.mp (startsNumber_eq_false hdigit fun h => absurd h hpoint)
  rw [next, if_neg hnumber, if_neg hname, if_pos (by simpa using hquote), List.append_assoc,
    List.singleton_append, stringBody_of_spelled hback hbody]
  rfl

theorem exists_isLexeme_sign (hname : ¬ startsName c = true) (hquote : ¬ (c = '"' ∨ c = '\''))
    (h : sign? (c :: cs) = some (kind, rest)) :
    ∃ more, cs = more ++ rest ∧ IsLexeme kind c more := by
  obtain ⟨front, hcs, hne, hfront⟩ := sign_front h
  obtain ⟨d, more, rfl⟩ := List.exists_cons_of_ne_nil hne
  obtain ⟨rfl, rfl⟩ := List.cons.inj hcs
  refine ⟨more, rfl, hsolid, fun offset blanks hblanks => ?_⟩
  -- a point is a sign of its own, so that a blank stands behind it and not a digit
  have hpoint : c = '.' → EndsRun isDigit (more ++ blanks) := by
    rintro rfl
    have hdot : rest = more ++ rest := (Prod.ext_iff.mp (Option.some.inj h)).2.symm
    rw [List.self_eq_append_left.mp hdot]
    exact hblanks.endsRun rfl
  have hnumber : ¬ startsNumber (c :: (more ++ blanks)) = true :=
    Bool.eq_false_iff.mp (startsNumber_eq_false hdigit hpoint)
  have hsign := hfront blanks hblanks
  rw [List.cons_append] at hsign
  rw [next, if_neg hnumber, if_neg hname, if_neg (by simpa using hquote), hsign]

end Fronts

/-- **What a token takes from the front of a text is a lexeme.** -/
theorem exists_isLexeme_of_next {offset : Nat} {c : Char} {cs rest : List Char} {kind : Kind}
    (hsolid : isBlank c = false) (h : next offset c cs = .ok (kind, rest)) :
    ∃ more, cs = more ++ rest ∧ IsLexeme kind c more := by
  unfold next at h
  split at h
  case isTrue hstart => exact exists_isLexeme_number hsolid hstart h
  case isFalse hstart =>
    have hdigit := isDigit_eq_false_of_startsNumber hstart
    split at h
    case isTrue hname =>
      have hcontinues : continuesName c = true := by simp [continuesName, hname]
      rw [List.takeWhile_cons_of_pos hcontinues, List.dropWhile_cons_of_pos hcontinues] at h
      cases h
      exact ⟨cs.takeWhile continuesName, List.takeWhile_append_dropWhile.symm,
        isLexeme_ident hsolid hdigit hname⟩
    case isFalse hname =>
      split at h
      case isTrue hquote =>
        obtain ⟨⟨text, rest⟩, hbody, hr⟩ := map_eq_ok.mp h
        cases hr
        exact exists_isLexeme_str hsolid hdigit (by simpa using hquote) hbody
      case isFalse hquote =>
        split at h
        case h_1 r hsign =>
          cases h
          exact exists_isLexeme_sign hsolid hdigit hname (by simpa using hquote) hsign
        case h_2 => cases h

/-- A token that is not read is at fault at a place between two characters of the text. -/
theorem offset_of_next {offset : Nat} {c : Char} {cs : List Char} {e : ParseError}
    (h : next offset c cs = .error e) :
    ∃ before after, c :: cs = before ++ after ∧ e.offset = offset + Text.byteLength before := by
  unfold next at h
  split at h
  case isTrue =>
    unfold numberToken at h
    dsimp only at h
    split at h
    case h_1 => cases h
    case h_2 =>
      cases h
      exact ⟨[], c :: cs, rfl, rfl⟩
  case isFalse =>
    split at h
    case isTrue => cases h
    case isFalse =>
      split at h
      case isTrue hquote =>
        have hone : c.utf8Size = 1 := by
          rcases (by simpa using hquote : c = '"' ∨ c = '\'') with rfl | rfl <;> rfl
        rcases offset_of_stringBody (map_eq_error.mp h) with he | ⟨before, after, rfl, he⟩
        · exact ⟨[], c :: cs, rfl, he⟩
        · refine ⟨c :: before, after, rfl, ?_⟩
          rw [he, Text.byteLength, hone, Nat.add_assoc]
      case isFalse =>
        split at h
        case h_1 => cases h
        case h_2 =>
          cases h
          exact ⟨[], c :: cs, rfl, rfl⟩

end Reshape.Formula
