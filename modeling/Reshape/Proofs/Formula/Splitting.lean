/-
# Reshape.Proofs.Formula.Splitting -- a text is split exactly into its tokens

Reading takes a text apart into lexemes and blanks, piece after piece (`Lexed`). The pieces stay
what they are when the rest of the text is gone: from the offset of one token to the offset of the
next stands a text of its own whose only token is the first of the two. So no token depends on what
follows it, and nothing but blanks stands outside the tokens (`splits_tokens`). A text that has no
tokens is at fault between two of its characters.
-/

import Reshape.Proofs.Formula.Lexemes

namespace Reshape.Formula

open Text (byteLength)

/-! ## Pieces -/

/-- **A text cut into lexemes and blanks**, with the tokens that stand for them. The text begins at
an offset of a longer one. -/
inductive Lexed : Nat → List Char → List Token → Prop
  | nil (offset : Nat) : Lexed offset [] [⟨.eof, offset⟩]
  | blank {offset : Nat} {b : Char} {cs : List Char} {ts : List Token} : isBlank b = true →
      Lexed (offset + byteLength [b]) cs ts → Lexed offset (b :: cs) ts
  | lexeme {offset : Nat} {kind : Kind} {c : Char} {more rest : List Char} {ts : List Token} :
      IsLexeme kind c more → Lexed (offset + byteLength (c :: more)) rest ts →
      Lexed offset (c :: more ++ rest) (⟨kind, offset⟩ :: ts)

theorem byteLength_blank {b : Char} (h : isBlank b = true) : byteLength [b] = 1 := by
  rcases eq_of_isBlank h with rfl | rfl | rfl | rfl | rfl <;> rfl

theorem lexed_of_tokensFrom {bound offset : Nat} {cs : List Char} {ts : List Token}
    (h : tokensFrom bound offset cs = .ok ts) : Lexed offset cs ts := by
  induction bound generalizing offset cs ts with
  | zero =>
    rcases cs with _ | ⟨c, cs⟩
    · cases h
      exact .nil offset
    · cases h
  | succ bound ih =>
    rcases cs with _ | ⟨c, cs⟩
    · cases h
      exact .nil offset
    rw [tokensFrom] at h
    split at h
    case isTrue hblank =>
      refine .blank hblank ?_
      rw [byteLength_blank hblank]
      exact ih h
    case isFalse hsolid =>
      obtain ⟨⟨kind, rest⟩, hnext, h⟩ := bind_eq_ok.mp h
      obtain ⟨ts, hts, h⟩ := bind_eq_ok.mp h
      cases h
      obtain ⟨more, rfl, hlexeme⟩ := exists_isLexeme_of_next (Bool.eq_false_iff.mpr hsolid) hnext
      have hlength :
          byteLength (c :: (more ++ rest)) - byteLength rest = byteLength (c :: more) := by
        rw [← List.cons_append, Text.byteLength_append, Nat.add_sub_cancel]
      rw [hlength] at hts
      exact .lexeme hlexeme (ih hts)

/-- A text that is not read is at fault between two of its characters. -/
theorem offset_of_tokensFrom {bound offset : Nat} {cs : List Char} {e : ParseError}
    (h : tokensFrom bound offset cs = .error e) :
    ∃ before after, cs = before ++ after ∧ e.offset = offset + byteLength before := by
  induction bound generalizing offset cs with
  | zero =>
    rcases cs with _ | ⟨c, cs⟩
    · cases h
    · cases h
      exact ⟨[], c :: cs, rfl, rfl⟩
  | succ bound ih =>
    rcases cs with _ | ⟨c, cs⟩
    · cases h
    rw [tokensFrom] at h
    split at h
    case isTrue hblank =>
      obtain ⟨before, after, rfl, he⟩ := ih h
      rw [← byteLength_blank hblank] at he
      exact ⟨c :: before, after, rfl, he.trans (Text.add_byteLength_append offset [c] before)⟩
    case isFalse hsolid =>
      rcases bind_eq_error.mp h with hnext | ⟨⟨kind, rest⟩, hnext, h⟩
      · exact offset_of_next hnext
      rcases bind_eq_error.mp h with hts | ⟨ts, -, h⟩
      · obtain ⟨more, rfl, -⟩ := exists_isLexeme_of_next (Bool.eq_false_iff.mpr hsolid) hnext
        obtain ⟨before, after, rfl, he⟩ := ih hts
        refine ⟨c :: more ++ before, after, by simp, ?_⟩
        rw [he, ← List.cons_append, Text.byteLength_append (c :: more), Nat.add_sub_cancel,
          Text.add_byteLength_append]
      · cases h

namespace Lexed

variable {offset : Nat} {cs : List Char} {ts : List Token}

/-- Blanks stand before the first token, and nothing else. -/
theorem exists_blanks (h : Lexed offset cs ts) :
    ∃ blanks after t more, Blanks blanks ∧ cs = blanks ++ after ∧ ts = t :: more ∧
      t.offset = offset + byteLength blanks := by
  induction h with
  | nil offset => exact ⟨[], [], ⟨.eof, offset⟩, [], List.forall_mem_nil _, rfl, rfl, rfl⟩
  | @blank offset b cs ts hb hrest ih =>
    obtain ⟨blanks, after, t, more, hblanks, rfl, rfl, ht⟩ := ih
    refine ⟨b :: blanks, after, t, more, List.forall_mem_cons.mpr ⟨hb, hblanks⟩, rfl, rfl, ?_⟩
    exact ht.trans (Text.add_byteLength_append offset [b] blanks)
  | lexeme => exact ⟨[], _, _, _, List.forall_mem_nil _, rfl, rfl, rfl⟩

theorem getLast?_eq (h : Lexed offset cs ts) :
    ts.getLast? = some ⟨.eof, offset + byteLength cs⟩ := by
  induction h with
  | nil offset => rfl
  | @blank offset b cs ts _ _ ih => rw [ih, Text.add_byteLength_append, List.singleton_append]
  | lexeme _ _ ih => rw [List.getLast?_cons, ih, Option.getD_some, Text.add_byteLength_append]

/-- Every token begins between two characters. -/
theorem exists_split (h : Lexed offset cs ts) :
    ∀ t ∈ ts, ∃ before after, cs = before ++ after ∧ t.offset = offset + byteLength before := by
  induction h with
  | nil offset =>
    intro t ht
    obtain rfl := List.mem_singleton.mp ht
    exact ⟨[], [], rfl, rfl⟩
  | @blank offset b cs ts _ _ ih =>
    intro t ht
    obtain ⟨before, after, rfl, ht⟩ := ih t ht
    exact ⟨b :: before, after, rfl, ht.trans (Text.add_byteLength_append offset [b] before)⟩
  | @lexeme offset kind c more rest ts _ _ ih =>
    intro t ht
    rcases List.mem_cons.mp ht with rfl | ht
    · exact ⟨[], c :: more ++ rest, rfl, rfl⟩
    · obtain ⟨before, after, rfl, ht⟩ := ih t ht
      exact ⟨c :: more ++ before, after, (List.append_assoc _ _ _).symm,
        ht.trans (Text.add_byteLength_append offset (c :: more) before)⟩

theorem pairwise_offset (h : Lexed offset cs ts) : ts.Pairwise fun t u => t.offset < u.offset := by
  induction h with
  | nil offset => exact List.pairwise_singleton _ _
  | blank _ _ ih => exact ih
  | @lexeme offset kind c more rest ts _ hrest ih =>
    refine List.pairwise_cons.mpr ⟨fun u hu => ?_, ih⟩
    obtain ⟨before, -, -, hu⟩ := hrest.exists_split u hu
    have hpos := Text.byteLength_cons_pos c more
    show offset < u.offset
    omega

/-- From one token to the next stand a lexeme and blanks. -/
theorem exists_piece (h : Lexed offset cs ts) {t u : Token} (hnext : [t, u] <:+: ts) :
    ∃ before c more blanks after, cs = before ++ (c :: more ++ blanks) ++ after ∧
      IsLexeme t.kind c more ∧ Blanks blanks ∧ t.offset = offset + byteLength before ∧
      u.offset = t.offset + byteLength (c :: more ++ blanks) := by
  induction h with
  | nil offset => exact absurd hnext.length_le (by simp)
  | @blank offset b cs ts _ _ ih =>
    obtain ⟨before, c, more, blanks, after, rfl, hlexeme, hblanks, ht, hu⟩ := ih hnext
    exact ⟨b :: before, c, more, blanks, after, rfl, hlexeme, hblanks,
      ht.trans (Text.add_byteLength_append offset [b] before), hu⟩
  | @lexeme offset kind c more rest ts hlexeme hrest ih =>
    rcases List.infix_cons_iff.mp hnext with hfirst | hlater
    · -- the next token is the first one of the rest, which begins with blanks
      obtain ⟨blanks, after, v, ts, hblanks, rfl, rfl, hv⟩ := hrest.exists_blanks
      obtain ⟨rfl, hsecond⟩ := List.cons_prefix_cons.mp hfirst
      obtain ⟨rfl, -⟩ := List.cons_prefix_cons.mp hsecond
      exact ⟨[], c, more, blanks, after, (List.append_assoc _ _ _).symm, hlexeme, hblanks, rfl,
        hv.trans (Text.add_byteLength_append offset (c :: more) blanks)⟩
    · obtain ⟨before, c', more', blanks, after, rfl, hlexeme, hblanks, ht, hu⟩ := ih hlater
      refine ⟨c :: more ++ before, c', more', blanks, after, ?_, hlexeme, hblanks,
        ht.trans (Text.add_byteLength_append offset (c :: more) before), hu⟩
      rw [← List.append_assoc, ← List.append_assoc]

end Lexed

/-! ## Lexemes alone -/

theorem tokensFrom_blanks {blanks : List Char} (hblanks : Blanks blanks) {bound : Nat}
    (hbound : blanks.length ≤ bound) (offset : Nat) :
    tokensFrom bound offset blanks = .ok [⟨.eof, offset + byteLength blanks⟩] := by
  induction blanks generalizing bound offset with
  | nil =>
    unfold tokensFrom
    rfl
  | cons b blanks ih =>
    obtain ⟨hb, hblanks⟩ := List.forall_mem_cons.mp hblanks
    obtain ⟨bound, rfl⟩ := Nat.exists_eq_add_of_le' (Nat.le_trans (Nat.le_add_left 1 _) hbound)
    rw [tokensFrom, if_pos hb, ih hblanks (Nat.le_of_succ_le_succ hbound), ← byteLength_blank hb,
      Text.add_byteLength_append, List.singleton_append]

/-- **A lexeme and blanks have one token.** -/
theorem IsLexeme.tokens_eq {kind : Kind} {c : Char} {more blanks : List Char}
    (h : IsLexeme kind c more) (hblanks : Blanks blanks) :
    tokens (String.ofList (c :: more ++ blanks)) =
      .ok [⟨kind, 0⟩, ⟨.eof, byteLength (c :: more ++ blanks)⟩] := by
  have hlength : byteLength (c :: more ++ blanks) - byteLength blanks = byteLength (c :: more) := by
    rw [Text.byteLength_append, Nat.add_sub_cancel]
  have hbound : blanks.length ≤ (more ++ blanks).length := by simp
  rw [tokens, String.toList_ofList]
  show tokensFrom ((more ++ blanks).length + 1) 0 (c :: (more ++ blanks)) = _
  rw [tokensFrom, if_neg (by simp [h.solid]), h.next 0 blanks hblanks]
  show (tokensFrom _ (0 + (byteLength (c :: more ++ blanks) - byteLength blanks)) blanks >>= _) = _
  rw [tokensFrom_blanks hblanks hbound, hlength, Nat.zero_add, ← Text.byteLength_append]
  rfl

/-! ## Whole texts -/

/-- The part of a text between two offsets in bytes. -/
def slice (text : String) (first last : Nat) : String :=
  String.Pos.Raw.extract text ⟨first⟩ ⟨last⟩

/-- **A text split into tokens.** -/
structure Splits (text : String) (ts : List Token) : Prop where
  increasing : ts.Pairwise fun t u => t.offset < u.offset
  boundary : ∀ t ∈ ts, String.Pos.Raw.IsValid text ⟨t.offset⟩
  last : ts.getLast? = some ⟨.eof, text.utf8ByteSize⟩
  /-- Only blanks stand before the first token. -/
  blank : ∀ t ∈ ts.head?, Blanks (slice text 0 t.offset).toList
  /-- Each token is the only one of the text from its offset to the offset of the next token. -/
  alone : ∀ t u, [t, u] <:+: ts →
    tokens (slice text t.offset u.offset) = .ok [⟨t.kind, 0⟩, ⟨.eof, u.offset - t.offset⟩]

theorem Lexed.splits {text : String} {ts : List Token} (h : Lexed 0 text.toList ts) :
    Splits text ts where
  increasing := h.pairwise_offset
  boundary t ht := by
    obtain ⟨before, after, htext, ht⟩ := h.exists_split t ht
    rw [ht, Nat.zero_add]
    exact Text.isValid_byteLength htext
  last := by rw [h.getLast?_eq, Nat.zero_add, Text.byteLength_toList]
  blank := by
    intro t ht
    obtain ⟨blanks, after, u, more, hblanks, htext, rfl, hu⟩ := h.exists_blanks
    cases ht
    have hslice : slice text 0 t.offset = String.ofList blanks := by
      rw [hu]
      exact @Text.extract_byteLength text [] blanks after htext
    rwa [hslice, String.toList_ofList]
  alone := by
    intro t u hnext
    obtain ⟨before, c, more, blanks, after, htext, hlexeme, hblanks, ht, hu⟩ := h.exists_piece hnext
    have hslice : slice text t.offset u.offset = String.ofList (c :: more ++ blanks) := by
      rw [hu, ht, Nat.zero_add]
      exact Text.extract_byteLength htext
    rw [hslice, hlexeme.tokens_eq hblanks, hu, Nat.add_sub_cancel_left]

/-- **The tokens of a text split it exactly.** Their offsets go up from boundary to boundary between
characters, the last token is the end of the text, blanks alone stand before the first one, and from
each token to the next stands a text with this token alone. A text without tokens is at fault at a
boundary between characters, not behind the end. -/
theorem splits_tokens (text : String) :
    match tokens text with
    | .ok ts => Splits text ts
    | .error e => String.Pos.Raw.IsValid text ⟨e.offset⟩ ∧ e.offset ≤ text.utf8ByteSize := by
  split
  case h_1 ts h => exact (lexed_of_tokensFrom h).splits
  case h_2 e h =>
    obtain ⟨before, after, htext, he⟩ := offset_of_tokensFrom h
    rw [Nat.zero_add] at he
    have hvalid : String.Pos.Raw.IsValid text ⟨e.offset⟩ := he ▸ Text.isValid_byteLength htext
    exact ⟨hvalid, hvalid.le_rawEndPos⟩

/-- The letter and the sign behind the number are no exponent, so they are tokens of their own. -/
example : tokens " 2e+é" = .error ⟨4, .badCharacter 'é'⟩ ∧ tokens " 2e+b" =
    .ok [⟨.number 2.0, 1⟩, ⟨.ident "e", 2⟩, ⟨.plus, 3⟩, ⟨.ident "b", 4⟩, ⟨.eof, 5⟩] := by
  decide +kernel

end Reshape.Formula
