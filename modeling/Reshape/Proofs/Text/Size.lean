/-
# Reshape.Proofs.Text.Size -- offsets in bytes and pieces of texts

A text that is taken apart into pieces has a boundary between characters after each of them
(`isValid_byteLength`), and what stands between two such boundaries is the piece between them
(`extract_byteLength`).
-/

import Reshape.Text.Search
import Mathlib.Data.String.Basic

namespace Reshape.Text

theorem byteLength_eq_utf8Len (cs : List Char) : byteLength cs = String.utf8Len cs := by
  induction cs with
  | nil => rfl
  | cons c cs ih => rw [byteLength, String.utf8Len_cons, ih, Nat.add_comm]

theorem byteLength_toList (text : String) : byteLength text.toList = text.utf8ByteSize := by
  rw [byteLength_eq_utf8Len, String.utf8Len_toList]

theorem byteLength_append (cs ds : List Char) :
    byteLength (cs ++ ds) = byteLength cs + byteLength ds := by
  simp only [byteLength_eq_utf8Len, String.utf8Len_append]

/-- An offset behind two pieces. -/
theorem add_byteLength_append (offset : Nat) (cs ds : List Char) :
    offset + byteLength cs + byteLength ds = offset + byteLength (cs ++ ds) := by
  rw [byteLength_append, Nat.add_assoc]

theorem byteLength_cons_pos (c : Char) (cs : List Char) : 0 < byteLength (c :: cs) :=
  Nat.add_pos_left c.utf8Size_pos _

theorem length_le_byteLength (cs : List Char) : cs.length ≤ byteLength cs := by
  induction cs with
  | nil => exact Nat.le_refl 0
  | cons c cs ih =>
    rw [List.length_cons, byteLength]
    have hpos := c.utf8Size_pos
    omega

variable {text : String} {before between after : List Char}

/-- A piece of a text ends between characters. -/
theorem isValid_byteLength (h : text.toList = before ++ after) :
    String.Pos.Raw.IsValid text ⟨byteLength before⟩ := by
  rw [String.Pos.Raw.isValid_iff_exists_append]
  refine ⟨String.ofList before, String.ofList after, ?_, ?_⟩
  · rw [← String.ofList_append, ← h, String.ofList_toList]
  · rw [String.rawEndPos_ofList, byteLength_eq_utf8Len]

/-- What stands between the ends of two pieces. -/
theorem extract_byteLength (h : text.toList = before ++ between ++ after) :
    String.Pos.Raw.extract text ⟨byteLength before⟩ ⟨byteLength before + byteLength between⟩ =
      String.ofList between := by
  rw [← String.ofList_toList (s := text), h, byteLength_eq_utf8Len, byteLength_eq_utf8Len]
  exact String.extract_of_valid before between after

end Reshape.Text
