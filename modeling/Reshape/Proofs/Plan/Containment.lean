/-
# Reshape.Proofs.Plan.Containment -- fields below fields

A path lies below another when it is the other path with a point or a bracket and anything behind it
(`isBelow_iff`). So it is the longer one of the two, and containment is a strict order of paths.

The order is what the leaves of a template hang on. Of the fields below a field, one with the
longest path is a leaf: what lay below it would lie below the field, too, with a longer path
(`exists_leaf_below`). Hence each branch of a template ends in a leaf, and only a template without
fields has none (`isBelow_strict_and_leaves_below`).
-/

import Mathlib.Data.List.MinMax
import Reshape.Plan.Template
import Reshape.Proofs.Text.Search

namespace Reshape.Plan

variable {a b c : String} {t : Template} {f g : OutputField}

/-! ## The order of paths -/

/-- **A path below another** goes on, where the other ends, with a point or a bracket. -/
theorem isBelow_iff :
    isBelow a b = true ↔
      ∃ sep rest, (sep = '.' ∨ sep = '[') ∧ b.toList = a.toList ++ sep :: rest := by
  rw [isBelow]
  constructor
  · intro h
    split at h
    case h_1 sep rest heq =>
      exact ⟨sep, rest, by simpa using h, Text.dropStart?_eq_some_iff.mp heq⟩
    case h_2 => cases h
  · rintro ⟨sep, rest, hsep, heq⟩
    rw [heq, Text.dropStart?_append]
    simpa using hsep

/-- A path below another is the longer one. -/
theorem length_lt_of_isBelow (h : isBelow a b = true) : a.length < b.length := by
  obtain ⟨sep, rest, -, heq⟩ := isBelow_iff.mp h
  rw [← String.length_toList, ← String.length_toList, heq, List.length_append, List.length_cons]
  omega

theorem isBelow_irrefl (a : String) : isBelow a a = false :=
  eq_false_of_ne_true fun h => Nat.lt_irrefl _ (length_lt_of_isBelow h)

theorem isBelow_trans (hab : isBelow a b = true) (hbc : isBelow b c = true) :
    isBelow a c = true := by
  obtain ⟨sep, rest, hsep, hb⟩ := isBelow_iff.mp hab
  obtain ⟨sep', rest', -, hc⟩ := isBelow_iff.mp hbc
  refine isBelow_iff.mpr ⟨sep, rest ++ sep' :: rest', hsep, ?_⟩
  rw [hc, hb, List.append_assoc, List.cons_append]

/-! ## Leaves -/

namespace Template

theorem mem_descendants_iff : g ∈ t.descendants f.path ↔ g ∈ t.fields ∧ f.contains g = true :=
  List.mem_filter

theorem mem_leaves_iff : f ∈ t.leaves ↔ f ∈ t.fields ∧ t.isLeaf f = true :=
  List.mem_filter

/-- Nothing that is declared lies below a leaf. -/
theorem isLeaf_iff : t.isLeaf f = true ↔ ∀ g ∈ t.fields, f.contains g = false := by
  rw [isLeaf, List.isEmpty_iff, List.eq_nil_iff_forall_not_mem]
  simp [mem_descendants_iff]

/-- **A field that is no leaf** has a leaf below it. -/
theorem exists_leaf_below (h : t.isLeaf f = false) :
    ∃ g ∈ t.descendants f.path, t.isLeaf g = true := by
  have hsome : t.descendants f.path ≠ [] := by
    intro hnone
    rw [isLeaf, hnone] at h
    cases h
  -- the longest path below the field
  obtain ⟨g, hg⟩ := Option.ne_none_iff_exists'.mp
    (mt (List.argmax_eq_none (f := fun x : OutputField => x.path.length)).mp hsome)
  have hmem : g ∈ t.descendants f.path := List.argmax_mem hg
  refine ⟨g, hmem, isLeaf_iff.mpr fun x hx => eq_false_of_ne_true fun hbelow => ?_⟩
  have hdeeper : x ∈ t.descendants f.path :=
    mem_descendants_iff.mpr ⟨hx, isBelow_trans (mem_descendants_iff.mp hmem).2 hbelow⟩
  exact Nat.not_lt.mpr (List.le_of_mem_argmax hdeeper hg) (length_lt_of_isBelow hbelow)

/-- Only a template without fields has no leaves. -/
theorem leaves_eq_nil_iff : t.leaves = [] ↔ t.fields = [] := by
  constructor
  · intro h
    rw [List.eq_nil_iff_forall_not_mem]
    intro f hf
    have hleaf : t.isLeaf f = false :=
      eq_false_of_ne_true fun hleaf =>
        List.eq_nil_iff_forall_not_mem.mp h f (mem_leaves_iff.mpr ⟨hf, hleaf⟩)
    obtain ⟨g, hg, hgleaf⟩ := exists_leaf_below hleaf
    exact List.eq_nil_iff_forall_not_mem.mp h g
      (mem_leaves_iff.mpr ⟨(mem_descendants_iff.mp hg).1, hgleaf⟩)
  · intro h
    rw [leaves, h, List.filter_nil]

/-- **Containment is a strict order, with leaves at the bottom.** A field of a template is a leaf or
has one among the fields below it, nothing lies below a leaf, and there are leaves wherever there
are fields. -/
theorem isBelow_strict_and_leaves_below (t : Template) :
    (∀ a b, isBelow a b = true ↔
      ∃ sep rest, (sep = '.' ∨ sep = '[') ∧ b.toList = a.toList ++ sep :: rest) ∧
    (∀ a, isBelow a a = false) ∧
    (∀ a b c, isBelow a b = true → isBelow b c = true → isBelow a c = true) ∧
    (∀ f ∈ t.fields, t.isLeaf f = true ∨ ∃ g ∈ t.descendants f.path, t.isLeaf g = true) ∧
    (∀ f ∈ t.leaves, ∀ g ∈ t.fields, f.contains g = false) ∧
    (t.leaves = [] ↔ t.fields = []) ∧
    (∀ f ∈ t.fields, t.isLeaf f = false → ∃ g ∈ t.leaves, f.contains g = true) := by
  refine ⟨fun a b => isBelow_iff, isBelow_irrefl, fun a b c => isBelow_trans, ?_, ?_,
    leaves_eq_nil_iff, ?_⟩
  · intro f _
    cases hleaf : t.isLeaf f with
    | true => exact .inl rfl
    | false => exact .inr (exists_leaf_below hleaf)
  · intro f hf
    exact isLeaf_iff.mp (mem_leaves_iff.mp hf).2
  · intro f _ hleaf
    obtain ⟨g, hg, hgleaf⟩ := exists_leaf_below hleaf
    obtain ⟨hmem, hbelow⟩ := mem_descendants_iff.mp hg
    exact ⟨g, mem_leaves_iff.mpr ⟨hmem, hgleaf⟩, hbelow⟩

end Template

end Reshape.Plan
