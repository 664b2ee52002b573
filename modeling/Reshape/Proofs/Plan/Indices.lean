/-
# Reshape.Proofs.Plan.Indices -- positions in the order of their fields

`insert` keeps positions in the order of the fields' names, with no field twice (`Sorted`). Positions
in order are told apart by what they have for each field (`Sorted.ext`), and what is put behind all
others stands at the end (`insert_concat`): so positions are read back from their own list.
-/

import Reshape.Plan.Pins

namespace Reshape.Plan.Indices

/-- **In the order of the fields**, and no field twice. -/
def Sorted (is : Indices) : Prop :=
  is.Pairwise fun a b => a.1 < b.1

variable {is js : Indices} {field f : String} {index n : Nat}

/-- Of two different texts one is smaller. -/
theorem lt_of_ne_of_not_lt {a b : String} (hne : a ≠ b) (h : ¬ a < b) : b < a :=
  Std.lt_of_le_of_ne (String.not_lt.mp h) (Ne.symm hne)

/-! ## What positions have for a field -/

theorem get?_cons (e : String × Nat) (is : Indices) (f : String) :
    get? (e :: is) f = if f = e.1 then some e.2 else get? is f := by
  unfold get?
  rw [List.lookup_cons]
  by_cases hf : f = e.1
  · rw [beq_iff_eq.mpr hf, if_pos hf]
  · rw [beq_eq_false_iff_ne.mpr hf, if_neg hf]

theorem get?_insert (is : Indices) (field f : String) (index : Nat) :
    (is.insert field index).get? f = if f = field then some index else is.get? f := by
  induction is with
  | nil => exact get?_cons (field, index) [] f
  | cons e is ih =>
    obtain ⟨g, i⟩ := e
    rw [insert]
    split
    case isTrue hg =>
      rw [get?_cons, get?_cons, hg]
      by_cases hf : f = field <;> simp [hf]
    case isFalse hg =>
      split
      case isTrue => rw [get?_cons]
      case isFalse =>
        rw [get?_cons, get?_cons, ih]
        by_cases hf : f = g <;> simp [hf, hg]

theorem get?_erase (is : Indices) (field f : String) :
    (is.erase field).get? f = if f = field then none else is.get? f := by
  unfold erase
  induction is with
  | nil =>
    show none = if f = field then none else none
    rw [ite_self]
  | cons e is ih =>
    obtain ⟨g, i⟩ := e
    rw [List.filter_cons, get?_cons]
    by_cases hg : g = field
    · rw [if_neg (by simp [hg]), ih, hg]
      by_cases hf : f = field <;> simp [hf]
    · rw [if_pos (by simp [hg]), get?_cons, ih]
      by_cases hf : f = g <;> simp [hf, hg]

/-! ## Order -/

theorem sorted_nil : Sorted [] :=
  List.Pairwise.nil

theorem mem_insert {e : String × Nat} (h : e ∈ is.insert field index) :
    e = (field, index) ∨ e ∈ is := by
  induction is with
  | nil => exact .inl (List.mem_singleton.mp h)
  | cons d is ih =>
    rw [insert] at h
    split at h
    case isTrue => exact (List.mem_cons.mp h).imp_right (List.mem_cons_of_mem d)
    case isFalse =>
      split at h
      case isTrue => exact List.mem_cons.mp h
      case isFalse =>
        rcases List.mem_cons.mp h with rfl | h
        · exact .inr List.mem_cons_self
        · exact (ih h).imp_right (List.mem_cons_of_mem d)

theorem Sorted.insert (h : Sorted is) (field : String) (index : Nat) :
    Sorted (is.insert field index) := by
  induction is with
  | nil => exact List.pairwise_singleton _ _
  | cons e is ih =>
    obtain ⟨hhead, htail⟩ := List.pairwise_cons.mp h
    rw [Indices.insert]
    split
    case isTrue he =>
      refine List.pairwise_cons.mpr ⟨?_, htail⟩
      rw [← he]
      exact hhead
    case isFalse hne =>
      split
      case isTrue hlt =>
        refine List.pairwise_cons.mpr ⟨List.forall_mem_cons.mpr ⟨hlt, ?_⟩, h⟩
        exact fun d hd => String.lt_trans hlt (hhead d hd)
      case isFalse hnlt =>
        refine List.pairwise_cons.mpr ⟨fun d hd => ?_, ih htail⟩
        rcases mem_insert hd with rfl | hd
        · exact lt_of_ne_of_not_lt (Ne.symm hne) hnlt
        · exact hhead d hd

theorem Sorted.erase (h : Sorted is) (field : String) : Sorted (is.erase field) :=
  List.Pairwise.filter _ h

/-- A field before all others has no position among them. -/
theorem get?_eq_none_of_lt (h : ∀ e ∈ is, f < e.1) : is.get? f = none := by
  rw [get?, List.lookup_eq_none_iff]
  intro e he
  rw [bne_iff_ne]
  intro hf
  exact String.lt_irrefl f (hf ▸ h e he)

theorem get?_cons_self (f : String) (n : Nat) (is : Indices) : get? ((f, n) :: is) f = some n :=
  List.lookup_cons_self

/-- The first field of positions in order is not behind that of others with the same fields. -/
theorem not_lt_of_get?_eq {m : Nat} {g : String} (hjs : ∀ e ∈ js, g < e.1)
    (h : ∀ k, get? ((f, n) :: is) k = get? ((g, m) :: js) k) : ¬ f < g := by
  intro hlt
  have hnone : get? ((g, m) :: js) f = none := by
    refine get?_eq_none_of_lt (List.forall_mem_cons.mpr ⟨hlt, ?_⟩)
    exact fun e he => String.lt_trans hlt (hjs e he)
  rw [← h, get?_cons_self] at hnone
  cases hnone

/-- **Positions in order are equal** when they have the same for every field. -/
theorem Sorted.ext (his : Sorted is) (hjs : Sorted js) (h : ∀ f, is.get? f = js.get? f) :
    is = js := by
  induction is generalizing js with
  | nil =>
    cases js with
    | nil => rfl
    | cons d js =>
      have hd := h d.1
      rw [get?_cons_self] at hd
      cases hd
  | cons e is ih =>
    obtain ⟨f, n⟩ := e
    cases js with
    | nil =>
      have hf := h f
      rw [get?_cons_self] at hf
      cases hf
    | cons d js =>
      obtain ⟨g, m⟩ := d
      obtain ⟨hise, histail⟩ := List.pairwise_cons.mp his
      obtain ⟨hjsd, hjstail⟩ := List.pairwise_cons.mp hjs
      -- neither first field is before the other one
      have hfg : f = g := by
        by_cases hne : f = g
        · exact hne
        · exact absurd (lt_of_ne_of_not_lt hne (not_lt_of_get?_eq hjsd h))
            (not_lt_of_get?_eq hise fun k => (h k).symm)
      subst hfg
      have hnm := h f
      rw [get?_cons_self, get?_cons_self, Option.some.injEq] at hnm
      subst hnm
      have htails : is = js := by
        refine ih histail hjstail fun k => ?_
        by_cases hk : k = f
        · rw [hk, get?_eq_none_of_lt hise, get?_eq_none_of_lt hjsd]
        · have hkeys := h k
          rwa [get?_cons, get?_cons, if_neg hk, if_neg hk] at hkeys
      rw [htails]

/-- A field behind all others comes last. -/
theorem insert_concat (h : ∀ e ∈ is, e.1 < field) (index : Nat) :
    is.insert field index = is ++ [(field, index)] := by
  induction is with
  | nil => rfl
  | cons e is ih =>
    obtain ⟨he, his⟩ := List.forall_mem_cons.mp h
    have hne : e.1 ≠ field := by
      intro heq
      exact String.lt_irrefl field (heq ▸ he)
    rw [insert, if_neg hne, if_neg (String.lt_asymm he), ih his]
    rfl

end Reshape.Plan.Indices
