/-
# Reshape.Proofs.Formula.Arena.Layout -- trees laid out in an arena

A tree is laid out by adding its nodes to an arena, parts before wholes and left before right. What
a node refers to, what its height comes from and how much room it takes depend on its parts only, so
the tree is taken as a node over a list of parts (`lay_eq`), and every fact about layouts is proved
once for a node and its parts. As long as 32 bits hold the places, the place of a layout is that of
its last node (`toNat_lay`) and the height recorded there is the height of the tree (`height_lay`).
-/

import Mathlib
import Reshape.Formula.Arena.Basic

namespace Reshape.Formula

/-! ## Trees as nodes over parts -/

namespace Term

/-- The parts of a tree, in order. -/
def children : Term → List Term
  | .array items => items
  | .unary _ t => [t]
  | .binary _ l r => [l, r]
  | .logical _ l r => [l, r]
  | .conditional c y n => [c, y, n]
  | .member t _ => [t]
  | .index t k => [t, k]
  | .method t _ args => t :: args
  | .math _ args => args
  | .call _ args => args
  | _ => []

theorem children_node {t : Term} {ids : List NodeId} (h : ids.length = t.children.length) :
    (t.node ids).children = ids := by
  cases t with
  | array items => rfl
  | math f args => rfl
  | call f args => rfl
  | unary op t => obtain ⟨i, rfl⟩ := List.length_eq_one_iff.mp h; rfl
  | member t name => obtain ⟨i, rfl⟩ := List.length_eq_one_iff.mp h; rfl
  | binary op l r => obtain ⟨i, j, rfl⟩ := List.length_eq_two.mp h; rfl
  | logical op l r => obtain ⟨i, j, rfl⟩ := List.length_eq_two.mp h; rfl
  | index t k => obtain ⟨i, j, rfl⟩ := List.length_eq_two.mp h; rfl
  | conditional c y n => obtain ⟨i, j, k, rfl⟩ := List.length_eq_three.mp h; rfl
  | method t m args =>
    cases ids with
    | nil => cases h
    | cons i ids => rfl
  | _ => exact (List.length_eq_zero_iff.mp h).symm

theorem size_eq (t : Term) : t.size = sizes t.children + 1 := by
  cases t <;> simp [size, sizes, children, Nat.add_assoc]

theorem height_eq (t : Term) : t.height = heights t.children + 1 := by
  cases t <;> simp [height, heights, children]

theorem size_le_sizes {t : Term} {ts : List Term} (h : t ∈ ts) : t.size ≤ sizes ts := by
  induction ts with
  | nil => exact absurd h List.not_mem_nil
  | cons u us ih =>
    rw [sizes]
    rcases List.mem_cons.mp h with rfl | h
    · exact Nat.le_add_right _ _
    · exact Nat.le_trans (ih h) (Nat.le_add_left _ _)

/-- What holds of a tree whenever it holds of its parts holds of every tree. -/
theorem of_children {P : Term → Prop} (h : ∀ t, (∀ c ∈ t.children, P c) → P t) (t : Term) :
    P t := by
  -- the parts of an array or of a call are in a list, so the induction is on the size
  induction hn : t.size using Nat.strongRecOn generalizing t with
  | ind n ih =>
    refine h t fun c hc => ih c.size ?_ c rfl
    have hle := size_le_sizes hc
    rw [size_eq] at hn
    omega

/-! ## Layouts -/

mutual

/-- **Lay a tree out** behind the nodes of an arena; the place is that of its root. -/
def lay : Term → Arena → NodeId × Arena
  | .number x, a => a.push (.number x)
  | .str s, a => a.push (.str s)
  | .bool b, a => a.push (.bool b)
  | .null, a => a.push .null
  | .undefined, a => a.push .undefined
  | .input, a => a.push .input
  | .array items, a =>
    let (ids, a) := layAll items a
    a.push (.array ids)
  | .unary op t, a =>
    let (t, a) := lay t a
    a.push (.unary op t)
  | .binary op l r, a =>
    let (l, a) := lay l a
    let (r, a) := lay r a
    a.push (.binary op l r)
  | .logical op l r, a =>
    let (l, a) := lay l a
    let (r, a) := lay r a
    a.push (.logical op l r)
  | .conditional c y n, a =>
    let (c, a) := lay c a
    let (y, a) := lay y a
    let (n, a) := lay n a
    a.push (.conditional c y n)
  | .member t name, a =>
    let (t, a) := lay t a
    a.push (.member t name)
  | .index t k, a =>
    let (t, a) := lay t a
    let (k, a) := lay k a
    a.push (.index t k)
  | .method t m args, a =>
    let (t, a) := lay t a
    let (ids, a) := layAll args a
    a.push (.method t m ids)
  | .math f args, a =>
    let (ids, a) := layAll args a
    a.push (.math f ids)
  | .call f args, a =>
    let (ids, a) := layAll args a
    a.push (.call f ids)

/-- Lay trees out one behind the other. -/
def layAll : List Term → Arena → List NodeId × Arena
  | [], a => ([], a)
  | t :: ts, a =>
    let (id, a) := lay t a
    let (ids, a) := layAll ts a
    (id :: ids, a)

end

/-- **A layout is a node over the layouts of the parts.** -/
theorem lay_eq (t : Term) (a : Arena) :
    t.lay a = (layAll t.children a).2.push (t.node (layAll t.children a).1) := by
  cases t <;> rfl

/-- An arena that holds nothing but a tree. -/
def layout (t : Term) : Arena :=
  { (t.lay {}).2 with root := some (t.lay {}).1 }

theorem length_layAll (ts : List Term) (a : Arena) : (layAll ts a).1.length = ts.length := by
  induction ts generalizing a with
  | nil => rfl
  | cons t ts ih => exact congrArg (· + 1) (ih (t.lay a).2)

theorem children_node_layAll (t : Term) (a : Arena) :
    (t.node (layAll t.children a).1).children = (layAll t.children a).1 :=
  children_node (length_layAll t.children a)

end Term

/-! ## How an arena grows -/

namespace Arena

open Term (layAll)

/-- Each node has its height. -/
def Aligned (a : Arena) : Prop :=
  a.heights.length = a.nodes.length

/-- An arena goes on from another: its nodes and heights begin with the other's. -/
structure Extends (a b : Arena) : Prop where
  nodes : a.nodes <+: b.nodes
  heights : a.heights <+: b.heights
  aligned : a.Aligned → b.Aligned

theorem Extends.refl (a : Arena) : a.Extends a :=
  ⟨List.prefix_rfl, List.prefix_rfl, id⟩

theorem Extends.trans {a b c : Arena} (h : a.Extends b) (h' : b.Extends c) : a.Extends c :=
  ⟨h.nodes.trans h'.nodes, h.heights.trans h'.heights, h'.aligned ∘ h.aligned⟩

theorem extends_push (a : Arena) (node : Node) : a.Extends (a.push node).2 := by
  refine ⟨List.prefix_append _ _, List.prefix_append _ _, fun h => ?_⟩
  rw [Aligned, push, List.length_append, List.length_append, h]
  rfl

/-- A height that was recorded stays. -/
theorem Extends.height {a b : Arena} (h : a.Extends b) {id : NodeId}
    (hid : id.toNat < a.heights.length) : b.height id = a.height id := by
  obtain ⟨more, hmore⟩ := h.heights
  rw [Arena.height, Arena.height, ← hmore, List.getElem?_append_left hid]

theorem extends_layAll_of {ts : List Term} (h : ∀ t ∈ ts, ∀ a : Arena, a.Extends (t.lay a).2)
    (a : Arena) : a.Extends (layAll ts a).2 := by
  induction ts generalizing a with
  | nil => exact Extends.refl a
  | cons t ts ih =>
    exact (h t List.mem_cons_self a).trans
      (ih (fun u hu => h u (List.mem_cons_of_mem t hu)) (t.lay a).2)

theorem extends_lay (t : Term) (a : Arena) : a.Extends (t.lay a).2 := by
  induction t using Term.of_children generalizing a with
  | h t ih =>
    rw [t.lay_eq]
    exact (extends_layAll_of ih a).trans (extends_push _ _)

/-- Trees are laid out behind what was there. -/
theorem extends_layAll (ts : List Term) (a : Arena) : a.Extends (layAll ts a).2 :=
  extends_layAll_of (fun t _ => extends_lay t) a

theorem length_layAll_of {ts : List Term}
    (h : ∀ t ∈ ts, ∀ a : Arena, (t.lay a).2.nodes.length = a.nodes.length + t.size) (a : Arena) :
    (layAll ts a).2.nodes.length = a.nodes.length + Term.sizes ts := by
  induction ts generalizing a with
  | nil => rfl
  | cons t ts ih =>
    have hrest := ih (fun u hu => h u (List.mem_cons_of_mem t hu)) (t.lay a).2
    rw [h t List.mem_cons_self a] at hrest
    rw [Term.sizes, ← Nat.add_assoc]
    exact hrest

/-- A layout takes as much room as the tree has nodes. -/
theorem length_lay (t : Term) (a : Arena) :
    (t.lay a).2.nodes.length = a.nodes.length + t.size := by
  induction t using Term.of_children generalizing a with
  | h t ih =>
    rw [t.lay_eq, t.size_eq, push, List.length_append, length_layAll_of ih a]
    rfl

theorem length_layAll (ts : List Term) (a : Arena) :
    (layAll ts a).2.nodes.length = a.nodes.length + Term.sizes ts :=
  length_layAll_of (fun t _ => length_lay t) a

/-- The place of a layout, as long as there is room: that of its last node. -/
theorem toNat_lay {t : Term} {a : Arena} (h : a.nodes.length + t.size ≤ 2 ^ 32) :
    (t.lay a).1.toNat + 1 = a.nodes.length + t.size := by
  have hlength := length_lay t a
  rw [t.lay_eq, push, List.length_append, List.length_singleton] at hlength
  rw [t.lay_eq, push]
  dsimp only
  rw [UInt32.toNat_ofNat_of_lt' (by show _ < 2 ^ 32; omega)]
  exact hlength

/-! ## Heights -/

theorem height_push {a : Arena} (h : a.Aligned) (hroom : a.nodes.length < 2 ^ 32) (node : Node) :
    (a.push node).2.height (a.push node).1 = a.heightOver node := by
  rw [height, push]
  dsimp only
  rw [UInt32.toNat_ofNat_of_lt' hroom, ← h, List.getElem?_concat_length, Option.getD_some]

theorem foldl_max_heights (ts : List Term) (n : Nat) :
    (ts.map Term.height).foldl max n = max n (Term.heights ts) := by
  induction ts generalizing n with
  | nil => exact (Nat.max_zero n).symm
  | cons t ts ih => rw [List.map_cons, List.foldl_cons, ih, Term.heights, Nat.max_assoc]

theorem map_height_layAll {ts : List Term}
    (h : ∀ t ∈ ts, ∀ a : Arena, a.Aligned → a.nodes.length + t.size ≤ 2 ^ 32 →
      (t.lay a).2.height (t.lay a).1 = t.height)
    {a : Arena} (ha : a.Aligned) (hroom : a.nodes.length + Term.sizes ts ≤ 2 ^ 32) :
    (layAll ts a).1.map (layAll ts a).2.height = ts.map Term.height := by
  induction ts generalizing a with
  | nil => rfl
  | cons t ts ih =>
    have hlength := length_lay t a
    have hextends := extends_lay t a
    rw [Term.sizes, ← Nat.add_assoc] at hroom
    have hfirst := h t List.mem_cons_self a ha (Nat.le_of_add_right_le hroom)
    have hrest := ih (fun u hu => h u (List.mem_cons_of_mem t hu)) (hextends.aligned ha)
      (hlength ▸ hroom)
    -- the parts that come later do not change the height of the first
    have hid : (t.lay a).1.toNat < (t.lay a).2.heights.length := by
      have hplace := toNat_lay (Nat.le_of_add_right_le hroom)
      rw [hextends.aligned ha, hlength]
      omega
    have hlater := (extends_layAll ts (t.lay a).2).height hid
    exact congrArg₂ List.cons (hlater.trans hfirst) hrest

theorem heightOver_of_map {t : Term} {a : Arena}
    (h : (layAll t.children a).1.map (layAll t.children a).2.height = t.children.map Term.height) :
    (layAll t.children a).2.heightOver (t.node (layAll t.children a).1) = t.height := by
  rw [heightOver, t.children_node_layAll, h, foldl_max_heights, Nat.zero_max, t.height_eq,
    Nat.add_comm]

/-- **The height that is recorded for a layout** is the height of the tree. -/
theorem height_lay {t : Term} {a : Arena} (ha : a.Aligned)
    (hroom : a.nodes.length + t.size ≤ 2 ^ 32) : (t.lay a).2.height (t.lay a).1 = t.height := by
  induction t using Term.of_children generalizing a with
  | h t ih =>
    rw [t.size_eq] at hroom
    have hextends := extends_layAll t.children a
    have hlength := length_layAll t.children a
    have hmap := map_height_layAll (fun u hu _ => ih u hu) ha (Nat.le_of_succ_le hroom)
    rw [t.lay_eq, height_push (hextends.aligned ha) (by rw [hlength]; omega)]
    exact heightOver_of_map hmap

/-- The height that a node has over the layouts of its parts. -/
theorem heightOver_node {t : Term} {a : Arena} (ha : a.Aligned)
    (hroom : a.nodes.length + t.size ≤ 2 ^ 32) :
    (layAll t.children a).2.heightOver (t.node (layAll t.children a).1) = t.height := by
  rw [t.size_eq] at hroom
  exact heightOver_of_map (map_height_layAll (fun _ _ _ => height_lay) ha (Nat.le_of_succ_le hroom))

/-- No node of a layout is higher than its root. -/
theorem heights_layAll {ts : List Term}
    (h : ∀ t ∈ ts, ∀ a : Arena, a.Aligned → a.nodes.length + t.size ≤ 2 ^ 32 →
      ∀ n ∈ (t.lay a).2.heights, n ∈ a.heights ∨ n ≤ t.height)
    {a : Arena} (ha : a.Aligned) (hroom : a.nodes.length + Term.sizes ts ≤ 2 ^ 32) {n : Nat}
    (hn : n ∈ (layAll ts a).2.heights) : n ∈ a.heights ∨ n ≤ Term.heights ts := by
  induction ts generalizing a with
  | nil => exact .inl hn
  | cons t ts ih =>
    rw [Term.sizes, ← Nat.add_assoc] at hroom
    have hlength := length_lay t a
    have hfirst := h t List.mem_cons_self a ha (Nat.le_of_add_right_le hroom) n
    rw [Term.heights]
    rcases ih (fun u hu => h u (List.mem_cons_of_mem t hu)) ((extends_lay t a).aligned ha)
      (hlength ▸ hroom) hn with hn | hn
    · exact (hfirst hn).imp_right fun hle => Nat.le_trans hle (Nat.le_max_left _ _)
    · exact .inr (Nat.le_trans hn (Nat.le_max_right _ _))

theorem heights_lay {t : Term} {a : Arena} (ha : a.Aligned)
    (hroom : a.nodes.length + t.size ≤ 2 ^ 32) {n : Nat} (hn : n ∈ (t.lay a).2.heights) :
    n ∈ a.heights ∨ n ≤ t.height := by
  induction t using Term.of_children generalizing a n with
  | h t ih =>
    rw [t.lay_eq, push, List.mem_append, List.mem_singleton, heightOver_node ha hroom] at hn
    rw [t.size_eq] at hroom
    rcases hn with hn | hn
    · have hparts := heights_layAll (fun u hu _ hb hroom _ => ih u hu hb hroom) ha
        (Nat.le_of_succ_le hroom) hn
      rw [t.height_eq]
      exact hparts.imp_right Nat.le_succ_of_le
    · exact .inr (Nat.le_of_eq hn)

end Arena

end Reshape.Formula
