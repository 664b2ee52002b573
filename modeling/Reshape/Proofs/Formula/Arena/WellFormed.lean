/-
# Reshape.Proofs.Formula.Arena.WellFormed -- layouts are well-formed arenas

`Sound` is the invariant of an arena that is still growing. Every place is referred to exactly once:
by a node, or by the list of places that are still to be used. Adding a node over places from that
list keeps the invariant and puts the new place there (`Sound.push`), so laying out a tree adds one
place (`Sound.lay`). When the root is all that is left to be used, the arena is a tree
(`wellFormed_layout`).
-/

import Reshape.Proofs.Formula.Arena.Layout

namespace Reshape.Formula.Arena

open Term (layAll)

/-- The places that nodes refer to; each as often as it is referred to. -/
def references (a : Arena) : List NodeId :=
  a.nodes.flatMap Node.children

/-- **A well-formed arena** is a tree. The root is the last node, nodes refer to earlier nodes only,
and of every node but the root there is exactly one reference. The recorded heights are the heights,
and none is beyond the limit. -/
structure WellFormed (a : Arena) : Prop where
  root : ∃ id, a.root = some id ∧ id.toNat + 1 = a.nodes.length
  earlier : ∀ {k : Nat} {node : Node}, a.nodes[k]? = some node → ∀ c ∈ node.children, c.toNat < k
  once : ∀ id : NodeId, id.toNat + 1 < a.nodes.length → a.references.count id = 1
  aligned : a.heights.length = a.nodes.length
  heights : ∀ {k : Nat} {node : Node}, a.nodes[k]? = some node →
    a.heights[k]? = some (1 + (node.children.map a.height).foldl max 0)
  heights_le : ∀ n ∈ a.heights, n ≤ maxDepth

/-! ## The invariant -/

/-- **A growing arena**, where the pending places are still to be used. -/
structure Sound (a : Arena) (pending : List NodeId) : Prop where
  aligned : a.Aligned
  earlier : ∀ {k : Nat} {node : Node}, a.nodes[k]? = some node → ∀ c ∈ node.children, c.toNat < k
  heights : ∀ {k : Nat} {node : Node}, a.nodes[k]? = some node →
    a.heights[k]? = some (a.heightOver node)
  referred : ((a.references ++ pending).map UInt32.toNat).Perm (List.range a.nodes.length)

theorem sound_empty : Sound {} [] where
  aligned := rfl
  earlier h := by cases h
  heights h := by cases h
  referred := List.Perm.refl _

/-- Pending places are places of nodes. -/
theorem Sound.lt_of_mem {a : Arena} {pending : List NodeId} (h : a.Sound pending) {id : NodeId}
    (hid : id ∈ pending) : id.toNat < a.nodes.length := by
  have hmem : id.toNat ∈ (a.references ++ pending).map UInt32.toNat :=
    List.mem_map_of_mem (List.mem_append_right _ hid)
  exact List.mem_range.mp (h.referred.mem_iff.mp hmem)

/-- A node over earlier nodes has the same height in every arena that goes on. -/
theorem heightOver_eq {a b : Arena} (ha : a.Aligned) (h : a.Extends b) {node : Node}
    (hnode : ∀ c ∈ node.children, c.toNat < a.nodes.length) :
    b.heightOver node = a.heightOver node := by
  rw [heightOver, heightOver]
  congr 2
  exact List.map_congr_left fun c hc => h.height (ha ▸ hnode c hc)

/-- A node of the arena after a push is an older one, or the one that was added. -/
theorem nodes_push_cases {a : Arena} {node other : Node} {k : Nat}
    (h : (a.push node).2.nodes[k]? = some other) :
    a.nodes[k]? = some other ∨ k = a.nodes.length ∧ other = node := by
  change (a.nodes ++ [node])[k]? = some other at h
  rcases Nat.lt_trichotomy k a.nodes.length with hlt | rfl | hgt
  · rw [List.getElem?_append_left hlt] at h
    exact .inl h
  · rw [List.getElem?_concat_length] at h
    exact .inr ⟨rfl, (Option.some.inj h).symm⟩
  · have hbeyond : (a.nodes ++ [node]).length ≤ k := by
      rw [List.length_append, List.length_singleton]
      omega
    rw [List.getElem?_eq_none hbeyond] at h
    cases h

theorem references_push (a : Arena) (node : Node) :
    (a.push node).2.references = a.references ++ node.children := by
  rw [references, references, push, List.flatMap_append, List.flatMap_singleton]

/-- **Adding a node** over pending places makes its own place pending. -/
theorem Sound.push {a : Arena} {pending : List NodeId} {node : Node}
    (h : a.Sound (pending ++ node.children)) (hroom : a.nodes.length < 2 ^ 32) :
    (a.push node).2.Sound (pending ++ [(a.push node).1]) := by
  have hextends := extends_push a node
  have hchildren : ∀ c ∈ node.children, c.toNat < a.nodes.length :=
    fun c hc => h.lt_of_mem (List.mem_append_right pending hc)
  refine ⟨hextends.aligned h.aligned, ?_, ?_, ?_⟩
  · intro k other hk
    rcases nodes_push_cases hk with hk | ⟨rfl, rfl⟩
    · exact h.earlier hk
    · exact hchildren
  · intro k other hk
    rcases nodes_push_cases hk with hk | ⟨rfl, rfl⟩
    · have hlt : k < a.nodes.length := (List.getElem?_eq_some_iff.mp hk).1
      have hother : ∀ c ∈ other.children, c.toNat < a.nodes.length :=
        fun c hc => Nat.lt_trans (h.earlier hk c hc) hlt
      rw [heightOver_eq h.aligned hextends hother, ← h.heights hk, Arena.push]
      exact List.getElem?_append_left (h.aligned.symm ▸ hlt)
    · rw [heightOver_eq h.aligned hextends hchildren, Arena.push]
      dsimp only
      rw [← h.aligned, List.getElem?_concat_length]
  · have hid : (a.push node).1.toNat = a.nodes.length := UInt32.toNat_ofNat_of_lt' hroom
    -- the parts of the node were pending, and are referred to by the node now
    have hmoved : (a.references ++ node.children ++ pending).Perm
        (a.references ++ (pending ++ node.children)) := by
      rw [List.append_assoc]
      exact List.perm_append_comm.append_left a.references
    rw [references_push, ← List.append_assoc, List.map_append, List.map_singleton, hid,
      show (a.push node).2.nodes.length = a.nodes.length + 1 from List.length_append,
      List.range_succ]
    exact ((hmoved.map _).trans h.referred).append_right [a.nodes.length]

theorem Sound.layAll {ts : List Term}
    (hts : ∀ t ∈ ts, ∀ (a : Arena) (pending : List NodeId), a.Sound pending →
      a.nodes.length + t.size ≤ 2 ^ 32 → (t.lay a).2.Sound (pending ++ [(t.lay a).1]))
    {a : Arena} {pending : List NodeId} (h : a.Sound pending)
    (hroom : a.nodes.length + Term.sizes ts ≤ 2 ^ 32) :
    (layAll ts a).2.Sound (pending ++ (layAll ts a).1) := by
  induction ts generalizing a pending with
  | nil => exact (List.append_nil pending).symm ▸ h
  | cons t ts ih =>
    rw [Term.sizes, ← Nat.add_assoc] at hroom
    have hfirst := hts t List.mem_cons_self a pending h (Nat.le_of_add_right_le hroom)
    have hrest := ih (fun u hu => hts u (List.mem_cons_of_mem t hu)) hfirst
      (length_lay t a ▸ hroom)
    rw [List.append_assoc] at hrest
    exact hrest

/-- **Laying out a tree** makes the place of its root pending. -/
theorem Sound.lay {t : Term} {a : Arena} {pending : List NodeId} (h : a.Sound pending)
    (hroom : a.nodes.length + t.size ≤ 2 ^ 32) :
    (t.lay a).2.Sound (pending ++ [(t.lay a).1]) := by
  induction t using Term.of_children generalizing a pending with
  | h t ih =>
    rw [t.size_eq] at hroom
    have hlength := length_layAll t.children a
    have hparts : (Term.layAll t.children a).2.Sound
        (pending ++ (t.node (Term.layAll t.children a).1).children) := by
      rw [t.children_node_layAll]
      exact Sound.layAll (fun u hu _ _ hb hroom => ih u hu hb hroom) h (Nat.le_of_succ_le hroom)
    rw [t.lay_eq]
    exact hparts.push (by rw [hlength]; omega)

/-! ## Whole trees -/

/-- **The layout of a tree is a well-formed arena.** -/
theorem wellFormed_layout {t : Term} (hsize : t.size ≤ 2 ^ 32) (hheight : t.height ≤ maxDepth) :
    t.layout.WellFormed := by
  have hroom : ({} : Arena).nodes.length + t.size ≤ 2 ^ 32 := by
    rw [show ({} : Arena).nodes.length = 0 from rfl, Nat.zero_add]
    exact hsize
  have hsound : (t.lay {}).2.Sound [(t.lay {}).1] := sound_empty.lay hroom
  have hlast : (t.lay {}).1.toNat + 1 = (t.lay {}).2.nodes.length := by
    rw [toNat_lay hroom, length_lay]
  refine ⟨⟨_, rfl, hlast⟩, hsound.earlier, fun id hid => ?_, hsound.aligned, hsound.heights, ?_⟩
  · have hne : (t.lay {}).1 ≠ id := by
      rintro rfl
      exact absurd hlast (Nat.ne_of_lt hid)
    have hmem : id.toNat ∈ List.range (t.lay {}).2.nodes.length :=
      List.mem_range.mpr (Nat.lt_of_succ_lt hid)
    have hcount := hsound.referred.count_eq id.toNat
    rw [List.count_map_of_injective _ _ (fun _ _ => UInt32.toNat_inj.mp), List.count_append,
      List.count_singleton, List.nodup_range.count, if_pos hmem,
      if_neg (by simpa using hne)] at hcount
    exact hcount
  · intro n hn
    rcases heights_lay sound_empty.aligned hroom hn with hn | hn
    · exact absurd hn List.not_mem_nil
    · exact Nat.le_trans hn hheight

end Reshape.Formula.Arena
