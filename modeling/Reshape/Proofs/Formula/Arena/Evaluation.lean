/-
# Reshape.Proofs.Formula.Arena.Evaluation -- evaluating a layout

Evaluation by places, started at the root of a layout, gives what evaluation of the tree gives
(`evaluates`). It visits nodes of the layout only and none of them twice, because the layouts of
different parts do not overlap: `Within lo hi` keeps the places that a walk visits between two
bounds, and walks one after the other stay between bounds one behind the other (`Within.bind`).
-/

import Reshape.Formula.Arena.Eval
import Reshape.Proofs.Formula.Arena.Layout

namespace Reshape.Formula

/-! ## Walks within bounds -/

namespace Walk

variable {α β : Type} {lo mid hi : Nat}

/-- **A walk within bounds** that comes to `r`: the places that it visits are within the bounds, and
none is visited twice. -/
structure Within (lo hi : Nat) (r : Except EvalError α) (w : Walk α) : Prop where
  nodup : w.visited.Nodup
  bounds : ∀ id ∈ w.visited, lo ≤ id.toNat ∧ id.toNat < hi
  outcome : w.outcome = r.mapError .fault

theorem within_lift (r : Except EvalError α) : Within lo hi r (lift r) :=
  ⟨List.nodup_nil, fun _ h => absurd h List.not_mem_nil, rfl⟩

theorem within_pure (v : α) : Within lo hi (pure v) (pure v : Walk α) :=
  ⟨List.nodup_nil, fun _ h => absurd h List.not_mem_nil, rfl⟩

theorem Within.mono {lo' hi' : Nat} {r : Except EvalError α} {w : Walk α} (h : Within lo hi r w)
    (hlo : lo' ≤ lo) (hhi : hi ≤ hi') : Within lo' hi' r w := by
  refine ⟨h.nodup, fun id hid => ?_, h.outcome⟩
  obtain ⟨hl, hh⟩ := h.bounds id hid
  exact ⟨Nat.le_trans hlo hl, Nat.lt_of_lt_of_le hh hhi⟩

/-- **Walks one after the other** within bounds one behind the other. -/
theorem Within.bind {r : Except EvalError α} {s : α → Except EvalError β} {w : Walk α}
    {f : α → Walk β} (h : Within lo mid r w) (hlo : lo ≤ mid) (hhi : mid ≤ hi)
    (hf : ∀ v, Within mid hi (s v) (f v)) : Within lo hi (r >>= s) (w >>= f) := by
  have houtcome := h.outcome
  cases r with
  | error e =>
    have hw : (w >>= f) = ⟨w.visited, .error (.fault e)⟩ := by
      change w.andThen f = _
      rw [andThen, houtcome]
      rfl
    rw [hw]
    refine ⟨h.nodup, fun id hid => ?_, rfl⟩
    obtain ⟨hl, hm⟩ := h.bounds id hid
    exact ⟨hl, Nat.lt_of_lt_of_le hm hhi⟩
  | ok v =>
    have hw : (w >>= f) = ⟨w.visited ++ (f v).visited, (f v).outcome⟩ := by
      change w.andThen f = _
      rw [andThen, houtcome]
      rfl
    have hv := hf v
    rw [hw]
    refine ⟨List.nodup_append.mpr ⟨h.nodup, hv.nodup, ?_⟩, fun id hid => ?_, hv.outcome⟩
    · intro id hid id' hid' hsame
      obtain ⟨-, hm⟩ := h.bounds id hid
      obtain ⟨hm', -⟩ := hv.bounds id' hid'
      rw [hsame] at hm
      exact Nat.not_lt_of_le hm' hm
    · rcases List.mem_append.mp hid with hid | hid
      · obtain ⟨hl, hm⟩ := h.bounds id hid
        exact ⟨hl, Nat.lt_of_lt_of_le hm hhi⟩
      · obtain ⟨hm, hh⟩ := hv.bounds id hid
        exact ⟨Nat.le_trans hlo hm, hh⟩

/-- A node is visited whose place is behind those of all other nodes visited. -/
theorem Within.visit {r : Except EvalError α} {w : Walk α} {id : NodeId} (h : Within lo hi r w)
    (hlo : lo ≤ hi) (hid : id.toNat = hi) :
    Within lo (hi + 1) r (do visit id; w) := by
  refine ⟨List.nodup_cons.mpr ⟨fun hmem => ?_, h.nodup⟩, fun id' hid' => ?_, h.outcome⟩
  · exact Nat.lt_irrefl hi (hid ▸ (h.bounds id hmem).2)
  · rcases List.mem_cons.mp hid' with rfl | hid'
    · exact ⟨hid ▸ hlo, Nat.lt_succ_of_le (Nat.le_of_eq hid)⟩
    · obtain ⟨hl, hh⟩ := h.bounds id' hid'
      exact ⟨hl, Nat.lt_succ_of_lt hh⟩

end Walk

/-! ## Layouts within an arena -/

namespace Arena

open Walk
open Term (layAll)

/-- A tree laid out behind `a` within `b`, with enough levels for its height. -/
structure Placed (t : Term) (a b : Arena) (levels : Nat) : Prop where
  room : a.nodes.length + t.size ≤ 2 ^ 32
  nodes : (t.lay a).2.nodes <+: b.nodes
  height : t.height ≤ levels

/-- Trees laid out behind `a` within `b`. -/
structure PlacedAll (ts : List Term) (a b : Arena) (levels : Nat) : Prop where
  room : a.nodes.length + Term.sizes ts ≤ 2 ^ 32
  nodes : (layAll ts a).2.nodes <+: b.nodes
  height : Term.heights ts ≤ levels

variable {t : Term} {ts : List Term} {a b : Arena} {levels : Nat}

theorem PlacedAll.head (h : PlacedAll (t :: ts) a b levels) : Placed t a b levels := by
  obtain ⟨hroom, hnodes, hheight⟩ := h
  rw [Term.sizes, ← Nat.add_assoc] at hroom
  rw [Term.heights] at hheight
  exact ⟨Nat.le_of_add_right_le hroom, (extends_layAll ts (t.lay a).2).nodes.trans hnodes,
    Nat.le_trans (Nat.le_max_left _ _) hheight⟩

theorem PlacedAll.tail (h : PlacedAll (t :: ts) a b levels) :
    PlacedAll ts (t.lay a).2 b levels := by
  obtain ⟨hroom, hnodes, hheight⟩ := h
  rw [Term.sizes, ← Nat.add_assoc, ← length_lay] at hroom
  rw [Term.heights] at hheight
  exact ⟨hroom, hnodes, Nat.le_trans (Nat.le_max_right _ _) hheight⟩

theorem Placed.children (h : Placed t a b (levels + 1)) : PlacedAll t.children a b levels := by
  obtain ⟨hroom, hnodes, hheight⟩ := h
  rw [t.size_eq] at hroom
  rw [t.lay_eq] at hnodes
  rw [t.height_eq] at hheight
  exact ⟨Nat.le_of_succ_le hroom, (extends_push _ _).nodes.trans hnodes,
    Nat.le_of_succ_le_succ hheight⟩

theorem le_lay (t : Term) (a : Arena) : a.nodes.length ≤ (t.lay a).2.nodes.length :=
  (extends_lay t a).nodes.length_le

theorem le_layAll (ts : List Term) (a : Arena) :
    a.nodes.length ≤ (layAll ts a).2.nodes.length :=
  (extends_layAll ts a).nodes.length_le

/-- The place of a layout is behind the layouts of the parts. -/
theorem Placed.place (h : Placed t a b levels) :
    (t.lay a).1.toNat = (layAll t.children a).2.nodes.length := by
  have hplace := toNat_lay h.room
  rw [← length_lay, t.lay_eq, push, List.length_append, List.length_singleton] at hplace
  rw [t.lay_eq, push]
  exact Nat.succ.inj hplace

theorem Placed.node (h : Placed t a b levels) :
    b.nodes[(t.lay a).1.toNat]? = some (t.node (layAll t.children a).1) := by
  obtain ⟨more, hmore⟩ := h.nodes
  rw [h.place, ← hmore, t.lay_eq, push, List.append_assoc]
  rw [List.getElem?_append_right (Nat.le_refl _), Nat.sub_self]
  rfl

theorem length_lay_succ (t : Term) (a : Arena) :
    (t.lay a).2.nodes.length = (layAll t.children a).2.nodes.length + 1 := by
  rw [t.lay_eq, push, List.length_append, List.length_singleton]

/-! ## Evaluation -/

/-- What is known of the evaluation of one tree. -/
def Evaluates (input : Value) (t : Term) : Prop :=
  ∀ {a b : Arena} {levels : Nat}, Placed t a b levels →
    Within a.nodes.length (t.lay a).2.nodes.length (t.eval input)
      (b.evalAt input levels (t.lay a).1)

theorem within_each {input : Value} (hts : ∀ t ∈ ts, Evaluates input t)
    (h : PlacedAll ts a b levels) :
    Within a.nodes.length (layAll ts a).2.nodes.length (Term.evalAll input ts)
      (each (b.evalAt input levels) (layAll ts a).1) := by
  induction ts generalizing a with
  | nil => exact within_pure []
  | cons t ts ih =>
    have hrest := ih (fun u hu => hts u (List.mem_cons_of_mem t hu)) h.tail
    rw [Term.evalAll]
    refine (hts t List.mem_cons_self h.head).bind (le_lay t a) (le_layAll ts _) fun v => ?_
    exact hrest.bind (le_layAll ts _) (Nat.le_refl _) fun vs => within_pure (v :: vs)

/-- **Evaluation by places gives what evaluation of the tree gives**, within the layout. -/
theorem evaluates (input : Value) (t : Term) : Evaluates input t := by
  induction t using Term.of_children with
  | h t ih =>
    intro a b levels h
    cases levels with
    | zero =>
      -- there are as many levels as the tree is high, and every tree has some height
      have hheight := h.height
      rw [t.height_eq] at hheight
      exact absurd hheight (Nat.not_succ_le_zero _)
    | succ levels =>
      have hparts := h.children
      rw [evalAt, h.node, length_lay_succ]
      refine Within.visit ?_ (le_layAll t.children a) h.place
      cases t with
      | number x => exact within_pure (Value.num x)
      | str s => exact within_pure (Value.str s.toList)
      | bool v => exact within_pure (Value.bool v)
      | null => exact within_pure Value.null
      | undefined => exact within_pure Value.undefined
      | input => exact within_pure input
      | array items =>
        have hitems := within_each ih hparts
        rw [Term.eval]
        exact hitems.bind (le_layAll items a) (Nat.le_refl _) fun vs => within_pure (Value.array vs)
      | unary op t =>
        have ht := ih t List.mem_cons_self hparts.head
        rw [Term.eval]
        exact ht.bind (le_lay t a) (Nat.le_refl _) fun v => within_pure (applyUnary op v)
      | binary op l r =>
        have hl := ih l List.mem_cons_self hparts.head
        have hr := ih r (List.mem_cons_of_mem l List.mem_cons_self) hparts.tail.head
        rw [Term.eval]
        refine hl.bind (le_lay l a) (le_lay r _) fun x => ?_
        exact hr.bind (le_lay r _) (Nat.le_refl _) fun y => within_pure (applyBinary op x y)
      | logical op l r =>
        have hl := ih l List.mem_cons_self hparts.head
        have hr := ih r (List.mem_cons_of_mem l List.mem_cons_self) hparts.tail.head
        rw [Term.eval]
        refine hl.bind (le_lay l a) (le_lay r _) fun x => ?_
        -- both evaluations decide by the left value alone whether they go on
        split
        case isTrue => exact within_pure x
        case isFalse => exact hr
      | conditional c y n =>
        have hc := ih c List.mem_cons_self hparts.head
        have hy := ih y (List.mem_cons_of_mem c List.mem_cons_self) hparts.tail.head
        have hn := ih n (List.mem_cons_of_mem c (List.mem_cons_of_mem y List.mem_cons_self))
          hparts.tail.tail.head
        rw [Term.eval]
        refine hc.bind (le_lay c a) (Nat.le_trans (le_lay y _) (le_lay n _)) fun v => ?_
        -- the side that is left out is visited by nobody
        split
        case isTrue => exact hy.mono (Nat.le_refl _) (le_lay n _)
        case isFalse => exact hn.mono (le_lay y _) (Nat.le_refl _)
      | member t name =>
        have ht := ih t List.mem_cons_self hparts.head
        rw [Term.eval]
        exact ht.bind (le_lay t a) (Nat.le_refl _) fun v => within_lift (property v name)
      | index t key =>
        have ht := ih t List.mem_cons_self hparts.head
        have hkey := ih key (List.mem_cons_of_mem t List.mem_cons_self) hparts.tail.head
        rw [Term.eval]
        refine ht.bind (le_lay t a) (le_lay key _) fun v => ?_
        exact hkey.bind (le_lay key _) (Nat.le_refl _) fun k => within_lift (element v k)
      | method t m args =>
        have ht := ih t List.mem_cons_self hparts.head
        have hargs := within_each (fun u hu => ih u (List.mem_cons_of_mem t hu)) hparts.tail
        rw [Term.eval]
        refine ht.bind (le_lay t a) (le_layAll args _) fun v => ?_
        exact hargs.bind (le_layAll args _) (Nat.le_refl _) fun vs =>
          within_lift (callMethod v m vs)
      | math f args =>
        have hargs := within_each ih hparts
        rw [Term.eval]
        exact hargs.bind (le_layAll args a) (Nat.le_refl _) fun vs =>
          within_pure (Value.num (callMath f vs))
      | call f args =>
        have hargs := within_each ih hparts
        rw [Term.eval]
        exact hargs.bind (le_layAll args a) (Nat.le_refl _) fun vs => within_pure (callFree f vs)

/-- **The evaluation of a whole layout.** -/
theorem within_eval_layout {t : Term} (hsize : t.size ≤ 2 ^ 32) (hheight : t.height ≤ maxDepth)
    (input : Value) :
    Within 0 t.layout.nodes.length (t.eval input) (t.layout.eval input) := by
  have hplaced : Placed t {} t.layout maxDepth :=
    ⟨(Nat.zero_add t.size).symm ▸ hsize, List.prefix_rfl, hheight⟩
  exact evaluates input t hplaced

end Arena

end Reshape.Formula
