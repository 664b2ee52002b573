/-
# Reshape.Proofs.Path.Enumeration -- wildcards are enumerated in order

A path with wildcards stands for the paths that have a position in the place of each of them. All
values of the path are the values at those paths, tuples of positions in lexicographic order, and
those that lead nowhere left out (`getAll_eq_enumeration`).

Both sides come down to single steps (`Hop`): to the value under a key, to one element of an array,
or to every one. `trail` lists where they lead together with the positions that the wildcards took.
Its values are all values of the path (`map_snd_trail`), it is in order (`pairwise_trail`), and it
has exactly what the steps reach with given positions (`mem_trail_iff`), which is the value at the
path with those positions (`get?_withPositions`).

A key with an opening bracket in it can be mistaken for a segment with positions, so documents have
none here (`Unbracketed`).
-/

import Mathlib
import Reshape.Proofs.Path.Spelling

namespace Reshape

/-! ## Steps -/

/-- **One step** along a path. -/
inductive Path.Hop where
  | key (key : String)
  | suffix (s : Path.Suffix)

/-- The steps of a segment. -/
def Path.Segment.hops (s : Path.Segment) : List Path.Hop :=
  .key s.key :: s.access.suffixes.map .suffix

/-- The steps of segments. -/
def Path.hops (ss : List Path.Segment) : List Path.Hop :=
  ss.flatMap Path.Segment.hops

/-- The number of wildcards of segments. -/
def Path.wildcards (ss : List Path.Segment) : Nat :=
  (ss.map fun s => s.access.suffixes.count .every).sum

/-- The number of positions that a step takes. -/
def Path.Hop.width : Path.Hop → Nat
  | .suffix .every => 1
  | _ => 0

theorem Path.sum_width_suffixes (ss : List Path.Suffix) :
    ((ss.map Path.Hop.suffix).map Path.Hop.width).sum = ss.count .every := by
  induction ss with
  | nil => rfl
  | cons s ss ih =>
    rw [List.map_cons, List.map_cons, List.sum_cons, ih]
    cases s with
    | every => rw [List.count_cons_self, Nat.add_comm]; rfl
    | «at» n => simp [Path.Hop.width]

theorem Path.sum_width_hops (ss : List Path.Segment) :
    ((Path.hops ss).map Path.Hop.width).sum = Path.wildcards ss := by
  induction ss with
  | nil => rfl
  | cons s ss ih =>
    have hsegment : (s.hops.map Path.Hop.width).sum = s.access.suffixes.count .every :=
      (Nat.zero_add _).trans (Path.sum_width_suffixes s.access.suffixes)
    rw [Path.hops, List.flatMap_cons, List.map_append, List.sum_append, hsegment]
    exact congrArg (s.access.suffixes.count .every + ·) ih

namespace Json

open Reshape.Path (Hop Segment Suffix concrete withPositions wildcards fill)

/-- The values that a step leads to. -/
def hopTo : Hop → Json → List Json
  | .key k, node => (node.child? k).toList
  | .suffix (.at n), node => (node.item? n).toList
  | .suffix .every, node => node.items?.getD []

/-- The values that steps lead to, those by way of an earlier value first. -/
def along : List Hop → Json → List Json
  | [], node => [node]
  | h :: hs, node => (hopTo h node).flatMap (along hs)

/-- **Where steps lead**, with the positions that wildcards took. -/
def trail : List Hop → Json → List (List Nat × Json)
  | [], node => [([], node)]
  | .key k :: hs, node => (node.child? k).toList.flatMap (trail hs)
  | .suffix (.at n) :: hs, node => (node.item? n).toList.flatMap (trail hs)
  | .suffix .every :: hs, node =>
    (node.items?.getD []).zipIdx.flatMap fun (x, i) => (trail hs x).map fun (t, v) => (i :: t, v)

/-- **What steps reach** when wildcards take given positions. -/
def reach? : List Hop → List Nat → Json → Option Json
  | [], [], node => some node
  | [], _ :: _, _ => none
  | .key k :: hs, t, node => (node.child? k).bind (reach? hs t)
  | .suffix (.at n) :: hs, t, node => (node.item? n).bind (reach? hs t)
  | .suffix .every :: _, [], _ => none
  | .suffix .every :: hs, i :: t, node => (node.item? i).bind (reach? hs t)

/-! ## All values of a path -/

theorem along_append (hs ks : List Hop) (node : Json) :
    along (hs ++ ks) node = (along hs node).flatMap (along ks) := by
  induction hs generalizing node with
  | nil => exact (List.flatMap_singleton _ node).symm
  | cons h hs ih =>
    rw [List.cons_append, along, along, List.flatMap_assoc]
    exact List.flatMap_congr fun x _ => ih x

theorem everyItem_eq_flatMap (count : Nat) (nodes : List Json) :
    everyItem count nodes =
      nodes.flatMap (along (List.replicate count (Hop.suffix .every))) := by
  induction count generalizing nodes with
  | zero => exact (List.flatMap_singleton' nodes).symm
  | succ count ih =>
    rw [everyItem, ih, List.flatMap_assoc, List.replicate_succ]
    rfl

theorem along_at (ns : List Nat) (node : Json) :
    along (ns.map fun n => Hop.suffix (.at n)) node = (itemAt? ns node).toList := by
  induction ns generalizing node with
  | nil => rfl
  | cons n ns ih =>
    rw [List.map_cons, along, itemAt?_cons, hopTo]
    cases node.item? n with
    | none => rfl
    | some x => exact (List.flatMap_singleton _ x).trans (ih x)

/-- A segment leads where its steps lead. -/
theorem expand_eq_along (s : Segment) (node : Json) : expand s node = along s.hops node := by
  rw [expand, Segment.hops, along, hopTo]
  cases node.child? s.key with
  | none => rfl
  | some base =>
    rw [Option.toList_some, List.flatMap_singleton]
    dsimp only
    cases s.access with
    | plain => rfl
    | indices ns =>
      rw [Path.Access.suffixes, List.map_map]
      exact (along_at ns base).symm
    | wildcard count =>
      rw [Path.Access.suffixes, List.map_replicate]
      exact (everyItem_eq_flatMap count [base]).trans (List.flatMap_singleton _ base)

theorem expandAll_eq_flatMap (ss : List Segment) (nodes : List Json) :
    expandAll ss nodes = nodes.flatMap (along (Path.hops ss)) := by
  induction ss generalizing nodes with
  | nil => exact (List.flatMap_singleton' nodes).symm
  | cons s ss ih =>
    change expandAll ss (nodes.flatMap (expand s)) = _
    rw [ih, List.flatMap_assoc]
    refine List.flatMap_congr fun node _ => ?_
    rw [expand_eq_along, ← along_append]
    rfl

theorem map_snd_trail (hs : List Hop) (node : Json) :
    (trail hs node).map Prod.snd = along hs node := by
  induction hs generalizing node with
  | nil => rfl
  | cons h hs ih =>
    -- only a wildcard adds a position, and it does not touch the values
    match h with
    | .key k =>
      rw [trail, along, List.map_flatMap]
      exact List.flatMap_congr fun x _ => ih x
    | .suffix (.at n) =>
      rw [trail, along, List.map_flatMap]
      exact List.flatMap_congr fun x _ => ih x
    | .suffix .every =>
      rw [trail, along, hopTo, List.map_flatMap]
      generalize node.items?.getD [] = xs
      calc (xs.zipIdx.flatMap fun p => ((trail hs p.1).map fun e => (p.2 :: e.1, e.2)).map Prod.snd)
          = xs.zipIdx.flatMap fun p => along hs p.1 :=
            List.flatMap_congr fun p _ => by rw [List.map_map, ← ih p.1]; rfl
        _ = (xs.zipIdx.map Prod.fst).flatMap (along hs) := (List.flatMap_map ..).symm
        _ = xs.flatMap (along hs) := by rw [List.zipIdx_map_fst]

/-! ## Order -/

/-- **Positions are in lexicographic order.** -/
theorem pairwise_trail (hs : List Hop) (node : Json) :
    ((trail hs node).map Prod.fst).Pairwise (List.Lex (· < ·)) := by
  induction hs generalizing node with
  | nil => exact List.pairwise_singleton _ _
  | cons h hs ih =>
    have hoption : ∀ x? : Option Json,
        ((x?.toList.flatMap (trail hs)).map Prod.fst).Pairwise (List.Lex (· < ·)) := by
      intro x?
      cases x? with
      | none => exact List.Pairwise.nil
      | some x =>
        rw [Option.toList_some, List.flatMap_singleton]
        exact ih x
    match h with
    | .key k => exact hoption (node.child? k)
    | .suffix (.at n) => exact hoption (node.item? n)
    | .suffix .every =>
      rw [trail, List.map_flatMap, List.pairwise_flatMap]
      constructor
      · -- under one element the positions behind the first decide
        intro p _
        rw [List.map_map]
        exact List.pairwise_map.mpr ((List.pairwise_map.mp (ih p.1)).imp fun h => .cons h)
      · -- an earlier element has the smaller first position
        have hindices : ((node.items?.getD []).zipIdx.map Prod.snd).Pairwise (· < ·) := by
          rw [List.zipIdx_map_snd]
          exact List.pairwise_lt_range'
        refine (List.pairwise_map.mp hindices).imp fun hlt t ht u hu => ?_
        simp only [List.mem_map, exists_exists_and_eq_and] at ht hu
        obtain ⟨e, -, rfl⟩ := ht
        obtain ⟨f, -, rfl⟩ := hu
        exact .rel hlt

theorem mem_toList_flatMap {α : Type} {x? : Option Json} {f : Json → List α} {a : α} :
    a ∈ x?.toList.flatMap f ↔ ∃ x, x? = some x ∧ a ∈ f x := by
  simp only [List.mem_flatMap, Option.mem_toList]

theorem item?_eq_getElem? (n : Nat) (node : Json) : node.item? n = (node.items?.getD [])[n]? := by
  cases node <;> rfl

/-- **The trail has what the steps reach.** -/
theorem mem_trail_iff {hs : List Hop} {t : List Nat} {node v : Json} :
    (t, v) ∈ trail hs node ↔ reach? hs t node = some v := by
  induction hs generalizing t node with
  | nil =>
    cases t with
    | nil => simp [trail, reach?, eq_comm]
    | cons i t => simp [trail, reach?]
  | cons h hs ih =>
    match h with
    | .key k => simp only [trail, reach?, mem_toList_flatMap, Option.bind_eq_some_iff, ih]
    | .suffix (.at n) => simp only [trail, reach?, mem_toList_flatMap, Option.bind_eq_some_iff, ih]
    | .suffix .every =>
      rw [trail, List.mem_flatMap]
      cases t with
      | nil => simp [reach?]
      | cons i t =>
        rw [reach?, Option.bind_eq_some_iff]
        constructor
        · rintro ⟨⟨x, j⟩, hx, he⟩
          obtain ⟨⟨u, w⟩, hu, he⟩ := List.mem_map.mp he
          cases he
          refine ⟨x, ?_, ih.mp hu⟩
          rw [item?_eq_getElem?]
          exact List.mem_zipIdx_iff_getElem?.mp hx
        · rintro ⟨x, hx, hv⟩
          rw [item?_eq_getElem?] at hx
          exact ⟨(x, i), List.mem_zipIdx_iff_getElem?.mpr hx,
            List.mem_map.mpr ⟨(t, v), ih.mpr hv, rfl⟩⟩

/-! ## Documents without brackets in keys -/

/-- **No key has an opening bracket in it.** The length of an array is a number of 64 bits, as in
all documents that were read. -/
inductive Unbracketed : Json → Prop
  | scalar {value : Json} (h : value.isContainer = false) : Unbracketed value
  | arr {xs : List Json} (hlength : xs.length ≤ Decimal.maxUnsigned)
      (hitems : ∀ x ∈ xs, Unbracketed x) : Unbracketed (.arr xs)
  | obj {ms : Members} (hkeys : ∀ m ∈ ms, '[' ∉ m.1.toList) (hvalues : ∀ m ∈ ms, Unbracketed m.2) :
      Unbracketed (.obj ms)

theorem Unbracketed.length_le {xs : List Json} (h : Unbracketed (.arr xs)) :
    xs.length ≤ Decimal.maxUnsigned := by
  cases h with
  | scalar h => cases h
  | arr hlength _ => exact hlength

theorem Unbracketed.get?_eq_none {ms : Members} (h : Unbracketed (.obj ms)) {raw : List Char}
    (hraw : '[' ∈ raw) : ms.get? (String.ofList raw) = none := by
  cases h with
  | scalar h => cases h
  | obj hkeys _ =>
    cases hv : ms.get? (String.ofList raw) with
    | none => rfl
    | some v =>
      refine absurd ?_ (hkeys _ (mem_of_lookup hv))
      rw [String.toList_ofList]
      exact hraw

theorem Unbracketed.hereditary : Hereditary Unbracketed where
  items h := by
    cases h with
    | scalar h => cases h
    | arr _ hitems => exact hitems
  values h := by
    cases h with
    | scalar h => cases h
    | obj _ hvalues => exact hvalues

/-- Where positions lead somewhere, each of them fits into 64 bits. -/
theorem Unbracketed.le_of_itemAt? {node value : Json} (h : node.Unbracketed) {ns : List Nat}
    (hv : node.itemAt? ns = some value) : ∀ n ∈ ns, n ≤ Decimal.maxUnsigned := by
  induction ns generalizing node with
  | nil => exact fun n hn => absurd hn List.not_mem_nil
  | cons n ns ih =>
    rw [itemAt?_cons] at hv
    obtain ⟨x, hx, hv⟩ := Option.bind_eq_some_iff.mp hv
    refine List.forall_mem_cons.mpr ⟨?_, ih (Unbracketed.hereditary.item? h hx) hv⟩
    cases node with
    | arr xs =>
      have hlt : n < xs.length := (List.getElem?_eq_some_iff.mp hx).1
      exact Nat.le_of_lt (Nat.lt_of_lt_of_le hlt h.length_le)
    | _ => cases hx

/-! ## One step -/

/-- With a bracket in it, a segment is no key and no position by itself. -/
theorem step?_of_mem {node : Json} (hnode : node.Unbracketed) {raw : List Char} (hraw : '[' ∈ raw)
    (hcontainer : node.isContainer = true) : step? raw node = indexed? raw node := by
  cases node with
  | obj ms => rw [step?, hnode.get?_eq_none hraw]
  | arr xs => rw [step?, unsigned?_eq_none_of_mem hraw (by decide) rfl]
  | _ => cases hcontainer

theorem step?_scalar {node : Json} (h : node.isContainer = false) (raw : List Char) :
    step? raw node = none := by
  cases node with
  | obj ms => cases h
  | arr xs => cases h
  | _ => rfl

/-- A plain key is looked up as it stands. -/
theorem step?_key {key : String} (hkey : key ≠ "") (hopen : '[' ∉ key.toList) (node : Json) :
    step? key.toList node = node.child? key := by
  cases node with
  | obj ms => rw [child?_obj hkey, step?_obj hopen, String.ofList_toList]
  | arr xs => rw [child?_arr hkey, step?_arr hopen]
  | _ => rw [child?_scalar hkey rfl, step?_scalar rfl]

/-- **One step** by a segment without wildcards. -/
theorem step?_of_spells {node : Json} (hnode : node.Unbracketed) {key : String} {cs : List Char}
    {ns : List Nat} (hne : key.toList ++ cs ≠ []) (hopen : '[' ∉ key.toList)
    (hclose : ']' ∉ key.toList) (hcs : Path.Spells cs (ns.map .at)) :
    step? (key.toList ++ cs) node = (node.child? key).bind (itemAt? ns) := by
  obtain ⟨a, ha⟩ := Path.accessOf_map_at ns
  have hsuffixes := Path.eq_suffixes_of_accessOf ha
  have hparse : ∀ path, Path.parseSegment path (key.toList ++ cs) = .ok ⟨key, a⟩ := fun _ =>
    Path.parseSegment_eq_ok_iff.mpr ⟨hne, cs, _, rfl, hopen, hclose, hcs, ha⟩
  cases ns with
  | nil =>
    cases hcs
    rw [List.append_nil] at hne ⊢
    rw [step?_key (fun he => hne (String.toList_eq_nil_iff.mpr he)) hopen]
    exact (Option.bind_fun_some _).symm
  | cons n ns =>
    have hbracket : '[' ∈ key.toList ++ cs := by
      cases hcs
      simp
    have hindexed : indexed? (key.toList ++ cs) node =
        (node.child? key).bind (itemAt? (n :: ns)) := by
      rw [indexed?, hparse]
      cases a with
      | plain => cases hsuffixes
      | wildcard count =>
        have hmem : Suffix.at n ∈ List.replicate count Suffix.every := by
          rw [show List.replicate count Suffix.every = _ from hsuffixes.symm]
          exact List.mem_cons_self
        cases List.eq_of_mem_replicate hmem
      | indices ms =>
        have hms : n :: ns = ms := List.map_injective_iff.mpr (fun _ _ => Suffix.at.inj) hsuffixes
        rw [hms]
    cases hcontainer : node.isContainer with
    | true => rw [step?_of_mem hnode hbracket hcontainer, hindexed]
    | false =>
      rw [step?_scalar hcontainer]
      symm
      rw [Option.bind_eq_none_iff]
      intro base hbase
      by_contra hsome
      obtain ⟨v, hv⟩ := Option.ne_none_iff_exists'.mp hsome
      cases hcontainer.symm.trans
        (isContainer_of_itemAt? (List.cons_ne_nil n ns) hbase hv)

theorem mem_fill {ss : List Suffix} {t : List Nat} (ht : t.length = ss.count .every) :
    ∀ n ∈ t, n ∈ fill ss t := by
  induction ss generalizing t with
  | nil =>
    rw [List.count_nil, List.length_eq_zero_iff] at ht
    rw [ht]
    exact fun n hn => absurd hn List.not_mem_nil
  | cons s ss ih =>
    cases s with
    | every =>
      rw [List.count_cons_self] at ht
      obtain ⟨i, t, rfl⟩ := List.exists_cons_of_length_eq_add_one ht
      intro n hn
      rcases List.mem_cons.mp hn with rfl | hn
      · exact List.mem_cons_self
      · exact List.mem_cons_of_mem i (ih (Nat.succ.inj ht) n hn)
    | «at» m =>
      have hcount : t.length = ss.count .every := by simpa using ht
      intro n hn
      have hfill : fill (.at m :: ss) t = m :: fill ss t := by rw [fill]
      rw [hfill]
      exact List.mem_cons_of_mem m (ih hcount n hn)

/-- A segment with brackets that cannot be read leads nowhere. -/
theorem step?_of_suffixes_error {node : Json} (hnode : node.Unbracketed) {key cs : List Char}
    (hopen : '[' ∉ key) (hhead : cs.head? = some '[')
    (hcs : ∀ ss, Path.suffixes none cs ≠ .ok ss) : step? (key ++ cs) node = none := by
  have hkey : ∀ c ∈ key, decide (c ≠ '[') = true := fun c hc =>
    decide_eq_true fun he => hopen (he ▸ hc)
  obtain ⟨ds, rfl⟩ : ∃ ds, cs = '[' :: ds := by
    cases cs with
    | nil => cases hhead
    | cons c ds => exact ⟨ds, congrArg (· :: ds) (Option.some.inj hhead)⟩
  have hindexed : indexed? (key ++ '[' :: ds) node = none := by
    rw [indexed?]
    split
    case h_2 => rfl
    case h_1 k ns hparse =>
      obtain ⟨-, cs, ss, hraw, hk, -, hspells, -⟩ := Path.parseSegment_eq_ok_iff.mp hparse
      -- both texts part at the first bracket
      have hk : ∀ c ∈ k.toList, decide (c ≠ '[') = true := fun c hc =>
        decide_eq_true fun he => hk (he ▸ hc)
      have hdrop := congrArg (List.dropWhile (· ≠ '[')) hraw
      rw [List.dropWhile_append_of_pos hkey, List.dropWhile_append_of_pos hk] at hdrop
      have hsame : '[' :: ds = cs := by
        cases hspells with
        | nil => simp at hdrop
        | cons => simpa using hdrop
      exact absurd (hsame ▸ hspells.suffixes) (hcs ss)
  cases hcontainer : node.isContainer with
  | true => rw [step?_of_mem hnode (by simp) hcontainer, hindexed]
  | false => exact step?_scalar hcontainer _

/-- **One step** by a segment whose wildcards were given positions. -/
theorem step?_concrete {node : Json} (hnode : node.Unbracketed) {path : String} {raw : List Char}
    {s : Segment} (hparse : Path.parseSegment path raw = .ok s) {t : List Nat}
    (ht : t.length = s.access.suffixes.count .every) :
    step? (concrete t raw) node =
      (node.child? s.key).bind (itemAt? (fill s.access.suffixes t)) := by
  obtain ⟨hne, cs, ss, rfl, hopen, hclose, hcs, haccess⟩ := Path.parseSegment_eq_ok_iff.mp hparse
  rw [← Path.eq_suffixes_of_accessOf haccess] at ht ⊢
  have hhead := Path.head?_concrete t cs
  rw [Path.concrete_append_of_not_mem hopen]
  by_cases hbound : ∀ n ∈ t, n ≤ Decimal.maxUnsigned
  · refine step?_of_spells hnode (fun hnil => hne ?_) hopen hclose (hcs.concrete ht hbound)
    rw [List.append_eq_nil_iff] at hnil ⊢
    rw [hnil.2] at hhead
    exact ⟨hnil.1, List.head?_eq_none_iff.mp hhead.symm⟩
  · -- a position that does not fit is not read, and no array has it
    have hread : ∀ us, Path.suffixes none (concrete t cs) ≠ .ok us := fun us hus =>
      hbound (hcs.le_of_concrete ht hus)
    have hss : ss.isEmpty = false := by
      cases ss with
      | nil =>
        rw [List.count_nil, List.length_eq_zero_iff] at ht
        rw [ht] at hbound
        exact absurd (fun n hn => absurd hn List.not_mem_nil) hbound
      | cons => rfl
    rw [hcs.head?, hss] at hhead
    rw [step?_of_suffixes_error hnode hopen hhead hread, eq_comm, Option.bind_eq_none_iff]
    intro base hbase
    by_contra hsome
    obtain ⟨v, hv⟩ := Option.ne_none_iff_exists'.mp hsome
    have hle := (Unbracketed.hereditary.child? hnode hbase).le_of_itemAt? hv
    exact hbound fun n hn => hle n (mem_fill ht n hn)

/-! ## All steps -/

theorem reach?_suffixes {ss : List Suffix} {t : List Nat} (ht : t.length = ss.count .every)
    (hs : List Hop) (u : List Nat) (node : Json) :
    reach? (ss.map .suffix ++ hs) (t ++ u) node =
      (itemAt? (fill ss t) node).bind (reach? hs u) := by
  induction ss generalizing t node with
  | nil =>
    rw [List.count_nil, List.length_eq_zero_iff] at ht
    rw [ht]
    rfl
  | cons s ss ih =>
    cases s with
    | every =>
      rw [List.count_cons_self] at ht
      obtain ⟨i, t, rfl⟩ := List.exists_cons_of_length_eq_add_one ht
      rw [fill, itemAt?_cons, Option.bind_assoc]
      exact Option.bind_congr fun x _ => ih (Nat.succ.inj ht) x
    | «at» n =>
      have hcount : t.length = ss.count .every := by simpa using ht
      have hfill : fill (.at n :: ss) t = n :: fill ss t := by rw [fill]
      rw [hfill, itemAt?_cons, Option.bind_assoc]
      exact Option.bind_congr fun x _ => ih hcount x

theorem reach?_segment {s : Segment} {t : List Nat} (ht : t.length = s.access.suffixes.count .every)
    (hs : List Hop) (u : List Nat) (node : Json) :
    reach? (s.hops ++ hs) (t ++ u) node =
      ((node.child? s.key).bind (itemAt? (fill s.access.suffixes t))).bind (reach? hs u) := by
  rw [Segment.hops, List.cons_append, reach?, Option.bind_assoc]
  exact Option.bind_congr fun base _ => reach?_suffixes ht hs u base

/-- Following a path whose wildcards were given positions is going its steps. -/
theorem follow?_concrete {path : String} {raws : List (List Char)} {ss : List Segment}
    (hparse : Path.parseSegments path raws = .ok ss) (hraws : raws ≠ [])
    (hdot : ∀ raw ∈ raws, '.' ∉ raw) {t : List Nat} (ht : t.length = wildcards ss) {node : Json}
    (hnode : node.Unbracketed) :
    follow? (Text.splitChar '.' (concrete t (Text.join ['.'] raws))) node =
      reach? (Path.hops ss) t node := by
  induction raws generalizing ss t node with
  | nil => exact absurd rfl hraws
  | cons raw raws ih =>
    obtain ⟨s, us, hs, hus, rfl⟩ := Path.exists_of_cons_eq_ok hparse
    obtain ⟨hraw, hdot⟩ := List.forall_mem_cons.mp hdot
    -- the first segment takes its share of the positions
    obtain ⟨u, v, rfl, hu, hv⟩ : ∃ u v, t = u ++ v ∧
        u.length = s.access.suffixes.count .every ∧ v.length = wildcards us := by
      rw [wildcards, List.map_cons, List.sum_cons] at ht
      exact ⟨t.take _, t.drop _, (List.take_append_drop _ t).symm,
        by rw [List.length_take, ht]; exact Nat.min_eq_left (Nat.le_add_right _ _),
        by rw [List.length_drop, ht]; exact Nat.add_sub_cancel_left _ _⟩
    have hstep := step?_concrete hnode hs hu
    have hfirst : Text.splitChar '.' (concrete u raw) = [concrete u raw] :=
      Text.splitChar_of_not_mem (Path.dot_not_mem_concrete hraw)
    change _ = reach? (s.hops ++ Path.hops us) (u ++ v) node
    rw [reach?_segment hu]
    cases raws with
    | nil =>
      cases hus
      rw [List.length_eq_zero_iff.mp hv, Text.join, List.append_nil, hfirst, follow?, hstep]
      exact Option.bind_congr fun x _ => rfl
    | cons next rest =>
      have hjoin : Text.join ['.'] (raw :: next :: rest) =
          raw ++ '.' :: Text.join ['.'] (next :: rest) := by
        rw [Text.join, List.append_assoc]
        · rfl
        · exact List.cons_ne_nil next rest
      rw [hjoin, Path.concrete_append_of_parseSegment hs hu, Path.concrete_cons_of_ne (by decide),
        Text.splitChar_append_cons, hfirst, List.singleton_append, follow?, hstep]
      refine Option.bind_congr fun x hx => ih hus (List.cons_ne_nil next rest) hdot hv ?_
      obtain ⟨base, hbase, hx⟩ := Option.bind_eq_some_iff.mp hx
      exact Unbracketed.hereditary.itemAt? (Unbracketed.hereditary.child? hnode hbase) hx

/-- **The value at a path whose wildcards were given positions** is what its steps reach. -/
theorem get?_withPositions {root : Json} (hroot : root.Unbracketed) {path : String}
    {ss : List Segment} (hpath : Path.parse path = .ok ss) {t : List Nat}
    (ht : t.length = wildcards ss) :
    root.get? (withPositions path t) = reach? (Path.hops ss) t root := by
  by_cases hempty : path = ""
  · subst hempty
    cases hpath
    rw [List.length_eq_zero_iff.mp ht]
    rfl
  · have hne : withPositions path t ≠ "" := by
      rw [withPositions, Ne, ← String.toList_eq_nil_iff, String.toList_ofList,
        Path.concrete_eq_nil_iff, String.toList_eq_nil_iff]
      exact hempty
    have hparse : Path.parseSegments path (Path.raws path) = .ok ss := by
      rw [Path.parse, if_neg hempty] at hpath
      exact hpath
    rw [get?, if_neg hne, Path.raws, withPositions, String.toList_ofList,
      ← follow?_concrete hparse (Text.splitChar_ne_nil _ _)
        (fun _ => Text.not_mem_of_mem_splitChar) ht hroot, Path.raws, Text.join_splitChar]

/-! ## The enumeration -/

/-- Steps with as many wildcards as there are positions, or they reach nothing. -/
theorem length_of_reach? {hs : List Hop} {t : List Nat} {node value : Json}
    (h : reach? hs t node = some value) : t.length = (hs.map Hop.width).sum := by
  induction hs generalizing t node with
  | nil =>
    cases t with
    | nil => rfl
    | cons i t => cases h
  | cons h' hs ih =>
    rw [List.map_cons, List.sum_cons]
    match h' with
    | .key k =>
      obtain ⟨x, -, hx⟩ := Option.bind_eq_some_iff.mp h
      exact (ih hx).trans (Nat.zero_add _).symm
    | .suffix (.at n) =>
      obtain ⟨x, -, hx⟩ := Option.bind_eq_some_iff.mp h
      exact (ih hx).trans (Nat.zero_add _).symm
    | .suffix .every =>
      cases t with
      | nil => cases h
      | cons i t =>
        obtain ⟨x, -, hx⟩ := Option.bind_eq_some_iff.mp h
        rw [List.length_cons, ih hx, Nat.add_comm]
        rfl

/-- Without wildcards there is one value at most. -/
theorem along_eq_toList {hs : List Hop} (h : (hs.map Hop.width).sum = 0) (node : Json) :
    along hs node = (reach? hs [] node).toList := by
  induction hs generalizing node with
  | nil => rfl
  | cons h' hs ih =>
    rw [List.map_cons, List.sum_cons, Nat.add_eq_zero_iff] at h
    have hoption : ∀ x? : Option Json,
        x?.toList.flatMap (along hs) = (x?.bind (reach? hs [])).toList := by
      intro x?
      cases x? with
      | none => rfl
      | some x => exact (List.flatMap_singleton _ x).trans (ih h.2 x)
    match h' with
    | .key k => exact hoption (node.child? k)
    | .suffix (.at n) => exact hoption (node.item? n)
    | .suffix .every => exact absurd h.1 Nat.one_ne_zero

/-- **All values of a path are enumerated by positions.** Consider the tuples of positions, one for
each wildcard of the path, that lead to a value. In lexicographic order, the values at the paths
with these positions are all values of the path. Of a path without wildcards that is the one value
there, if there is one. -/
theorem getAll_eq_enumeration {root : Json} (hroot : root.Unbracketed) {path : String}
    {segments : List Segment} (hpath : Path.parse path = .ok segments) :
    (∃ tuples : List (List Nat),
      tuples.Pairwise (List.Lex (· < ·)) ∧
      (∀ t, t ∈ tuples ↔
        t.length = wildcards segments ∧ (root.get? (withPositions path t)).isSome) ∧
      (root.getAll path).map some = tuples.map fun t => root.get? (withPositions path t)) ∧
    (wildcards segments = 0 → root.getAll path = (root.get? path).toList) := by
  have hall : root.getAll path = (trail (Path.hops segments) root).map Prod.snd := by
    rw [getAll, hpath, map_snd_trail]
    exact (expandAll_eq_flatMap segments [root]).trans (List.flatMap_singleton _ root)
  have hlength : ∀ t v, (t, v) ∈ trail (Path.hops segments) root → t.length = wildcards segments :=
    fun t v h => (length_of_reach? (mem_trail_iff.mp h)).trans (Path.sum_width_hops segments)
  have hvalue : ∀ t v, (t, v) ∈ trail (Path.hops segments) root →
      root.get? (withPositions path t) = some v := by
    intro t v h
    rw [get?_withPositions hroot hpath (hlength t v h)]
    exact mem_trail_iff.mp h
  have hmap : (root.getAll path).map some =
      ((trail (Path.hops segments) root).map Prod.fst).map
        fun t => root.get? (withPositions path t) := by
    rw [hall, List.map_map, List.map_map]
    exact List.map_congr_left fun e he => (hvalue e.1 e.2 he).symm
  refine ⟨⟨_, pairwise_trail _ _, fun t => ?_, hmap⟩, fun hnone => ?_⟩
  · constructor
    · intro ht
      obtain ⟨⟨t, v⟩, he, rfl⟩ := List.mem_map.mp ht
      exact ⟨hlength t v he, by rw [hvalue t v he]; rfl⟩
    · rintro ⟨ht, hsome⟩
      obtain ⟨v, hv⟩ := Option.isSome_iff_exists.mp hsome
      rw [get?_withPositions hroot hpath ht] at hv
      exact List.mem_map.mpr ⟨(t, v), mem_trail_iff.mpr hv, rfl⟩
  · have hget := get?_withPositions hroot hpath (t := []) hnone.symm
    rw [withPositions, Path.concrete_positions_nil, String.ofList_toList] at hget
    rw [hall, map_snd_trail, hget]
    exact along_eq_toList ((Path.sum_width_hops segments).trans hnone) root

/-- Rows of different lengths, one of them no row at all, and a cell without a name. -/
def raggedRows : Json :=
  .obj [("rows", .arr
    [.arr [.obj [("name", .str "a")], .obj []], .str "none", .arr [.obj [("name", .str "b")]]])]

theorem unbracketed_raggedRows : raggedRows.Unbracketed := by
  have hname : '[' ∉ "name".toList := by decide
  have hcell : ∀ text, (Json.obj [("name", .str text)]).Unbracketed := by
    intro text
    refine .obj ?_ ?_
    · exact fun m hm => List.mem_singleton.mp hm ▸ hname
    · exact fun m hm => List.mem_singleton.mp hm ▸ .scalar rfl
  have hempty : (Json.obj []).Unbracketed :=
    .obj (fun m hm => absurd hm List.not_mem_nil) fun m hm => absurd hm List.not_mem_nil
  have hrows : ∀ row ∈ [Json.arr [.obj [("name", .str "a")], .obj []], .str "none",
      .arr [.obj [("name", .str "b")]]], row.Unbracketed := by
    simp only [List.forall_mem_cons]
    refine ⟨.arr (by decide) ?_, .scalar rfl, .arr (by decide) ?_, fun x hx => nomatch hx⟩
    · simp only [List.forall_mem_cons]
      exact ⟨hcell "a", hempty, fun x hx => nomatch hx⟩
    · exact fun x hx => List.mem_singleton.mp hx ▸ hcell "b"
  have hkey : '[' ∉ "rows".toList := by decide
  refine .obj ?_ ?_
  · exact fun m hm => List.mem_singleton.mp hm ▸ hkey
  · exact fun m hm => List.mem_singleton.mp hm ▸ .arr (by decide) hrows

/-- The cells with a name are at `rows[0][0]` and at `rows[2][0]`. -/
theorem getAll_eq_enumeration_raggedRows :
    raggedRows.getAll "rows[*][*].name" = [.str "a", .str "b"] ∧
      withPositions "rows[*][*].name" [2, 0] = "rows[2][0].name" ∧
      ∃ tuples : List (List Nat),
        tuples.Pairwise (List.Lex (· < ·)) ∧
        (∀ t, t ∈ tuples ↔ t.length = 2 ∧
          (raggedRows.get? (withPositions "rows[*][*].name" t)).isSome) ∧
        (raggedRows.getAll "rows[*][*].name").map some =
          tuples.map fun t => raggedRows.get? (withPositions "rows[*][*].name" t) :=
  ⟨rfl, by decide, (@getAll_eq_enumeration raggedRows unbracketed_raggedRows
    "rows[*][*].name" [⟨"rows", .wildcard 2⟩, ⟨"name", .plain⟩] rfl).1⟩

end Json

end Reshape
