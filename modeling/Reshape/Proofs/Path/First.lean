/-
# Reshape.Proofs.Path.First -- the first value of a path

`first? segments root` follows segments down a document and takes the first element wherever a
segment speaks of every one. The two ways to read a document both come down to it:

* what it finds is the first of all values of the path (`head?_getAll_text`);
* in a plain document, what it finds without wildcards is the value at the path (`get?_text`).
  A plain document has no keys that hold the characters which divide a path, so a segment with
  suffixes is never taken for a key.
-/

import Mathlib.Data.List.Induction
import Reshape.Proofs.Json.Members
import Reshape.Proofs.Path.RoundTrip

namespace Reshape

/-! ## Plain documents -/

/-- A key that stands for itself in a path. -/
def Path.PlainKey (key : String) : Prop :=
  key ≠ "" ∧ Path.Unstructured key

instance (key : String) : Decidable (Path.PlainKey key) :=
  inferInstanceAs (Decidable (_ ∧ _))

namespace Json

/-- **A plain document**: the keys of an object are distinct, and each of them stands for itself in
a path. -/
inductive Plain : Json → Prop
  | scalar {value : Json} (h : value.isContainer = false) : Plain value
  | arr {xs : List Json} (hitems : ∀ x ∈ xs, Plain x) : Plain (.arr xs)
  | obj {ms : Members} (hdistinct : ms.keys.Nodup) (hkeys : ∀ m ∈ ms, Path.PlainKey m.1)
      (hvalues : ∀ m ∈ ms, Plain m.2) : Plain (.obj ms)

theorem Plain.items {xs : List Json} (h : Plain (.arr xs)) : ∀ x ∈ xs, Plain x := by
  cases h with
  | scalar h => cases h
  | arr hitems => exact hitems

theorem Plain.keys {ms : Members} (h : Plain (.obj ms)) : ∀ m ∈ ms, Path.PlainKey m.1 := by
  cases h with
  | scalar h => cases h
  | obj _ hkeys _ => exact hkeys

theorem Plain.values {ms : Members} (h : Plain (.obj ms)) : ∀ m ∈ ms, Plain m.2 := by
  cases h with
  | scalar h => cases h
  | obj _ _ hvalues => exact hvalues

theorem Plain.distinct {ms : Members} (h : Plain (.obj ms)) : ms.keys.Nodup := by
  cases h with
  | scalar h => cases h
  | obj hdistinct _ _ => exact hdistinct

/-! ## Deciding that a document is plain -/

mutual

/-- **Deciding that a document is plain.** -/
def isPlain : Json → Bool
  | .arr xs => arePlain xs
  | .obj ms => decide (Members.keys ms).Nodup && arePlainMembers ms
  | _ => true

/-- All of the values are plain. -/
def arePlain : List Json → Bool
  | [] => true
  | x :: xs => x.isPlain && arePlain xs

/-- All members have a plain key and a plain value. -/
def arePlainMembers : List (String × Json) → Bool
  | [] => true
  | (key, value) :: ms => decide (Path.PlainKey key) && value.isPlain && arePlainMembers ms

end

theorem arePlain_iff {xs : List Json} : arePlain xs = true ↔ ∀ x ∈ xs, x.isPlain = true := by
  induction xs with
  | nil => simp [arePlain]
  | cons x xs ih => rw [arePlain, Bool.and_eq_true, ih, List.forall_mem_cons]

theorem arePlainMembers_iff {ms : Members} :
    arePlainMembers ms = true ↔ ∀ m ∈ ms, Path.PlainKey m.1 ∧ m.2.isPlain = true := by
  induction ms with
  | nil => simp [arePlainMembers]
  | cons m ms ih =>
    rw [arePlainMembers, Bool.and_eq_true, Bool.and_eq_true, decide_eq_true_iff, ih,
      List.forall_mem_cons]

theorem plain_of_isPlain : ∀ value : Json, value.isPlain = true → value.Plain
  | .arr xs, h => .arr fun x hx => plain_of_isPlain x (arePlain_iff.mp h x hx)
  | .obj ms, h => by
    rw [isPlain, Bool.and_eq_true, decide_eq_true_iff, arePlainMembers_iff] at h
    exact .obj h.1 (fun m hm => (h.2 m hm).1) fun m hm => plain_of_isPlain m.2 (h.2 m hm).2
  | .null, _ => .scalar rfl
  | .bool _, _ => .scalar rfl
  | .num _, _ => .scalar rfl
  | .str _, _ => .scalar rfl
decreasing_by
  · have hlt := List.sizeOf_lt_of_mem hx
    rw [Json.arr.sizeOf_spec]
    omega
  · have hlt := List.sizeOf_lt_of_mem hm
    rw [Prod.mk.sizeOf_spec] at hlt
    rw [Json.obj.sizeOf_spec]
    omega

theorem Plain.isPlain {value : Json} (h : value.Plain) : value.isPlain = true := by
  induction h with
  | @scalar value h =>
    cases value with
    | arr xs => cases h
    | obj ms => cases h
    | _ => rfl
  | arr _ ih => exact arePlain_iff.mpr ih
  | obj hdistinct hkeys _ ih =>
    rw [Json.isPlain, Bool.and_eq_true, decide_eq_true_iff, arePlainMembers_iff]
    exact ⟨hdistinct, fun m hm => ⟨hkeys m hm, ih m hm⟩⟩

instance (value : Json) : Decidable value.Plain :=
  decidable_of_iff (value.isPlain = true) ⟨plain_of_isPlain value, Plain.isPlain⟩

/-! ## Children -/

@[simp] theorem child?_empty (node : Json) : child? "" node = some node := rfl

theorem child?_obj {key : String} (h : key ≠ "") (ms : Members) :
    child? key (.obj ms) = ms.get? key := if_neg h

theorem child?_arr {key : String} (h : key ≠ "") (xs : List Json) :
    child? key (.arr xs) = (Decimal.unsigned? key.toList).bind fun n => xs[n]? := if_neg h

theorem child?_scalar {key : String} (h : key ≠ "") {node : Json}
    (hnode : node.isContainer = false) : child? key node = none := by
  cases node with
  | obj ms => cases hnode
  | arr xs => cases hnode
  | _ => exact if_neg h

/-! ## Properties of all values of a document -/

/-- **A property that a value passes on** to the values in it. -/
structure Hereditary (P : Json → Prop) : Prop where
  items : ∀ {xs : List Json}, P (.arr xs) → ∀ x ∈ xs, P x
  values : ∀ {ms : Members}, P (.obj ms) → ∀ m ∈ ms, P m.2

theorem Plain.hereditary : Hereditary Plain :=
  ⟨Plain.items, Plain.values⟩

section Hereditary

variable {P : Json → Prop} {node value : Json}

theorem Hereditary.child? (hP : Hereditary P) (h : P node) {key : String}
    (hv : node.child? key = some value) : P value := by
  by_cases hkey : key = ""
  · rw [hkey, child?_empty] at hv
    exact Option.some.inj hv ▸ h
  · cases node with
    | obj ms =>
      rw [child?_obj hkey] at hv
      exact hP.values h _ (mem_of_lookup hv)
    | arr xs =>
      rw [child?_arr hkey] at hv
      obtain ⟨n, -, hn⟩ := Option.bind_eq_some_iff.mp hv
      exact hP.items h _ (List.mem_of_getElem? hn)
    | _ =>
      rw [child?_scalar hkey rfl] at hv
      cases hv

theorem Hereditary.item? (hP : Hereditary P) (h : P node) {n : Nat}
    (hv : node.item? n = some value) : P value := by
  cases node with
  | arr xs => exact hP.items h _ (List.mem_of_getElem? hv)
  | _ => cases hv

end Hereditary

/-! ## Positions -/

theorem itemAt?_concat (ns : List Nat) (n : Nat) (node : Json) :
    itemAt? (ns ++ [n]) node = (itemAt? ns node).bind (item? n) := by
  rw [itemAt?, List.foldl_append]
  rfl

theorem itemAt?_cons (n : Nat) (ns : List Nat) (node : Json) :
    itemAt? (n :: ns) node = (node.item? n).bind (itemAt? ns) := by
  induction ns using List.reverseRecOn with
  | nil => exact (Option.bind_fun_some (node.item? n)).symm
  | append_singleton ns m ih =>
    rw [← List.cons_append, itemAt?_concat, ih, Option.bind_assoc]
    exact Option.bind_congr fun v _ => (itemAt?_concat ns m v).symm

section Hereditary

variable {P : Json → Prop} {node value : Json}

theorem Hereditary.itemAt? (hP : Hereditary P) (h : P node) {ns : List Nat}
    (hv : node.itemAt? ns = some value) : P value := by
  induction ns generalizing node with
  | nil => exact Option.some.inj hv ▸ h
  | cons n ns ih =>
    rw [itemAt?_cons] at hv
    obtain ⟨x, hx, hv⟩ := Option.bind_eq_some_iff.mp hv
    exact ih (hP.item? h hx) hv

theorem Hereditary.indexed? (hP : Hereditary P) (h : P node) {raw : List Char}
    (hv : indexed? raw node = some value) : P value := by
  rw [Json.indexed?] at hv
  split at hv
  · obtain ⟨base, hbase, hv⟩ := Option.bind_eq_some_iff.mp hv
    exact hP.itemAt? (hP.child? h hbase) hv
  · cases hv

theorem Hereditary.step? (hP : Hereditary P) (h : P node) {raw : List Char}
    (hv : step? raw node = some value) : P value := by
  cases node with
  | obj ms =>
    rw [Json.step?] at hv
    split at hv
    · next v hm =>
      cases hv
      exact hP.values h _ (mem_of_lookup hm)
    · exact hP.indexed? h hv
  | arr xs =>
    rw [Json.step?] at hv
    split at hv
    · exact hP.items h _ (List.mem_of_getElem? hv)
    · exact hP.indexed? h hv
  | _ => cases hv

/-- **What is read in a document** has the property of the document. -/
theorem Hereditary.get? (hP : Hereditary P) (h : P node) {path : String}
    (hv : node.get? path = some value) : P value := by
  rw [get?_eq_follow?] at hv
  generalize Path.written path = raws at hv
  induction raws generalizing node with
  | nil => exact Option.some.inj hv ▸ h
  | cons raw raws ih =>
    obtain ⟨x, hx, hv⟩ := Option.bind_eq_some_iff.mp hv
    exact ih (hP.step? h hx) hv

end Hereditary

end Json

/-! ## Following segments -/

/-- The position that a suffix goes to, or goes to first. -/
def Path.Suffix.position : Path.Suffix → Nat
  | .every => 0
  | .at n => n

/-- The first value that a segment leads to. -/
def Path.Segment.first? (s : Path.Segment) (node : Json) : Option Json :=
  (node.child? s.key).bind (Json.itemAt? (s.access.suffixes.map Path.Suffix.position))

namespace Json

/-- **The first value that segments lead to.** -/
def first? : List Path.Segment → Json → Option Json
  | [], node => some node
  | s :: ss, node => (s.first? node).bind (first? ss)

theorem first?_append (ss ts : List Path.Segment) (node : Json) :
    first? (ss ++ ts) node = (first? ss node).bind (first? ts) := by
  induction ss generalizing node with
  | nil => rfl
  | cons s ss ih =>
    rw [List.cons_append, first?, first?, Option.bind_assoc]
    exact Option.bind_congr fun v _ => ih v

theorem first?_concat (ss : List Path.Segment) (s : Path.Segment) (node : Json) :
    first? (ss ++ [s]) node = (first? ss node).bind s.first? := by
  rw [first?_append]
  exact Option.bind_congr fun v _ => Option.bind_fun_some (s.first? v)

/-! ## All values of a path -/

/-- Of what the first elements of the first elements lead to, the first comes first. -/
theorem everyItem_cons {count : Nat} {node value : Json} (rest : List Json)
    (h : itemAt? (List.replicate count 0) node = some value) :
    ∃ others, everyItem count (node :: rest) = value :: others := by
  induction count generalizing node rest with
  | zero => exact ⟨rest, congrArg (· :: rest) (Option.some.inj h)⟩
  | succ count ih =>
    rw [List.replicate_succ, itemAt?_cons] at h
    obtain ⟨x, hx, h⟩ := Option.bind_eq_some_iff.mp h
    cases node with
    | arr xs =>
      cases xs with
      | nil => cases hx
      | cons y ys =>
        cases Option.some.inj hx
        exact ih _ h
    | _ => cases hx

theorem expand_of_first? {s : Path.Segment} {node value : Json} (h : s.first? node = some value) :
    ∃ others, expand s node = value :: others := by
  obtain ⟨base, hbase, h⟩ := Option.bind_eq_some_iff.mp h
  rw [expand, hbase]
  dsimp only
  cases ha : s.access with
  | plain =>
    rw [ha] at h
    exact ⟨[], congrArg (· :: []) (Option.some.inj h)⟩
  | wildcard count =>
    rw [ha, Path.Access.suffixes, List.map_replicate] at h
    exact everyItem_cons [] h
  | indices ns =>
    rw [ha, Path.Access.suffixes, List.map_map] at h
    refine ⟨[], ?_⟩
    change itemAt? (ns.map id) base = some value at h
    rw [List.map_id] at h
    dsimp only
    rw [h, Option.toList_some]

theorem expandAll_of_first? {ss : List Path.Segment} {node value : Json} (rest : List Json)
    (h : first? ss node = some value) :
    ∃ others, expandAll ss (node :: rest) = value :: others := by
  induction ss generalizing node rest with
  | nil => exact ⟨rest, congrArg (· :: rest) (Option.some.inj h)⟩
  | cons s ss ih =>
    obtain ⟨x, hx, h⟩ := Option.bind_eq_some_iff.mp h
    obtain ⟨others, hothers⟩ := expand_of_first? hx
    obtain ⟨found, hfound⟩ := ih (others ++ rest.flatMap (expand s)) h
    refine ⟨found, ?_⟩
    rw [← hfound, expandAll, List.foldl_cons, List.flatMap_cons, hothers, List.cons_append]
    rfl

/-- **The first value of all.** -/
theorem head?_getAll_text {ss : List Path.Segment} {root value : Json}
    (hss : ∀ s ∈ ss, s.Proper) (h : first? ss root = some value) :
    (root.getAll (Path.text ss)).head? = some value := by
  obtain ⟨others, hothers⟩ := expandAll_of_first? [] h
  rw [getAll, Path.parse_text hss]
  dsimp only
  rw [hothers, List.head?_cons]

/-! ## The value at a path -/

theorem unsigned?_eq_none_of_mem {cs : List Char} {c : Char} (hc : c ∈ cs) (hplus : c ≠ '+')
    (hdigit : Decimal.isDigit c = false) : Decimal.unsigned? cs = none := by
  have hall : ∀ ds : List Char, c ∈ ds → (ds.isEmpty || !ds.all Decimal.isDigit) = true := by
    intro ds hd
    rw [Bool.or_eq_true, Bool.not_eq_true', List.all_eq_false]
    exact .inr ⟨c, hd, by rw [hdigit]; exact Bool.false_ne_true⟩
  unfold Decimal.unsigned?
  split
  case h_1 ds => exact if_pos (hall ds ((List.mem_cons.mp hc).resolve_left hplus))
  case h_2 => exact if_pos (hall cs hc)

/-- A segment with positions is read off its text. -/
theorem indexed?_text {s : Path.Segment} (h : s.Proper) {ns : List Nat}
    (ha : s.access = .indices ns) (node : Json) :
    indexed? s.text.toList node = (node.child? s.key).bind (itemAt? ns) := by
  obtain ⟨key, access⟩ := s
  cases ha
  rw [indexed?, Path.parseSegment_text h]

/-- A key is looked up as it stands. -/
theorem step?_of_child? {key : String} (hkey : key ≠ "") {node value : Json}
    (h : node.child? key = some value) : step? key.toList node = some value := by
  cases node with
  | obj ms =>
    rw [child?_obj hkey] at h
    rw [step?, String.ofList_toList, h]
  | arr xs =>
    rw [child?_arr hkey] at h
    obtain ⟨n, hn, hx⟩ := Option.bind_eq_some_iff.mp h
    rw [step?, hn]
    exact hx
  | _ =>
    rw [child?_scalar hkey rfl] at h
    cases h

/-- A scalar has no elements, and no members either. -/
theorem isContainer_of_itemAt? {node base value : Json} {key : String} {ns : List Nat}
    (hns : ns ≠ []) (hbase : node.child? key = some base) (h : base.itemAt? ns = some value) :
    node.isContainer = true := by
  cases hnode : node.isContainer with
  | true => rfl
  | false =>
    by_cases hkey : key = ""
    · -- a scalar is its own child under the empty key
      rw [hkey, child?_empty] at hbase
      cases Option.some.inj hbase
      obtain ⟨n, ns', rfl⟩ := List.exists_cons_of_ne_nil hns
      obtain ⟨x, hx, -⟩ := Option.bind_eq_some_iff.mp (itemAt?_cons n ns' node ▸ h)
      cases node with
      | arr xs => cases hnode
      | _ => cases hx
    · rw [child?_scalar hkey hnode] at hbase
      cases hbase

/-- Where no member has the text of a segment with positions, the segment is read off it. -/
theorem step?_of_indexed? {s : Path.Segment} (hopen : '[' ∈ s.text.toList) {node value : Json}
    (hplain : node.Plain) (hcontainer : node.isContainer = true)
    (h : indexed? s.text.toList node = some value) : step? s.text.toList node = some value := by
  cases node with
  | obj ms =>
    -- the keys of the object are plain, so none of them has a bracket in it
    have hnone : Members.get? ms (String.ofList s.text.toList) = none := by
      by_contra hsome
      obtain ⟨x, hx⟩ := Option.ne_none_iff_exists'.mp hsome
      have hunstructured := (hplain.keys _ (mem_of_lookup hx)).2
      rw [String.ofList_toList] at hunstructured
      exact (hunstructured _ hopen).2.1 rfl
    rw [step?, hnone]
    exact h
  | arr xs =>
    rw [step?, unsigned?_eq_none_of_mem hopen (by decide) (by decide)]
    exact h
  | _ => cases hcontainer

/-- **One step**, by the text of a segment without wildcards. -/
theorem step?_text {s : Path.Segment} (h : s.Proper) (hw : ∀ count, s.access ≠ .wildcard count)
    {node value : Json} (hplain : node.Plain) (hv : s.first? node = some value) :
    step? s.text.toList node = some value := by
  obtain ⟨base, hbase, hv⟩ := Option.bind_eq_some_iff.mp hv
  cases ha : s.access with
  | wildcard count => exact absurd ha (hw count)
  | plain =>
    obtain ⟨key, access⟩ := s
    cases ha
    have htext : Path.Segment.text ⟨key, .plain⟩ = key := String.append_empty
    rw [htext]
    cases Option.some.inj hv
    exact step?_of_child? (fun e => h.nonempty e rfl) hbase
  | indices ns =>
    have hns : ns ≠ [] := by
      have haccess := h.access
      rw [ha] at haccess
      exact haccess.1
    rw [ha, Path.Access.suffixes, List.map_map] at hv
    change base.itemAt? (ns.map id) = some value at hv
    rw [List.map_id] at hv
    have hopen : '[' ∈ s.text.toList := by
      obtain ⟨n, ns', rfl⟩ := List.exists_cons_of_ne_nil hns
      rw [Path.Segment.toList_text, ha, Path.Access.suffixes, List.map_cons, List.flatMap_cons]
      simp [Path.Suffix.text]
    refine step?_of_indexed? hopen hplain (isContainer_of_itemAt? hns hbase hv) ?_
    rw [indexed?_text h ha, hbase]
    exact hv

/-- **The value at a path** without wildcards. -/
theorem get?_text {ss : List Path.Segment} {root value : Json} (hss : ∀ s ∈ ss, s.Proper)
    (hw : ∀ s ∈ ss, ∀ count, s.access ≠ .wildcard count) (hplain : root.Plain)
    (h : first? ss root = some value) : root.get? (Path.text ss) = some value := by
  rw [get?_eq_follow?, Path.written_text hss]
  induction ss generalizing root with
  | nil => exact h
  | cons s ss ih =>
    obtain ⟨x, hx, h⟩ := Option.bind_eq_some_iff.mp h
    have hxplain : x.Plain := by
      obtain ⟨base, hbase, hx⟩ := Option.bind_eq_some_iff.mp hx
      exact Plain.hereditary.itemAt? (Plain.hereditary.child? hplain hbase) hx
    rw [List.map_cons, follow?, step?_text (hss s List.mem_cons_self) (hw s List.mem_cons_self)
      hplain hx, Option.bind_some]
    exact ih (fun t ht => hss t (List.mem_cons_of_mem s ht))
      (fun t ht => hw t (List.mem_cons_of_mem s ht)) hxplain h

end Json

end Reshape
