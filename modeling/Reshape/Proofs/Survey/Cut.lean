/-
# Reshape.Proofs.Survey.Cut -- a survey that enters objects only

With neither kind of array suffix asked for, a survey enters objects and nothing else: it cuts the
tree of objects off at a depth and lists what is left hanging there, in document order. `cut` is
that list, with keys in place of paths, and `fields_eq_map_cutMembers` says that the survey is the
same list written with paths.

A cut loses nothing. Storing its values in order, each one under its own keys, builds the object
anew, with every member at its old place (`foldl_store_cutMembers_nil`). The induction is on the
document; what carries it is that the keys of a member are used in one run, so that all values below
the member go into the object that the first of them has made (`foldl_store_under`).
-/

import Reshape.Proofs.Survey.Resolve

namespace Reshape

/-! ## Storing members in order -/

namespace Members

theorem insert_concat {ms : Members} {key : String} (h : key ∉ ms.keys) (old value : Json) :
    insert key value (ms ++ [(key, old)]) = ms ++ [(key, value)] := by
  induction ms with
  | nil => exact if_pos rfl
  | cons m ms ih =>
    obtain ⟨hm, hms⟩ := List.ne_and_not_mem_of_not_mem_cons h
    rw [List.cons_append, insert, if_neg (Ne.symm hm), ih hms, List.cons_append]

theorem get?_concat {ms : Members} {key : String} (h : key ∉ ms.keys) (value : Json) :
    get? (ms ++ [(key, value)]) key = some value := by
  rw [get?, List.lookup_append, lookup_eq_none h, Option.none_or]
  exact List.lookup_cons_self

end Members

/-! ## Paths of keys -/

namespace Path

/-- A key as a segment. -/
def keySegment (key : String) : Segment :=
  ⟨key, .plain⟩

/-- **The path that goes from key to key.** -/
def ofKeys (keys : List String) : String :=
  text (keys.map keySegment)

variable {keys : List String}

theorem proper_keySegments (h : ∀ k ∈ keys, PlainKey k) : ∀ s ∈ keys.map keySegment, s.Proper := by
  intro s hs
  obtain ⟨k, hk, rfl⟩ := List.mem_map.mp hs
  exact ⟨(h k hk).2, trivial, fun e => absurd e (h k hk).1⟩

theorem text_keySegment (key : String) : (keySegment key).text = key := String.append_empty

theorem ofKeys_concat (h : ∀ k ∈ keys, PlainKey k) (key : String) :
    ofKeys (keys ++ [key]) = below (ofKeys keys) key := by
  rw [ofKeys, List.map_append, List.map_singleton, text_concat (proper_keySegments h),
    text_keySegment, ofKeys]

theorem ofKeys_ne_empty (hkeys : keys ≠ []) (h : ∀ k ∈ keys, PlainKey k) : ofKeys keys ≠ "" :=
  text_ne_empty (fun e => hkeys (List.map_eq_nil_iff.mp e)) (proper_keySegments h)

theorem valid_ofKeys (h : ∀ k ∈ keys, PlainKey k) : valid (ofKeys keys) = true := by
  rw [valid, ofKeys, parse_text (proper_keySegments h)]
  rfl

theorem written_ofKeys (h : ∀ k ∈ keys, PlainKey k) :
    written (ofKeys keys) = keys.map String.toList := by
  rw [ofKeys, written_text (proper_keySegments h), List.map_map]
  exact List.map_congr_left fun k _ => congrArg String.toList (text_keySegment k)

/-- A path of plain keys has no bracket in it. -/
theorem open_not_mem_ofKeys (h : ∀ k ∈ keys, PlainKey k) : '[' ∉ (ofKeys keys).toList := by
  induction keys with
  | nil => exact List.not_mem_nil
  | cons k ks ih =>
    rw [List.forall_mem_cons] at h
    have hk : '[' ∉ k.toList := fun hc => (h.1.2 _ hc).2.1 rfl
    cases ks with
    | nil =>
      rw [ofKeys, text, List.map_singleton, List.map_singleton, String.intercalate_singleton,
        text_keySegment]
      exact hk
    | cons l ls =>
      have hrest := ih h.2
      rw [ofKeys, List.map_cons] at hrest
      rw [ofKeys, List.map_cons, List.map_cons, text_cons_cons, text_keySegment,
        String.toList_append, String.toList_append, List.mem_append, List.mem_append]
      exact not_or_intro (not_or_intro hk (by decide)) hrest

theorem hasWildcard_ofKeys (h : ∀ k ∈ keys, PlainKey k) : hasWildcard (ofKeys keys) = false := by
  rw [← Bool.not_eq_true, hasWildcard, Text.contains_iff_infix]
  exact fun hin => open_not_mem_ofKeys h (hin.subset List.mem_cons_self)

end Path

namespace Survey

/-! ## Cuts -/

/-- A value with the keys that lead to it, below one more key. -/
def under (key : String) (e : List String × Json) : List String × Json :=
  (key :: e.1, e.2)

mutual

/-- **A cut through a value**: objects are entered as long as there is depth left, and whatever else
is met is listed with the keys that lead to it. -/
def cut (depth : Nat) : Json → List (List String × Json)
  | .obj ms =>
    if ms.isEmpty || depth = 0 then [([], .obj ms)] else cutMembers (depth - 1) ms
  | value => [([], value)]

/-- A cut through the members of an object. -/
def cutMembers (depth : Nat) : List (String × Json) → List (List String × Json)
  | [] => []
  | (key, value) :: ms => (cut depth value).map (under key) ++ cutMembers depth ms

end

theorem cutMembers_eq_flatMap (depth : Nat) (ms : Members) :
    cutMembers depth ms = ms.flatMap fun m => (cut depth m.2).map (under m.1) := by
  induction ms with
  | nil => rfl
  | cons m ms ih => rw [cutMembers, ih, List.flatMap_cons]

theorem mem_cutMembers {depth : Nat} {ms : Members} {e : List String × Json}
    (h : e ∈ cutMembers depth ms) : ∃ m ∈ ms, ∃ e' ∈ cut depth m.2, under m.1 e' = e := by
  rw [cutMembers_eq_flatMap] at h
  obtain ⟨m, hm, h⟩ := List.mem_flatMap.mp h
  exact ⟨m, hm, List.mem_map.mp h⟩

/-- A value is listed as it is: it is no object, or one that is not entered. -/
def Listed (depth : Nat) (value : Json) : Prop :=
  ∀ ms, value = .obj ms → ms = [] ∨ depth = 0

theorem isEmpty_or_iff {depth : Nat} {ms : Members} :
    (ms.isEmpty || depth = 0) = true ↔ ms = [] ∨ depth = 0 := by
  rw [Bool.or_eq_true, List.isEmpty_iff, decide_eq_true_iff]

theorem cut_of_listed {depth : Nat} {value : Json} (h : Listed depth value) :
    cut depth value = [([], value)] := by
  cases value with
  | obj ms => rw [cut, if_pos (isEmpty_or_iff.mpr (h ms rfl))]
  | _ => rfl

theorem cut_obj {depth : Nat} {ms : Members} (h : ¬ (ms = [] ∨ depth = 0)) :
    cut depth (.obj ms) = cutMembers (depth - 1) ms := by
  rw [cut, if_neg (isEmpty_or_iff.not.mpr h)]

/-- **Induction along a cut** through a plain value: what is listed, and objects whose members are
cut through. -/
theorem cut_induction {motive : Nat → Json → Prop}
    (listed : ∀ depth value, Listed depth value → motive depth value)
    (entered : ∀ depth ms, (Json.obj ms).Plain → ¬ (ms = [] ∨ depth = 0) →
      (∀ m ∈ ms, motive (depth - 1) m.2) → motive depth (.obj ms))
    {value : Json} (hplain : value.Plain) (depth : Nat) : motive depth value := by
  induction hplain generalizing depth with
  | @scalar value h =>
    refine listed depth value fun ms hms => ?_
    rw [hms] at h
    cases h
  | arr _ _ => exact listed depth _ fun ms hms => nomatch hms
  | @obj ms hdistinct hkeys hvalues ih =>
    by_cases hstop : ms = [] ∨ depth = 0
    · exact listed depth _ fun ns hns => Json.obj.inj hns ▸ hstop
    · exact entered depth ms (.obj hdistinct hkeys hvalues) hstop fun m hm => ih m hm (depth - 1)

theorem cut_ne_nil {value : Json} (hplain : value.Plain) (depth : Nat) : cut depth value ≠ [] := by
  refine cut_induction (motive := fun depth value => cut depth value ≠ []) ?_ ?_ hplain depth
  · intro depth value h
    rw [cut_of_listed h]
    exact List.cons_ne_nil _ _
  · intro depth ms _ hstop ih
    obtain ⟨m, ms, rfl⟩ := List.exists_cons_of_ne_nil fun e => hstop (.inl e)
    have hm := ih m List.mem_cons_self
    rw [cut_obj hstop, cutMembers]
    exact List.append_ne_nil_of_left_ne_nil (mt List.map_eq_nil_iff.mp hm) _

/-- Plain keys lead to a value. -/
def LedBy (root : Json) (e : List String × Json) : Prop :=
  (∀ k ∈ e.1, Path.PlainKey k) ∧ Json.Leads e.2 (e.1.map String.toList) root

theorem LedBy.under {ms : Members} (hms : (Json.obj ms).Plain) {m : String × Json} (hm : m ∈ ms)
    {e : List String × Json} (h : LedBy m.2 e) : LedBy (.obj ms) (under m.1 e) := by
  refine ⟨List.forall_mem_cons.mpr ⟨hms.keys m hm, h.1⟩, .member ?_ h.2⟩
  rw [String.ofList_toList]
  exact lookup_of_mem hms.distinct hm

/-- **Where the keys of a cut lead** is what the cut lists with them. -/
theorem ledBy_of_mem_cut {value : Json} (hplain : value.Plain) (depth : Nat) :
    ∀ e ∈ cut depth value, LedBy value e := by
  refine cut_induction (motive := fun depth value => ∀ e ∈ cut depth value, LedBy value e)
    ?_ ?_ hplain depth
  · intro depth value h e he
    rw [cut_of_listed h, List.mem_singleton] at he
    subst he
    exact ⟨fun k hk => absurd hk List.not_mem_nil, .here⟩
  · intro depth ms hms hstop ih e he
    rw [cut_obj hstop] at he
    obtain ⟨m, hm, e', he', rfl⟩ := mem_cutMembers he
    exact (ih m hm e' he').under hms hm

theorem ledBy_of_mem_cutMembers {ms : Members} (hplain : (Json.obj ms).Plain) {depth : Nat}
    {e : List String × Json} (he : e ∈ cutMembers depth ms) : LedBy (.obj ms) e := by
  obtain ⟨m, hm, e', he', rfl⟩ := mem_cutMembers he
  exact (ledBy_of_mem_cut (hplain.values m hm) depth e' he').under hplain hm

/-! ## Storing what was cut -/

/-- **Store a value under its keys.** -/
def store (out : Json) (e : List String × Json) : Json :=
  Json.put e.2 (e.1.map String.toList) out

theorem exists_store_obj (ms : Members) {e : List String × Json} (h : e.1 ≠ []) :
    ∃ ns, store (.obj ms) e = .obj ns := by
  obtain ⟨k, ks, hkeys⟩ := List.exists_cons_of_ne_nil h
  rw [store, hkeys]
  cases ks with
  | nil => exact ⟨_, rfl⟩
  | cons l ls => exact ⟨_, rfl⟩

theorem store_under (key : String) {e : List String × Json} (h : e.1 ≠ []) (ms : Members) :
    store (.obj ms) (under key e) =
      .obj (ms.insert key (store (Json.containerOr (ms.get? key)) e)) := by
  have hkeys : e.1.map String.toList ≠ [] := mt List.map_eq_nil_iff.mp h
  change Json.put e.2 (key.toList :: e.1.map String.toList) (.obj ms) = _
  rw [Json.put_cons_obj e.2 key.toList hkeys, String.ofList_toList, store]

/-- Behind an object that has no such key yet, values below the key make an object of their own. -/
theorem foldl_store_under {ms : Members} {key : String} (hkey : key ∉ ms.keys)
    {es : List (List String × Json)} (hes : ∀ e ∈ es, e.1 ≠ []) (cs : Members) :
    (es.map (under key)).foldl store (.obj (ms ++ [(key, .obj cs)])) =
      .obj (ms ++ [(key, es.foldl store (.obj cs))]) := by
  induction es generalizing cs with
  | nil => rfl
  | cons e es ih =>
    rw [List.forall_mem_cons] at hes
    obtain ⟨ds, hds⟩ := exists_store_obj cs hes.1
    rw [List.map_cons, List.foldl_cons, List.foldl_cons, store_under key hes.1,
      Members.get?_concat hkey, Json.containerOr, hds, Members.insert_concat hkey]
    exact ih hes.2 ds

/-- The first of the values below a new key makes that object. -/
theorem foldl_store_under_of_not_mem {ms : Members} {key : String} (hkey : key ∉ ms.keys)
    {es : List (List String × Json)} (hne : es ≠ []) (hes : ∀ e ∈ es, e.1 ≠ []) :
    (es.map (under key)).foldl store (.obj ms) =
      .obj (ms ++ [(key, es.foldl store (.obj []))]) := by
  rw [← foldl_store_under hkey hes []]
  obtain ⟨e, es, rfl⟩ := List.exists_cons_of_ne_nil hne
  have he := hes e List.mem_cons_self
  rw [List.map_cons, List.foldl_cons, List.foldl_cons, store_under key he, store_under key he,
    Members.get?_of_not_mem hkey, Members.get?_concat hkey, Members.insert_of_not_mem hkey,
    Members.insert_concat hkey]
  rfl

/-- **Members are stored one after the other**, provided that the values of each one are. -/
theorem foldl_store_cutMembers {depth : Nat} {ms : Members} (hdistinct : ms.keys.Nodup)
    (hms : ∀ m ∈ ms, ∀ ns : Members, m.1 ∉ ns.keys →
      ((cut depth m.2).map (under m.1)).foldl store (.obj ns) = .obj (ns ++ [m]))
    {ns : Members} (hns : ∀ m ∈ ms, m.1 ∉ ns.keys) :
    (cutMembers depth ms).foldl store (.obj ns) = .obj (ns ++ ms) := by
  induction ms generalizing ns with
  | nil => rw [cutMembers, List.foldl_nil, List.append_nil]
  | cons m ms ih =>
    obtain ⟨hm, hdistinct⟩ := List.nodup_cons.mp hdistinct
    rw [List.forall_mem_cons] at hms hns
    rw [cutMembers, List.foldl_append, hms.1 ns hns.1, ih hdistinct hms.2, List.append_assoc,
      List.singleton_append]
    intro m' hm'
    rw [Members.keys, List.map_append, List.mem_append, List.map_singleton, List.mem_singleton]
    rintro (h | h)
    · exact hns.2 m' hm' h
    · exact hm (h ▸ List.mem_map_of_mem hm')

/-- **The values of a cut, stored below a new key**, make up the value that was cut. -/
theorem foldl_store_cut {value : Json} (hplain : value.Plain) (depth : Nat) :
    ∀ (ms : Members) (key : String), key ∉ ms.keys →
      ((cut depth value).map (under key)).foldl store (.obj ms) = .obj (ms ++ [(key, value)]) := by
  refine cut_induction (motive := fun depth value => ∀ (ms : Members) (key : String),
    key ∉ ms.keys →
      ((cut depth value).map (under key)).foldl store (.obj ms) = .obj (ms ++ [(key, value)]))
    ?_ ?_ hplain depth
  · intro depth value h ms key hkey
    rw [cut_of_listed h, List.map_singleton, List.foldl_cons, List.foldl_nil,
      ← Members.insert_of_not_mem hkey]
    exact congrArg (fun k => Json.obj (ms.insert k value)) String.ofList_toList
  · intro depth cs hcs hstop ih ms key hkey
    have hne := cut_ne_nil hcs depth
    rw [cut_obj hstop] at hne ⊢
    have hbelow : ∀ e ∈ cutMembers (depth - 1) cs, e.1 ≠ [] := by
      intro e he
      obtain ⟨m, -, e', -, rfl⟩ := mem_cutMembers he
      exact List.cons_ne_nil _ _
    rw [foldl_store_under_of_not_mem hkey hne hbelow, foldl_store_cutMembers hcs.distinct
      (fun m hm ns => ih m hm ns m.1) (fun m _ => List.not_mem_nil), List.nil_append]

/-- **An object is built anew from a cut through its members.** -/
theorem foldl_store_cutMembers_nil {ms : Members} (hplain : (Json.obj ms).Plain) (depth : Nat) :
    (cutMembers depth ms).foldl store (.obj []) = .obj ms :=
  foldl_store_cutMembers hplain.distinct
    (fun m hm ns hns => foldl_store_cut (hplain.values m hm) depth ns m.1 hns)
    fun _ _ => List.not_mem_nil

/-! ## A survey as a cut -/

/-- The field of a value that was cut off, below keys. -/
def cutField (o : Options) (keys : List String) (e : List String × Json) : Field :=
  field o (Path.ofKeys (keys ++ e.1)) e.2

variable {o : Options}

theorem walk_of_listed (hwild : o.includeWildcards = false) (hindex : o.includeFixedIndices = false)
    {path : String} (hpath : path ≠ "") {depth : Nat} {value : Json} (h : Listed depth value) :
    walk o path depth value = [field o path value] := by
  cases value with
  | obj ms => rw [walk, if_pos (isEmpty_or_iff.mpr (h ms rfl)), if_neg hpath]
  | arr xs =>
    rw [walk, hwild, hindex]
    exact ite_self _
  | _ => rfl

theorem cutField_under (keys : List String) (key : String) (e : List String × Json) :
    cutField o keys (under key e) = cutField o (keys ++ [key]) e := by
  rw [cutField, cutField, under, List.append_assoc, List.singleton_append]

theorem walkMembers_eq_map_cutMembers {keys : List String} (hkeys : ∀ k ∈ keys, Path.PlainKey k)
    {depth : Nat} {ms : Members}
    (h : ∀ m ∈ ms, walk o (Path.ofKeys (keys ++ [m.1])) depth m.2 =
      (cut depth m.2).map (cutField o (keys ++ [m.1]))) :
    walkMembers o (Path.ofKeys keys) depth ms = (cutMembers depth ms).map (cutField o keys) := by
  rw [walkMembers_eq_flatMap, cutMembers_eq_flatMap, List.map_flatMap]
  refine List.flatMap_congr fun m hm => ?_
  rw [← Path.ofKeys_concat hkeys, h m hm, List.map_map]
  exact List.map_congr_left fun e _ => (cutField_under keys m.1 e).symm

/-- **A survey that enters objects only lists a cut.** -/
theorem walk_eq_map_cut (hwild : o.includeWildcards = false)
    (hindex : o.includeFixedIndices = false) {value : Json} (hplain : value.Plain) (depth : Nat) :
    ∀ keys : List String, keys ≠ [] → (∀ k ∈ keys, Path.PlainKey k) →
      walk o (Path.ofKeys keys) depth value = (cut depth value).map (cutField o keys) := by
  refine cut_induction (motive := fun depth value => ∀ keys : List String, keys ≠ [] →
    (∀ k ∈ keys, Path.PlainKey k) →
      walk o (Path.ofKeys keys) depth value = (cut depth value).map (cutField o keys))
    ?_ ?_ hplain depth
  · intro depth value h keys hne hkeys
    rw [cut_of_listed h, walk_of_listed hwild hindex (Path.ofKeys_ne_empty hne hkeys) h,
      List.map_singleton, cutField, List.append_nil]
  · intro depth ms hms hstop ih keys hne hkeys
    rw [cut_obj hstop, walk, if_neg (isEmpty_or_iff.not.mpr hstop)]
    refine walkMembers_eq_map_cutMembers hkeys fun m hm => ih m hm _ ?_ ?_
    · exact List.append_ne_nil_of_right_ne_nil keys (List.cons_ne_nil _ _)
    · exact List.forall_mem_append.mpr ⟨hkeys, List.forall_mem_singleton.mpr (hms.keys m hm)⟩

/-- **The fields of an object are a cut through its members**, if there is any depth at all. -/
theorem fields_eq_map_cutMembers (hwild : o.includeWildcards = false)
    (hindex : o.includeFixedIndices = false) (hdepth : 1 ≤ o.maxDepth) {ms : Members}
    (hplain : (Json.obj ms).Plain) :
    fields o "" (.obj ms) = (cutMembers (o.maxDepth - 1) ms).map (cutField o []) := by
  have hnone : ∀ k ∈ ([] : List String), Path.PlainKey k := fun k hk => absurd hk List.not_mem_nil
  by_cases hms : ms = []
  · subst hms
    rfl
  · have hstop : ¬ (ms = [] ∨ o.maxDepth = 0) :=
      not_or_intro hms (Nat.ne_of_gt hdepth)
    rw [fields, walk, if_neg (isEmpty_or_iff.not.mpr hstop)]
    exact walkMembers_eq_map_cutMembers hnone fun m hm =>
      walk_eq_map_cut hwild hindex (hplain.values m hm) _ [m.1] (List.cons_ne_nil _ _)
        (List.forall_mem_singleton.mpr (hplain.keys m hm))

end Survey

end Reshape
