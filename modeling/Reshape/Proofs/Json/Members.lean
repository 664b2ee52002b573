/-
# Reshape.Proofs.Json.Members -- looking up and storing members

In a list of pairs with distinct keys a lookup finds exactly what is there. Storing a member changes
what is found under its key and nothing else; the key goes last when it is new, and all keys stay in
their places.
-/

import Reshape.Json.Basic

namespace Reshape

section Lookup

variable {β : Type} {es : List (String × β)} {key : String}

theorem mem_of_lookup {b : β} (h : es.lookup key = some b) : (key, b) ∈ es := by
  obtain ⟨before, after, rfl, -⟩ := List.lookup_eq_some_iff.mp h
  exact List.mem_append_right before List.mem_cons_self

theorem lookup_eq_none (h : key ∉ es.map Prod.fst) : es.lookup key = none := by
  rw [List.lookup_eq_none_iff]
  intro e he
  rw [bne_iff_ne]
  rintro rfl
  exact h (List.mem_map_of_mem he)

/-- Among distinct keys every pair is found. -/
theorem lookup_of_mem (h : (es.map Prod.fst).Nodup) {e : String × β} (he : e ∈ es) :
    es.lookup e.1 = some e.2 := by
  induction es with
  | nil => exact absurd he List.not_mem_nil
  | cons d es ih =>
    obtain ⟨hd, hes⟩ := List.nodup_cons.mp h
    rw [List.lookup_cons]
    rcases List.mem_cons.mp he with rfl | he
    · rw [BEq.rfl]
    · have hne : e.1 ≠ d.1 := by
        intro heq
        exact hd (heq ▸ List.mem_map_of_mem he)
      rw [beq_eq_false_iff_ne.mpr hne]
      exact ih hes he

end Lookup

namespace Members

theorem get?_insert (ms : Members) (key f : String) (value : Json) :
    (insert key value ms).get? f = if f = key then some value else ms.get? f := by
  by_cases h : f = key
  · rw [h, get?_insert_self, if_pos rfl]
  · rw [get?_insert_of_ne ms value h, if_neg h]

theorem isSome_get?_iff (ms : Members) (key : String) :
    (ms.get? key).isSome = true ↔ key ∈ ms.keys := by
  constructor
  · intro h
    obtain ⟨value, hvalue⟩ := Option.isSome_iff_exists.mp h
    exact List.mem_map_of_mem (mem_of_lookup hvalue)
  · intro h
    -- a key that is there is not the key of nothing
    cases hvalue : ms.get? key with
    | some value => rfl
    | none =>
      obtain ⟨m, hm, rfl⟩ := List.mem_map.mp h
      have hne := List.lookup_eq_none_iff.mp hvalue m hm
      exact absurd rfl (bne_iff_ne.mp hne)

theorem get?_of_not_mem {ms : Members} {key : String} (h : key ∉ ms.keys) : ms.get? key = none :=
  lookup_eq_none h

theorem not_mem_of_get?_eq_none {ms : Members} {key : String} (h : ms.get? key = none) :
    key ∉ ms.keys := by
  rw [← isSome_get?_iff, h]
  exact Bool.false_ne_true

/-- A lookup finds the first member with the key. -/
theorem exists_split_of_get?_eq_some {ms : Members} {key : String} {value : Json}
    (h : ms.get? key = some value) :
    ∃ before after, ms = before ++ (key, value) :: after ∧ key ∉ keys before := by
  obtain ⟨before, after, heq, hbefore⟩ := List.lookup_eq_some_iff.mp h
  refine ⟨before, after, heq, ?_⟩
  intro hmem
  obtain ⟨m, hm, rfl⟩ := List.mem_map.mp hmem
  exact bne_iff_ne.mp (hbefore m hm) rfl

/-- A new key goes last, and the others stay where they are. -/
theorem keys_insert (ms : Members) (key : String) (value : Json) :
    (insert key value ms).keys = if key ∈ ms.keys then ms.keys else ms.keys ++ [key] := by
  unfold keys
  induction ms with
  | nil => simp [insert]
  | cons m ms ih =>
    obtain ⟨k, v⟩ := m
    rw [insert]
    by_cases h : k = key
    · simp [h]
    · have h' : key ≠ k := Ne.symm h
      rw [if_neg h, List.map_cons, ih, List.map_cons]
      simp only [List.mem_cons, h', false_or]
      split <;> rfl

theorem insert_of_not_mem {ms : Members} {key : String} (h : key ∉ ms.keys) (value : Json) :
    ms.insert key value = ms ++ [(key, value)] := by
  induction ms with
  | nil => rfl
  | cons m ms ih =>
    have hm : m.1 ≠ key := by
      rintro rfl
      exact h List.mem_cons_self
    rw [insert, if_neg hm, ih fun hms => h (List.mem_cons_of_mem _ hms), List.cons_append]

/-- A key that is there keeps its place. -/
theorem insert_split {before : Members} {key : String} (h : key ∉ before.keys) (old new : Json)
    (after : Members) :
    insert key new (before ++ (key, old) :: after) = before ++ (key, new) :: after := by
  induction before with
  | nil =>
    show insert key new ((key, old) :: after) = _
    rw [insert, if_pos rfl]
    rfl
  | cons m before ih =>
    have hm : m.1 ≠ key := by
      rintro rfl
      exact h List.mem_cons_self
    show insert key new (m :: (before ++ (key, old) :: after)) = _
    rw [insert, if_neg hm, ih fun hmem => h (List.mem_cons_of_mem _ hmem), List.cons_append]

/-- Storing under one key twice keeps what was stored last. -/
theorem insert_insert (ms : Members) (key : String) (a b : Json) :
    (ms.insert key a).insert key b = ms.insert key b := by
  induction ms with
  | nil => simp [insert]
  | cons m ms ih =>
    obtain ⟨k, v⟩ := m
    by_cases hk : k = key
    · simp [insert, hk]
    · simp [insert, hk, ih]

/-- Storing what is there changes nothing. -/
theorem insert_of_get?_eq_some {ms : Members} {key : String} {value : Json}
    (h : ms.get? key = some value) : ms.insert key value = ms := by
  obtain ⟨before, after, rfl, hbefore⟩ := exists_split_of_get?_eq_some h
  exact insert_split hbefore value value after

end Members

end Reshape
