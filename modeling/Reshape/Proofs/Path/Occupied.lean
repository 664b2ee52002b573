/-
# Reshape.Proofs.Path.Occupied -- writing that leaves something at a place

A write elsewhere can change what is at a place and still leave something there: it goes on below
the place, or parts from it on the way. What takes a place away is a write that comes to an array on
the way and does not enter it by a position, as an object replaces the array then. `RunsInto` says so
along the two lists of keys. For a write where nothing was, it is exactly what takes a place away
(`occupied_put_iff`).
-/

import Reshape.Proofs.Path.Place

namespace Reshape.Json

variable {keys other : List (List Char)} {root value : Json}

/-- **There is something at the place of the keys.** -/
def Occupied (keys : List (List Char)) (root : Json) : Prop :=
  ∃ value, Leads value keys root

/-- **A write runs into an array on the way of the keys**: both come to the same array, and the
write ends there or goes on by no position of it. -/
inductive RunsInto : (other keys : List (List Char)) → Json → Prop
  | array {k k' : List Char} {ks ks' : List (List Char)} {xs : List Json}
      (h : ks = [] ∨ positionIn? xs.length k = none) : RunsInto (k :: ks) (k' :: ks') (.arr xs)
  | member {k : List Char} {ks ks' : List (List Char)} {ms : Members} {child : Json}
      (hchild : ms.get? (String.ofList k) = some child) (rest : RunsInto ks ks' child) :
      RunsInto (k :: ks) (k :: ks') (.obj ms)
  | element {k k' : List Char} {ks ks' : List (List Char)} {xs : List Json} {n : Nat} {child : Json}
      (hk : positionIn? xs.length k = some n) (hk' : Decimal.unsigned? k' = some n)
      (hchild : xs[n]? = some child) (rest : RunsInto ks ks' child) :
      RunsInto (k :: ks) (k' :: ks') (.arr xs)

theorem RunsInto.ne_nil (h : RunsInto other keys root) : other ≠ [] := by
  cases h <;> exact List.cons_ne_nil _ _

/-- What is on the way to an array holds further values. -/
theorem RunsInto.containerOr (h : RunsInto other keys root) : containerOr (some root) = root := by
  cases h <;> rfl

theorem Occupied.get? {path : String} (h : Occupied (Path.written path) root) :
    (root.get? path).isSome = true := by
  obtain ⟨value, hvalue⟩ := h
  rw [get?_eq_follow?, hvalue.follow?]
  rfl

/-- Keys that spell no number lead through objects, where there is no array to run into. -/
theorem Leads.not_runsInto (h : Leads value keys root)
    (hkeys : ∀ k ∈ keys, Decimal.unsigned? k = none) : ¬ RunsInto other keys root := by
  intro hruns
  induction hruns with
  | array =>
    cases h with
    | element hkey _ _ => cases hkey.symm.trans (hkeys _ List.mem_cons_self)
  | member hc _ ih =>
    cases h with
    | member hchild rest =>
      cases hchild.symm.trans hc
      exact ih rest fun k hk => hkeys k (List.mem_cons_of_mem _ hk)
  | element _ hk' _ _ _ => cases hk'.symm.trans (hkeys _ List.mem_cons_self)

/-- A write that runs into an array takes away what is behind it. -/
theorem Leads.not_put_of_runsInto (h : Leads value keys root)
    (hnone : Json.follow? other root = none) (hruns : RunsInto other keys root)
    (v written : Json) : ¬ Leads v keys (put written other root) := by
  induction hruns with
  | @array k k' ks ks' xs hlost =>
    cases h with
    | element hkey hchild _ =>
      cases ks with
      | nil => exact not_leads_of_arr_lost hkey hchild hnone hlost
      | cons k₂ ks₂ =>
        have hposition : positionIn? xs.length k = none := by simpa using hlost
        rw [put, hposition]
        · exact not_leads_of_arr_lost hkey hchild hnone hlost
        · exact List.cons_ne_nil k₂ ks₂
  | member hc hrest ih =>
    cases h with
    | member hchild rest =>
      cases hchild.symm.trans hc
      rw [follow?_member hchild] at hnone
      rw [put_cons_obj written _ hrest.ne_nil, hchild, hrest.containerOr]
      intro hl
      cases hl with
      | member hnew hl =>
        cases (Members.get?_insert_self _ _ _).symm.trans hnew
        exact ih rest hnone hl
  | @element k k' ks ks' xs n _ hk hk' hc hrest ih =>
    cases h with
    | element hkey hchild rest =>
      cases hkey.symm.trans hk'
      cases hchild.symm.trans hc
      obtain ⟨hk, hlt⟩ := positionIn?_eq_some_iff.mp hk
      rw [follow?_element hk hchild] at hnone
      rw [put_cons_arr written hrest.ne_nil (positionIn?_eq_some_iff.mpr ⟨hk, hlt⟩), hchild]
      intro hl
      cases hl with
      | element hkey' hnew hl =>
        cases hkey'.symm.trans hkey
        cases (List.getElem?_set_self hlt).symm.trans hnew
        exact ih rest hnone hl

/-- A write that runs into no array leaves something where something was. -/
theorem Leads.occupied_put (h : Leads value keys root) (hnone : Json.follow? other root = none)
    (hruns : ¬ RunsInto other keys root) (written : Json) :
    Occupied keys (put written other root) := by
  induction h generalizing other with
  | here => exact ⟨_, .here⟩
  | @member key keys ms child hchild rest ih =>
    cases other with
    | nil => cases hnone
    | cons k ks =>
      by_cases hk : k = key
      · subst hk
        have hks : Json.follow? ks child = none := follow?_member hchild ks ▸ hnone
        have hne : ks ≠ [] := by
          rintro rfl
          cases hks
        obtain ⟨v, hv⟩ := ih hks fun hrest => hruns (.member hchild hrest)
        rw [put_cons_obj written k hne, hchild]
        cases keys with
        | nil => exact ⟨_, .member (Members.get?_insert_self _ _ _) .here⟩
        | cons l ls =>
          rw [rest.containerOr (List.cons_ne_nil l ls)]
          exact ⟨v, .member (Members.get?_insert_self _ _ _) hv⟩
      · exact ⟨_, (Leads.member hchild rest).put_of_apart (.members hk) written⟩
  | @element key keys xs child n hkey hchild rest ih =>
    cases other with
    | nil => cases hnone
    | cons k ks =>
      have hne : ks ≠ [] := fun hks => hruns (.array (.inl hks))
      obtain ⟨m, hm⟩ : ∃ m, positionIn? xs.length k = some m := by
        by_contra hposition
        exact hruns (.array (.inr (Option.eq_none_iff_forall_not_mem.mpr
          fun m hm => hposition ⟨m, hm⟩)))
      by_cases hmn : m = n
      · subst hmn
        obtain ⟨hk, hlt⟩ := positionIn?_eq_some_iff.mp hm
        have hks : Json.follow? ks child = none := follow?_element hk hchild ks ▸ hnone
        obtain ⟨v, hv⟩ := ih hks fun hrest => hruns (.element hm hkey hchild hrest)
        rw [put_cons_arr written hne hm, hchild]
        exact ⟨v, .element hkey (List.getElem?_set_self hlt) hv⟩
      · exact ⟨_, (Leads.element hkey hchild rest).put_of_apart (.elements hne hm hkey hmn) written⟩

/-- **Exactly what a first write takes away.** When nothing is where it writes, it leaves something
at an occupied place if and only if it runs into no array on the way there. -/
theorem occupied_put_iff (h : Occupied keys root) (hnone : Json.follow? other root = none)
    (written : Json) : Occupied keys (put written other root) ↔ ¬ RunsInto other keys root := by
  obtain ⟨value, hvalue⟩ := h
  constructor
  · rintro ⟨v, hv⟩ hruns
    exact hvalue.not_put_of_runsInto hnone hruns v written hv
  · intro hruns
    exact hvalue.occupied_put hnone hruns written

end Reshape.Json
