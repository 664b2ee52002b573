/-
# Reshape.Proofs.Path.Lens -- reading and writing at one path

Writing stores the segments of a path as keys, brackets and all, and enters arrays by positions;
reading tries keys and positions in an order of its own. Nevertheless what was written is read back,
and the last of two writes wins, for every path that can be read and whatever was on its way
(`get?_set_and_set_set`).

The third law of a lens fails. Writing back what was just read changes nothing unless the last
segment is applied to an array (`EndsInArray`): an element is read there by its position, but a
write puts an object with a single member in the place of the array. An element that any segment
before the last one comes to is exchanged where it is (`set_get?_eq_self_iff`).
-/

import Reshape.Proofs.Json.Members
import Reshape.Proofs.Path.Place

namespace Reshape.Json

variable {value node root : Json} {keys front : List (List Char)}

/-! ## Writing twice -/

/-- **The last write wins**, also in the order of members. -/
theorem put_put (keys : List (List Char)) (first last root : Json) :
    put last keys (put first keys root) = put last keys root := by
  induction keys generalizing root with
  | nil => rfl
  | cons key keys ih =>
    rcases entered_or_not key keys root with ⟨xs, n, rfl, hne, hposition⟩ | hnot
    · have hlt : n < xs.length := (positionIn?_eq_some_iff.mp hposition).2
      -- the array is as long as before, so the position is in it still
      have hagain (x : Json) : positionIn? (xs.set n x).length key = some n := by
        rw [List.length_set, hposition]
      rw [put_cons_arr first hne hposition, put_cons_arr last hne (hagain _),
        put_cons_arr last hne hposition, List.getElem?_set_self hlt, Option.getD_some, ih,
        List.set_set]
    · have hbelow : put last keys (containerOr (some (put first keys
          (containerOr ((membersOrNone root).get? (String.ofList key)))))) =
          put last keys (containerOr ((membersOrNone root).get? (String.ofList key))) := by
        cases keys with
        | nil => rfl
        | cons k ks => rw [containerOr_put (List.cons_ne_nil k ks), ih]
      rw [put_cons_of_not_entered hnot, put_cons_of_not_entered (by intro xs h; cases h),
        put_cons_of_not_entered hnot, membersOrNone, Members.get?_insert_self, hbelow,
        Members.insert_insert]

/-- **Of two writes to one path the last one wins.** -/
theorem set_set_self (root : Json) (path : String) (first last : Json) :
    (root.set path first).set path last = root.set path last := by
  cases hvalid : Path.valid path with
  | false => rw [set_of_not_valid root first hvalid]
  | true =>
    rw [set_of_valid _ _ hvalid, set_of_valid _ _ hvalid, set_of_valid _ _ hvalid, put_put]

/-- **Writes are read back, and the last one wins**, at every path that can be read; a write to
another path changes nothing. -/
theorem get?_set_and_set_set (root : Json) (path : String) :
    (Path.valid path = true → ∀ first last : Json,
        (root.set path first).get? path = some first ∧
          (root.set path first).set path last = root.set path last) ∧
      (Path.valid path = false → ∀ value : Json, root.set path value = root) := by
  constructor
  · intro hvalid first last
    exact ⟨get?_set_self hvalid root first, set_set_self root path first last⟩
  · exact fun hvalid value => set_of_not_valid root value hvalid

/-- A list of two, whose first element is a number and makes room for an object. -/
def pairDocument : Json :=
  .arr [.nat 5, .str "kept"]

theorem get?_set_and_set_set_pair :
    Path.valid "0.tags[*].1" = true ∧ Path.valid "0..1" = false ∧
      pairDocument.set "0.tags[*].1" .null =
        .arr [.obj [("tags[*]", .obj [("1", .null)])], .str "kept"] ∧
      (pairDocument.set "0.tags[*].1" .null).get? "0.tags[*].1" = some .null ∧
      (pairDocument.set "0.tags[*].1" .null).set "0.tags[*].1" (.nat 2) =
        pairDocument.set "0.tags[*].1" (.nat 2) ∧
      pairDocument.set "0..1" .null = pairDocument := by
  have hread : Path.valid "0.tags[*].1" = true := by decide
  have hrefused : Path.valid "0..1" = false := by decide
  obtain ⟨hback, hlast⟩ := (get?_set_and_set_set pairDocument "0.tags[*].1").1 hread .null (.nat 2)
  have hkept := (get?_set_and_set_set pairDocument "0..1").2 hrefused .null
  exact ⟨hread, hrefused, rfl, hback, hlast, hkept⟩

/-! ## Writing below a node -/

theorem follow?_append (front keys : List (List Char)) (root : Json) :
    follow? (front ++ keys) root = (follow? front root).bind (follow? keys) := by
  induction front generalizing root with
  | nil => rfl
  | cons key front ih =>
    rw [List.cons_append, follow?, follow?, Option.bind_assoc]
    congr 1
    funext child
    exact ih child

/-- **Writing goes along the keys that lead to a container** and goes on within it: the container is
exchanged for what a write makes of it. -/
theorem Leads.put_append (h : Leads node front root) (hkeys : keys ≠ [])
    (hnode : Json.containerOr (some node) = node) (value : Json) :
    Leads (put value keys node) front (put value (front ++ keys) root) := by
  induction h with
  | here => exact .here
  | @member key front ms child hchild rest ih =>
    have hne : front ++ keys ≠ [] := List.append_ne_nil_of_right_ne_nil front hkeys
    have hcontainer : Json.containerOr (some child) = child := by
      cases front with
      | nil =>
        cases rest
        exact hnode
      | cons k ks => exact rest.containerOr (List.cons_ne_nil k ks)
    rw [List.cons_append, put_cons_obj value key hne, hchild, hcontainer]
    exact .member (Members.get?_insert_self _ _ _) ih
  | @element key front xs child n hkey hchild rest ih =>
    have hne : front ++ keys ≠ [] := List.append_ne_nil_of_right_ne_nil front hkeys
    have hlt : n < xs.length := (List.getElem?_eq_some_iff.mp hchild).1
    rw [List.cons_append, put_cons_arr value hne (positionIn?_eq_some_iff.mpr ⟨hkey, hlt⟩), hchild]
    exact .element hkey (List.getElem?_set_self hlt) ih

/-! ## Writing back -/

/-- **The last key is applied to an array.** -/
def EndsInArray (keys : List (List Char)) (root : Json) : Prop :=
  ∃ front key xs, keys = front ++ [key] ∧ follow? front root = some (.arr xs)

theorem not_endsInArray_of_member {key : List Char} {ms : Members} {child : Json}
    (hchild : ms.get? (String.ofList key) = some child)
    (h : ¬ EndsInArray (key :: keys) (.obj ms)) : ¬ EndsInArray keys child := by
  rintro ⟨front, last, xs, rfl, hfront⟩
  exact h ⟨key :: front, last, xs, rfl, (follow?_member hchild front).trans hfront⟩

theorem not_endsInArray_of_element {key : List Char} {xs : List Json} {n : Nat} {child : Json}
    (hkey : Decimal.unsigned? key = some n) (hchild : xs[n]? = some child)
    (h : ¬ EndsInArray (key :: keys) (.arr xs)) : ¬ EndsInArray keys child := by
  rintro ⟨front, last, ys, rfl, hfront⟩
  exact h ⟨key :: front, last, ys, rfl, (follow?_element hkey hchild front).trans hfront⟩

/-- **Writing back what is there changes nothing**, if the last key is not applied to an array. -/
theorem Leads.put_self (h : Leads value keys root) (hlast : ¬ EndsInArray keys root) :
    put value keys root = root := by
  induction h with
  | here => rfl
  | @member key keys ms child hchild rest ih =>
    cases keys with
    | nil =>
      cases rest
      change obj (ms.insert (String.ofList key) value) = .obj ms
      rw [Members.insert_of_get?_eq_some hchild]
    | cons k ks =>
      have hne : k :: ks ≠ [] := List.cons_ne_nil k ks
      rw [put_cons_obj value key hne, hchild, rest.containerOr hne,
        ih (not_endsInArray_of_member hchild hlast), Members.insert_of_get?_eq_some hchild]
  | @element key keys xs child n hkey hchild rest ih =>
    obtain ⟨hlt, hitem⟩ := List.getElem?_eq_some_iff.mp hchild
    cases keys with
    | nil => exact absurd ⟨[], key, xs, rfl, rfl⟩ hlast
    | cons k ks =>
      have hne : k :: ks ≠ [] := List.cons_ne_nil k ks
      rw [put_cons_arr _ hne (positionIn?_eq_some_iff.mpr ⟨hkey, hlt⟩), hchild, Option.getD_some,
        ih (not_endsInArray_of_element hkey hchild hlast), ← hitem, List.set_getElem_self]

/-- A write whose last key is applied to an array puts an object in its place. -/
theorem follow?_put_concat {key : List Char} {xs : List Json} (hkeys : ∀ k ∈ front, '[' ∉ k)
    (hfront : follow? front root = some (.arr xs)) (value : Json) :
    follow? front (put value (front ++ [key]) root) =
      some (.obj [(String.ofList key, value)]) :=
  ((leads_of_follow? hkeys hfront).put_append (List.cons_ne_nil key []) rfl value).follow?

/-- A write that goes on behind an element of an array exchanges this element. -/
theorem follow?_put_element {key : List Char} {xs : List Json} {n : Nat} {item : Json}
    (hfree : ∀ k ∈ front, '[' ∉ k) (hfront : follow? front root = some (.arr xs))
    (hkeys : keys ≠ []) (hkey : Decimal.unsigned? key = some n) (hitem : xs[n]? = some item)
    (value : Json) :
    follow? front (put value (front ++ key :: keys) root) =
      some (.arr (xs.set n (put value keys item))) := by
  have hlt : n < xs.length := (List.getElem?_eq_some_iff.mp hitem).1
  rw [((leads_of_follow? hfree hfront).put_append (List.cons_ne_nil key keys) rfl value).follow?,
    put_cons_arr value hkeys (positionIn?_eq_some_iff.mpr ⟨hkey, hlt⟩), hitem, Option.getD_some]

/-- **Exactly when writing back what was read changes nothing.** For a path without brackets that
has a value, it is so unless the last segment is applied to an array. Every other segment that is
applied to an array spells the position of an element, and a write of any value exchanges this
element where it is. The last segment, applied to an array, puts an object with a single member in
the place of the array. -/
theorem set_get?_eq_self_iff {path : String} (hpath : Path.BracketFree path)
    (hvalid : Path.valid path = true) (hget : root.get? path = some value) :
    (root.set path value = root ↔ ¬ EndsInArray (Path.written path) root) ∧
      ∀ (front keys : List (List Char)) (key : List Char) (xs : List Json),
        Path.written path = front ++ key :: keys → follow? front root = some (.arr xs) →
          ∃ n item, Decimal.unsigned? key = some n ∧ xs[n]? = some item ∧ ∀ written : Json,
            follow? front (root.set path written) =
              if keys = [] then some (.obj [(String.ofList key, written)])
              else some (.arr (xs.set n (put written keys item))) := by
  have hfree : ∀ k ∈ Path.written path, '[' ∉ k := fun k hk => hpath.not_mem hk
  rw [get?_eq_follow?] at hget
  have hleads := leads_of_follow? hfree hget
  constructor
  · rw [set_of_valid root value hvalid]
    refine ⟨?_, hleads.put_self⟩
    rintro hsame ⟨front, key, xs, hwritten, hfront⟩
    have hfront' : ∀ k ∈ front, '[' ∉ k :=
      fun k hk => hfree k (hwritten ▸ List.mem_append_left [key] hk)
    have hlost : follow? front (put value (front ++ [key]) root) = some (.obj _) :=
      follow?_put_concat hfront' hfront value
    rw [← hwritten, hsame, hfront] at hlost
    cases hlost
  · intro front keys key xs hwritten hfront
    have hfront' : ∀ k ∈ front, '[' ∉ k :=
      fun k hk => hfree k (hwritten ▸ List.mem_append_left (key :: keys) hk)
    -- there is a value at the path, so behind the array there is an element
    rw [hwritten, follow?_append, hfront, Option.bind_some] at hget
    have hrest := leads_of_follow?
      (fun k hk => hfree k (hwritten ▸ List.mem_append_right front hk)) hget
    cases hrest with
    | @element _ _ _ item n hkey hitem _ =>
      refine ⟨n, item, hkey, hitem, fun written => ?_⟩
      rw [set_of_valid root written hvalid, hwritten]
      split
      case isTrue hnil =>
        subst hnil
        exact follow?_put_concat hfront' hfront written
      case isFalse hne => exact follow?_put_element hfront' hfront hne hkey hitem written

/-- Two rooms, one of them with an array further in. -/
def roomDocument : Json :=
  .obj [("rooms", .arr [.obj [("beds", .arr [.nat 1, .nat 2])], .obj [("name", .str "attic")]])]

theorem set_get?_eq_self_iff_rooms :
    roomDocument.get? "rooms.1.name" = some (.str "attic") ∧
      roomDocument.get? "rooms.0.beds.1" = some (.nat 2) ∧
      roomDocument.set "rooms.1.name" (.str "attic") = roomDocument ∧
      roomDocument.set "rooms.0.beds.1" (.nat 2) ≠ roomDocument := by
  refine ⟨rfl, rfl, ?_, ?_⟩
  · refine (set_get?_eq_self_iff (by simp [Path.BracketFree]) (by decide) rfl).1.mpr ?_
    rintro ⟨front, key, xs, hwritten, hfront⟩
    have hlast : (Path.written "rooms.1.name").dropLast = front := by
      rw [hwritten, List.dropLast_concat]
    subst hlast
    cases hfront
  · intro hsame
    refine (set_get?_eq_self_iff (by simp [Path.BracketFree]) (by decide) rfl).1.mp hsame ?_
    exact ⟨["rooms".toList, "0".toList, "beds".toList], "1".toList, _, by decide, rfl⟩

/-- Writing back the first of two tags loses both of them: an object with the member `0` is in the
place of the array. -/
theorem not_forall_set_get?_eq_self :
    ¬ ∀ (root value : Json) (path : String), Path.BracketFree path → Path.valid path = true →
      root.get? path = some value → root.set path value = root := by
  intro h
  have hsame := h (.obj [("tags", .arr [.str "a", .str "b"])]) (.str "a") "tags.0"
    (by simp [Path.BracketFree]) (by decide) rfl
  have hset : (Json.obj [("tags", .arr [.str "a", .str "b"])]).set "tags.0" (.str "a") =
      .obj [("tags", .obj [("0", .str "a")])] := rfl
  rw [hset] at hsame
  cases hsame

end Reshape.Json
