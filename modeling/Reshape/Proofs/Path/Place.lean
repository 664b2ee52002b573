/-
# Reshape.Proofs.Path.Place -- reading after writing

Two relations carry everything that is known about `Json.get?` after `Json.set`.

* `Leads v keys root`: from `root`, the keys lead to `v`, through members of objects and elements of
  arrays. It is what reading at a path without brackets means (`follow?_eq_some_iff`), and the keys of
  a write lead to what was written (`leads_put_self`).
* `Apart other keys root`: within `root` the two lists of keys come to different places before
  writing at `other` would replace anything on the way of `keys`: they part in an object, or at two
  elements of an array.

Writing apart from a place keeps it (`Leads.put_of_apart`), and in a document where `keys` lead
somewhere through objects only, lists that diverge are apart (`Leads.apart_of_diverge`).
-/

import Mathlib.Data.List.TakeWhile
import Reshape.Path.Write

namespace Reshape

/-! ## Segments as they are written -/

namespace Path

/-- The segments of a path as they are written; the empty path has none. -/
def written (path : String) : List (List Char) :=
  if path = "" then [] else raws path

/-- Neither of two lists of segments begins with the other. -/
def Diverge (p q : List (List Char)) : Prop :=
  ¬ p <+: q ∧ ¬ q <+: p

instance (p q : List (List Char)) : Decidable (Diverge p q) :=
  inferInstanceAs (Decidable (_ ∧ _))

/-- No segment of the path has a suffix. -/
def BracketFree (path : String) : Prop :=
  ∀ c ∈ path.toList, c ≠ '[' ∧ c ≠ ']'

instance (path : String) : Decidable (BracketFree path) :=
  inferInstanceAs (Decidable (∀ c ∈ path.toList, _))

theorem Diverge.of_cons {k : List Char} {ks ks' : List (List Char)}
    (h : Diverge (k :: ks) (k :: ks')) : Diverge ks ks' := by
  constructor
  · intro hp
    exact h.1 (List.cons_prefix_cons.mpr ⟨rfl, hp⟩)
  · intro hp
    exact h.2 (List.cons_prefix_cons.mpr ⟨rfl, hp⟩)

/-- The pieces of a text hold characters of the text only. -/
theorem mem_of_mem_splitChar {sep c : Char} {cs p : List Char}
    (hp : p ∈ Text.splitChar sep cs) (hc : c ∈ p) : c ∈ cs := by
  induction cs generalizing p with
  | nil =>
    rw [Text.splitChar, List.mem_singleton] at hp
    rwa [hp] at hc
  | cons d ds ih =>
    rw [Text.splitChar] at hp
    split at hp
    · rcases List.mem_cons.mp hp with rfl | hp
      · exact absurd hc List.not_mem_nil
      · exact List.mem_cons_of_mem d (ih hp hc)
    · split at hp
      · next q qs hs =>
        rcases List.mem_cons.mp hp with rfl | hp
        · rcases List.mem_cons.mp hc with rfl | hc
          · exact List.mem_cons_self
          · exact List.mem_cons_of_mem d (ih (hs ▸ List.mem_cons_self) hc)
        · exact List.mem_cons_of_mem d (ih (hs ▸ List.mem_cons_of_mem q hp) hc)
      · next hs => exact absurd hs (Text.splitChar_ne_nil sep ds)

theorem BracketFree.not_mem {path : String} (h : BracketFree path) {raw : List Char}
    (hraw : raw ∈ written path) : '[' ∉ raw := by
  intro hc
  rw [written] at hraw
  split at hraw
  · exact List.not_mem_nil hraw
  · exact (h '[' (mem_of_mem_splitChar hraw hc)).1 rfl

/-- A segment without an opening bracket is a plain key, if it can be read at all. -/
theorem access_of_parseSegment {path : String} {raw : List Char} {s : Segment}
    (hraw : '[' ∉ raw) (h : parseSegment path raw = .ok s) : s.access = .plain := by
  have hd : raw.dropWhile (· ≠ '[') = [] := by
    rw [List.dropWhile_eq_nil_iff]
    intro c hc
    exact decide_eq_true fun he => hraw (he ▸ hc)
  rw [parseSegment, hd] at h
  split at h
  · cases h
  · dsimp only at h
    split at h
    · cases h
    · cases h
      rfl

end Path

namespace Json

/-! ## Reading and writing by segments -/

theorem get?_eq_follow? (root : Json) (path : String) :
    root.get? path = follow? (Path.written path) root := by
  rw [get?, Path.written]
  split <;> rfl

theorem set_of_valid {path : String} (root value : Json) (h : Path.valid path = true) :
    root.set path value = put value (Path.written path) root := by
  rw [set, Path.written, if_pos h]
  split <;> rfl

theorem set_of_not_valid {path : String} (root value : Json) (h : Path.valid path = false) :
    root.set path value = root := by
  have hne : path ≠ "" := by
    rintro rfl
    cases h
  rw [set, if_neg hne, if_neg (by rw [h]; exact Bool.false_ne_true)]

theorem ofList_ne {k k' : List Char} (h : k ≠ k') : String.ofList k ≠ String.ofList k' :=
  fun he => h (String.ofList_injective he)

theorem indexed?_of_not_mem {raw : List Char} (h : '[' ∉ raw) (node : Json) :
    indexed? raw node = none := by
  rw [indexed?]
  split
  · next hp => cases Path.access_of_parseSegment h hp
  · rfl

/-! ### One step -/

section Step

variable {key : List Char} {ms : Members} {xs : List Json} {child : Json}

/-- A key without brackets names a member of an object. -/
theorem step?_obj (hkey : '[' ∉ key) (ms : Members) :
    step? key (.obj ms) = ms.get? (String.ofList key) := by
  rw [step?, indexed?_of_not_mem hkey]
  cases ms.get? (String.ofList key) <;> rfl

/-- A key without brackets spells a position in an array. -/
theorem step?_arr (hkey : '[' ∉ key) (xs : List Json) :
    step? key (.arr xs) = (Decimal.unsigned? key).bind fun n => xs[n]? := by
  rw [step?, indexed?_of_not_mem hkey]
  cases Decimal.unsigned? key <;> rfl

theorem follow?_member (hchild : ms.get? (String.ofList key) = some child)
    (keys : List (List Char)) : follow? (key :: keys) (.obj ms) = follow? keys child := by
  rw [follow?, step?, hchild]
  rfl

theorem follow?_element {n : Nat} (hkey : Decimal.unsigned? key = some n)
    (hchild : xs[n]? = some child) (keys : List (List Char)) :
    follow? (key :: keys) (.arr xs) = follow? keys child := by
  rw [follow?, step?, hkey]
  dsimp only
  rw [hchild]
  rfl

end Step

/-! ## Where keys lead -/

/-- **From a value, keys lead to `value`**: each one names a member of an object or spells a
position in an array. -/
inductive Leads (value : Json) : List (List Char) → Json → Prop
  | here : Leads value [] value
  | member {key : List Char} {keys : List (List Char)} {ms : Members} {child : Json}
      (hchild : ms.get? (String.ofList key) = some child) (rest : Leads value keys child) :
      Leads value (key :: keys) (.obj ms)
  | element {key : List Char} {keys : List (List Char)} {xs : List Json} {child : Json} {n : Nat}
      (hkey : Decimal.unsigned? key = some n) (hchild : xs[n]? = some child)
      (rest : Leads value keys child) : Leads value (key :: keys) (.arr xs)

theorem Leads.follow? {value root : Json} {keys : List (List Char)} (h : Leads value keys root) :
    follow? keys root = some value := by
  induction h with
  | here => rfl
  | member hchild _ ih => rw [follow?_member hchild, ih]
  | element hkey hchild _ ih => rw [follow?_element hkey hchild, ih]

theorem leads_of_follow? {value : Json} {keys : List (List Char)} (hkeys : ∀ k ∈ keys, '[' ∉ k)
    {root : Json} (h : follow? keys root = some value) : Leads value keys root := by
  induction keys generalizing root with
  | nil =>
    cases h
    exact .here
  | cons key keys ih =>
    have hkey : '[' ∉ key := hkeys key List.mem_cons_self
    have hrest : ∀ k ∈ keys, '[' ∉ k := fun k hk => hkeys k (List.mem_cons_of_mem key hk)
    rw [Json.follow?] at h
    obtain ⟨child, hstep, hchild⟩ := Option.bind_eq_some_iff.mp h
    cases root with
    | obj ms =>
      rw [step?_obj hkey] at hstep
      exact .member hstep (ih hrest hchild)
    | arr xs =>
      rw [step?_arr hkey] at hstep
      obtain ⟨n, hn, hitem⟩ := Option.bind_eq_some_iff.mp hstep
      exact .element hn hitem (ih hrest hchild)
    | null => cases hstep
    | bool b => cases hstep
    | num n => cases hstep
    | str s => cases hstep

/-- What keys lead on from holds further values. -/
theorem Leads.containerOr {value node : Json} {keys : List (List Char)}
    (h : Leads value keys node) (hkeys : keys ≠ []) : containerOr (some node) = node := by
  cases h with
  | here => exact absurd rfl hkeys
  | member _ _ => rfl
  | element _ _ _ => rfl

/-- **Reading without brackets**: what is found is where the keys lead. -/
theorem follow?_eq_some_iff {value root : Json} {keys : List (List Char)}
    (hkeys : ∀ k ∈ keys, '[' ∉ k) : follow? keys root = some value ↔ Leads value keys root :=
  ⟨leads_of_follow? hkeys, Leads.follow?⟩

/-! ## Writing -/

theorem put_cons_obj (value : Json) (key : List Char) {keys : List (List Char)} (hkeys : keys ≠ [])
    (ms : Members) :
    put value (key :: keys) (.obj ms) =
      .obj (ms.insert (String.ofList key)
        (put value keys (containerOr (ms.get? (String.ofList key))))) := by
  cases keys with
  | nil => exact absurd rfl hkeys
  | cons k ks => rfl

theorem put_cons_arr (value : Json) {key : List Char} {keys : List (List Char)} (hkeys : keys ≠ [])
    {xs : List Json} {n : Nat} (hn : positionIn? xs.length key = some n) :
    put value (key :: keys) (.arr xs) =
      .arr (xs.set n (put value keys ((xs[n]?).getD .null))) := by
  cases keys with
  | nil => exact absurd rfl hkeys
  | cons k ks => simp only [put, hn]

/-- **A write that enters no array** stores in an object, which takes the place of all else. -/
theorem put_cons_of_not_entered {key : List Char} {keys : List (List Char)} {node : Json}
    (h : ∀ xs, node = .arr xs → keys = [] ∨ positionIn? xs.length key = none) (value : Json) :
    put value (key :: keys) node =
      .obj ((membersOrNone node).insert (String.ofList key)
        (put value keys (containerOr ((membersOrNone node).get? (String.ofList key))))) := by
  cases keys with
  | nil => rfl
  | cons k ks =>
    cases node with
    | arr xs =>
      have hposition : positionIn? xs.length key = none := by simpa using h xs rfl
      rw [put, hposition]
      · rfl
      · exact List.cons_ne_nil k ks
    | _ => rfl

/-- In an empty object nothing is in the way of the keys. -/
theorem put_cons_empty (value : Json) (key : List Char) (keys : List (List Char)) :
    put value (key :: keys) (.obj []) = .obj [(String.ofList key, put value keys (.obj []))] :=
  put_cons_of_not_entered (by intro xs h; cases h) value

theorem positionIn?_eq_some_iff {length n : Nat} {key : List Char} :
    positionIn? length key = some n ↔ Decimal.unsigned? key = some n ∧ n < length := by
  rw [positionIn?]
  cases Decimal.unsigned? key with
  | none => simp
  | some m =>
    dsimp only
    split
    · next hm =>
      constructor
      · rintro ⟨⟩
        exact ⟨rfl, hm⟩
      · exact fun h => h.1
    · next hm =>
      constructor
      · rintro ⟨⟩
      · rintro ⟨⟨⟩, hlt⟩
        exact absurd hlt hm

/-- **A write enters an array by a position in it, or none at all.** -/
theorem entered_or_not (key : List Char) (keys : List (List Char)) (node : Json) :
    (∃ xs n, node = .arr xs ∧ keys ≠ [] ∧ positionIn? xs.length key = some n) ∨
      ∀ xs, node = .arr xs → keys = [] ∨ positionIn? xs.length key = none := by
  by_cases hkeys : keys = []
  · exact .inr fun _ _ => .inl hkeys
  · cases node with
    | arr xs =>
      cases hposition : positionIn? xs.length key with
      | some n => exact .inl ⟨xs, n, rfl, hkeys, hposition⟩
      | none =>
        refine .inr ?_
        rintro _ ⟨⟩
        exact .inr hposition
    | _ => exact .inr fun _ h => nomatch h

/-- What was written below a node holds further values. -/
theorem containerOr_put {keys : List (List Char)} (hkeys : keys ≠ []) (value node : Json) :
    containerOr (some (put value keys node)) = put value keys node := by
  obtain ⟨key, keys, rfl⟩ := List.exists_cons_of_ne_nil hkeys
  rcases entered_or_not key keys node with ⟨xs, n, rfl, hne, hposition⟩ | hnot
  · rw [put_cons_arr value hne hposition]
    rfl
  · rw [put_cons_of_not_entered hnot]
    rfl

/-- **The keys of a write lead to what was written**, whatever was on their way: an array was
entered by a position in it, and all else is an object by now. -/
theorem leads_put_self (keys : List (List Char)) (value root : Json) :
    Leads value keys (put value keys root) := by
  induction keys generalizing root with
  | nil => exact .here
  | cons key keys ih =>
    rcases entered_or_not key keys root with ⟨xs, n, rfl, hne, hposition⟩ | hnot
    · obtain ⟨hkey, hlt⟩ := positionIn?_eq_some_iff.mp hposition
      rw [put_cons_arr value hne hposition]
      exact .element hkey (List.getElem?_set_self hlt) (ih _)
    · rw [put_cons_of_not_entered hnot]
      exact .member (Members.get?_insert_self _ _ _) (ih _)

/-- **What was written is read back**, whatever was on the way of the keys. -/
theorem follow?_put_self (keys : List (List Char)) (value root : Json) :
    follow? keys (put value keys root) = some value :=
  (leads_put_self keys value root).follow?

/-- **What was written to a path that can be read is there.** -/
theorem get?_set_self {path : String} (h : Path.valid path = true) (root value : Json) :
    (root.set path value).get? path = some value := by
  rw [get?_eq_follow?, set_of_valid root value h]
  exact follow?_put_self _ value root

/-! ## Writing elsewhere -/

/-- **Two lists of keys part within a value**: in an object at different members, or in an array at
different elements, where the first one goes on behind an element that exists. -/
inductive Apart : (other keys : List (List Char)) → Json → Prop
  | members {k k' : List Char} {ks ks' : List (List Char)} {ms : Members} (h : k ≠ k') :
      Apart (k :: ks) (k' :: ks') (.obj ms)
  | elements {k k' : List Char} {ks ks' : List (List Char)} {xs : List Json} {m n : Nat}
      (hks : ks ≠ []) (hk : positionIn? xs.length k = some m)
      (hk' : Decimal.unsigned? k' = some n) (h : m ≠ n) : Apart (k :: ks) (k' :: ks') (.arr xs)
  | member {k : List Char} {ks ks' : List (List Char)} {ms : Members} {child : Json}
      (hchild : ms.get? (String.ofList k) = some child) (rest : Apart ks ks' child) :
      Apart (k :: ks) (k :: ks') (.obj ms)
  | element {k k' : List Char} {ks ks' : List (List Char)} {xs : List Json} {n : Nat} {child : Json}
      (hk : positionIn? xs.length k = some n) (hk' : Decimal.unsigned? k' = some n)
      (hchild : xs[n]? = some child) (rest : Apart ks ks' child) :
      Apart (k :: ks) (k' :: ks') (.arr xs)

theorem Apart.ne_nil {other keys : List (List Char)} {root : Json} (h : Apart other keys root) :
    other ≠ [] := by
  cases h <;> exact List.cons_ne_nil _ _

/-- What the keys part in holds further values. -/
theorem Apart.containerOr {other keys : List (List Char)} {root : Json}
    (h : Apart other keys root) : containerOr (some root) = root := by
  cases h <;> rfl

/-- **Writing apart from a place keeps what is there.** -/
theorem Leads.put_of_apart {value root : Json} {keys other : List (List Char)}
    (h : Leads value keys root) (hapart : Apart other keys root) (written : Json) :
    Leads value keys (put written other root) := by
  induction hapart with
  | @members k k' ks ks' ms hne =>
    cases h with
    | member hchild rest =>
      have hkept : ∀ v, (ms.insert (String.ofList k) v).get? (String.ofList k') = some _ :=
        fun v => (Members.get?_insert_of_ne ms v (ofList_ne hne.symm)).trans hchild
      cases ks with
      | nil => exact .member (hkept _) rest
      | cons _ _ => exact .member (hkept _) rest
  | elements hks hk hk' hne =>
    cases h with
    | element hkey hchild rest =>
      cases hkey.symm.trans hk'
      rw [put_cons_arr written hks hk]
      exact .element hk' (by rw [List.getElem?_set_ne hne]; exact hchild) rest
  | member hc hrest ih =>
    cases h with
    | member hchild rest =>
      cases hchild.symm.trans hc
      rw [put_cons_obj written _ hrest.ne_nil, hc, hrest.containerOr]
      exact .member (Members.get?_insert_self _ _ _) (ih rest)
  | element hk hk' hc hrest ih =>
    cases h with
    | element hkey hchild rest =>
      cases hkey.symm.trans hk'
      cases hchild.symm.trans hc
      rw [put_cons_arr written hrest.ne_nil hk, hc]
      refine .element hk' ?_ (ih rest)
      exact List.getElem?_set_self (positionIn?_eq_some_iff.mp hk).2

theorem put_isObj (value : Json) {keys : List (List Char)} (hkeys : keys ≠ []) :
    ∃ ms, put value keys (.obj []) = .obj ms := by
  obtain ⟨key, keys, rfl⟩ := List.exists_cons_of_ne_nil hkeys
  exact ⟨_, put_cons_empty value key keys⟩

/-- **An array that gives way to an object** has no element for a key any more. The write found
nothing at `k :: ks`, and either it stopped at the array or `k` is no position in it. -/
theorem not_leads_of_arr_lost {value child v : Json} {k key : List Char}
    {ks keys : List (List Char)} {xs : List Json} {n : Nat} (hkey : Decimal.unsigned? key = some n)
    (hchild : xs[n]? = some child) (hnone : Json.follow? (k :: ks) (.arr xs) = none)
    (hlost : ks = [] ∨ positionIn? xs.length k = none) :
    ¬ Leads value (key :: keys) (.obj [(String.ofList k, v)]) := by
  intro hl
  have hk : k = key := by
    by_contra hne
    cases hl with
    | member hnew _ =>
      have hother := Members.get?_insert_of_ne [] v (ofList_ne (Ne.symm hne))
      cases hother.symm.trans hnew
  subst hk
  rcases hlost with rfl | hposition
  · rw [follow?_element hkey hchild] at hnone
    cases hnone
  · have hlt : n < xs.length := (List.getElem?_eq_some_iff.mp hchild).1
    cases hposition.symm.trans (positionIn?_eq_some_iff.mpr ⟨hkey, hlt⟩)

/-- **Writing where nothing was, but not apart, loses the place.** -/
theorem Leads.not_put_of_not_apart {value root : Json} {keys other : List (List Char)}
    (h : Leads value keys root) (hnone : Json.follow? other root = none)
    (hapart : ¬ Apart other keys root) (written : Json) :
    ¬ Leads value keys (put written other root) := by
  induction h generalizing other with
  | here =>
    intro hl
    have hsame : put written other value = value := by
      generalize put written other value = v at hl
      cases hl
      rfl
    have hback := follow?_put_self other written value
    rw [hsame, hnone] at hback
    cases hback
  | @member key keys ms child hchild rest ih =>
    cases other with
    | nil => cases hnone
    | cons k ks =>
      by_cases hk : k = key
      · subst hk
        have hks : Json.follow? ks child = none := follow?_member hchild ks ▸ hnone
        have hne : ks ≠ [] := by
          rintro rfl
          cases hks
        rw [put_cons_obj written k hne, hchild]
        intro hl
        cases hl with
        | member hnew hrest =>
          cases (Members.get?_insert_self _ _ _).symm.trans hnew
          have hrec := ih hks fun ha => hapart (.member hchild ha)
          cases child with
          | obj ns => exact hrec hrest
          | arr ys => exact hrec hrest
          -- A scalar made room for an object, so what was there is gone.
          | _ =>
            cases rest
            obtain ⟨ns, hns⟩ := put_isObj written hne
            change Leads _ [] (put written ks (.obj [])) at hrest
            rw [hns] at hrest
            cases hrest
      · exact absurd (.members hk) hapart
  | @element key keys xs child n hkey hchild rest ih =>
    have hlt : n < xs.length := (List.getElem?_eq_some_iff.mp hchild).1
    cases other with
    | nil => cases hnone
    | cons k ks =>
      cases ks with
      | nil => exact not_leads_of_arr_lost hkey hchild hnone (.inl rfl)
      | cons k' ks' =>
        have hne : k' :: ks' ≠ [] := List.cons_ne_nil k' ks'
        cases hpos : positionIn? xs.length k with
        | none =>
          rw [put, hpos]
          · exact not_leads_of_arr_lost hkey hchild hnone (.inr hpos)
          · exact hne
        | some m =>
          rw [put_cons_arr written hne hpos]
          have hm := (positionIn?_eq_some_iff.mp hpos).1
          by_cases hmn : m = n
          · subst hmn
            rw [follow?_element hm hchild] at hnone
            have hrec := ih hnone fun ha => hapart (.element hpos hkey hchild ha)
            intro hl
            cases hl with
            | element hkey' hnew hrest =>
              cases hkey.symm.trans hkey'
              rw [List.getElem?_set_self hlt, hchild] at hnew
              cases hnew
              exact hrec hrest
          · exact absurd (.elements hne hpos hkey hmn) hapart

/-- **Exactly what a first write keeps.** When nothing is at a path, writing there keeps what is at
a path without brackets if and only if the two paths part in the document. -/
theorem get?_set_eq_some_iff_apart {root value written : Json} {path other : String}
    (hpath : Path.BracketFree path) (hget : root.get? path = some value)
    (hvalid : Path.valid other = true) (hnone : root.get? other = none) :
    (root.set other written).get? path = some value ↔
      Apart (Path.written other) (Path.written path) root := by
  have hkeys : ∀ k ∈ Path.written path, '[' ∉ k := fun k hk => hpath.not_mem hk
  rw [get?_eq_follow?] at hget hnone
  have hleads : Leads value (Path.written path) root := leads_of_follow? hkeys hget
  rw [get?_eq_follow?, set_of_valid root written hvalid, follow?_eq_some_iff hkeys]
  constructor
  · intro hl
    by_contra hapart
    exact hleads.not_put_of_not_apart hnone hapart written hl
  · exact fun hapart => hleads.put_of_apart hapart written

/-- Where keys that spell no number lead, they lead through objects only, and keys that diverge from
them are apart. -/
theorem Leads.apart_of_diverge {value root : Json} {keys other : List (List Char)}
    (h : Leads value keys root) (hkeys : ∀ k ∈ keys, Decimal.unsigned? k = none)
    (hdiv : Path.Diverge other keys) : Apart other keys root := by
  induction h generalizing other with
  | here => exact absurd List.nil_prefix hdiv.2
  | @member key keys ms child hchild _ ih =>
    cases other with
    | nil => exact absurd List.nil_prefix hdiv.1
    | cons k ks =>
      by_cases hk : k = key
      · subst hk
        exact .member hchild (ih (fun x hx => hkeys x (List.mem_cons_of_mem k hx)) hdiv.of_cons)
      · exact .members hk
  | element hkey _ _ _ =>
    cases (hkeys _ List.mem_cons_self).symm.trans hkey

/-- Where keys that spell no number lead, keys that do not go on from there and find nothing are
apart from them: along the way of the former something is found everywhere. -/
theorem Leads.apart_of_follow?_eq_none {value root : Json} {keys other : List (List Char)}
    (h : Leads value keys root) (hkeys : ∀ k ∈ keys, Decimal.unsigned? k = none)
    (hother : ¬ keys <+: other) (hnone : Json.follow? other root = none) :
    Apart other keys root := by
  induction h generalizing other with
  | here => exact absurd List.nil_prefix hother
  | @member key keys ms child hchild _ ih =>
    cases other with
    | nil => cases hnone
    | cons k ks =>
      by_cases hk : k = key
      · subst hk
        rw [follow?_member hchild] at hnone
        have hks : ¬ keys <+: ks := fun hp => hother (List.cons_prefix_cons.mpr ⟨rfl, hp⟩)
        exact .member hchild (ih (fun x hx => hkeys x (List.mem_cons_of_mem k hx)) hks hnone)
      · exact .members hk
  | element hkey _ _ _ =>
    cases (hkeys _ List.mem_cons_self).symm.trans hkey

end Json

end Reshape
