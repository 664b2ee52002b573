/-
# Reshape.Proofs.Path.Frame -- a write touches only its own path

Reading at a path without brackets gives the same before and after a write to a path that diverges
from it: the same value, or nothing both times (`get?_set_of_diverge`). The segments of the write
may have brackets, what is on its way may be missing or a scalar, and the path that is read may go
through arrays. Only on the way of the write there must be no array, since an array that the write
does not enter by a position gives way to an object.

`Leads.put_of_apart` says of a place that is there that it stays, under a condition on the document.
Here nothing need be there, so it has to be said of the objects that a write makes that they hold
nothing else (`follow?_put_empty`).
-/

import Reshape.Proofs.Path.Wildcards

namespace Reshape

/-! ## Paths above a path -/

namespace Path

/-- **One path is above another**: its segments are the first ones of the other, and not all. -/
def Above (front path : String) : Prop :=
  written front <+: written path ∧ written front ≠ written path

/-- Segments joined by dots are written as they were. -/
theorem splitChar_join {segments : List (List Char)} (hne : segments ≠ [])
    (hdot : ∀ s ∈ segments, '.' ∉ s) :
    Text.splitChar '.' (Text.join ['.'] segments) = segments := by
  induction segments with
  | nil => exact absurd rfl hne
  | cons s ss ih =>
    have hs : Text.splitChar '.' s = [s] :=
      Text.splitChar_of_not_mem (hdot s List.mem_cons_self)
    cases ss with
    | nil => exact hs
    | cons t ts =>
      rw [Text.join, List.append_assoc, List.singleton_append, Text.splitChar_append_cons, hs,
        ih (List.cons_ne_nil t ts) fun x hx => hdot x (List.mem_cons_of_mem s hx)]
      · rfl
      · exact List.cons_ne_nil t ts

/-- A path that can be read has no empty segment. -/
theorem ne_nil_of_mem_written {path : String} (h : valid path = true) {raw : List Char}
    (hraw : raw ∈ written path) : raw ≠ [] := by
  rw [valid, parse_eq_parseSegments, parseSegments_isOk_iff] at h
  obtain ⟨s, hs⟩ := h raw hraw
  exact (parseSegment_eq_ok_iff.mp hs).1

theorem dot_not_mem_of_mem_written {path : String} {raw : List Char} (hraw : raw ∈ written path) :
    '.' ∉ raw := by
  rw [written] at hraw
  split at hraw
  · exact absurd hraw List.not_mem_nil
  · exact Text.not_mem_of_mem_splitChar hraw

/-- **The first segments of a path are a path**, if it can be read. -/
theorem exists_written_eq {path : String} (h : valid path = true) {segments : List (List Char)}
    (habove : segments <+: written path) : ∃ front : String, written front = segments := by
  cases segments with
  | nil => exact ⟨"", rfl⟩
  | cons s ss =>
    have hsplit := splitChar_join (List.cons_ne_nil s ss) fun raw hraw =>
      dot_not_mem_of_mem_written (habove.subset hraw)
    refine ⟨String.ofList (Text.join ['.'] (s :: ss)), ?_⟩
    rw [written, if_neg, raws, String.toList_ofList, hsplit]
    intro hempty
    -- the empty text has a single segment, which is empty
    rw [String.ofList_eq_empty_iff.mp hempty] at hsplit
    exact ne_nil_of_mem_written h (habove.subset List.mem_cons_self) (List.cons.inj hsplit).1.symm

end Path

namespace Json

variable {p q : List (List Char)} {root value : Json}

/-! ## One step -/

/-- A key without brackets names a member of an object. -/
theorem follow?_obj {key : List Char} (hkey : '[' ∉ key) (keys : List (List Char)) (ms : Members) :
    follow? (key :: keys) (.obj ms) = (ms.get? (String.ofList key)).bind (follow? keys) := by
  rw [follow?, step?_obj hkey]

/-- Below a scalar nothing is found. -/
theorem follow?_scalar {node : Json} (hnode : node.isContainer = false) (hq : q ≠ []) :
    follow? q node = none := by
  obtain ⟨key, keys, rfl⟩ := List.exists_cons_of_ne_nil hq
  cases node with
  | obj ms => cases hnode
  | arr xs => cases hnode
  | _ => rfl

/-- Where there is no array, a key names a member of the object, if there is one. -/
theorem follow?_cons {key : List Char} (hkey : '[' ∉ key) (keys : List (List Char)) {node : Json}
    (hnode : ∀ xs, node ≠ .arr xs) :
    follow? (key :: keys) node =
      ((membersOrNone node).get? (String.ofList key)).bind (follow? keys) := by
  cases node with
  | arr xs => exact absurd rfl (hnode xs)
  | obj ms => exact follow?_obj hkey keys ms
  | _ => rfl

/-! ## Diverging paths -/

/-- **A new object holds nothing but what was written**, so nothing is found on another way. -/
theorem follow?_put_empty (hdiv : Path.Diverge p q) (hq : ∀ k ∈ q, '[' ∉ k) (value : Json) :
    follow? q (put value p (.obj [])) = none := by
  induction p generalizing q with
  | nil => exact absurd List.nil_prefix hdiv.1
  | cons k ks ih =>
    cases q with
    | nil => exact absurd List.nil_prefix hdiv.2
    | cons l ls =>
      obtain ⟨hl, hls⟩ := List.forall_mem_cons.mp hq
      rw [put_cons_empty, follow?_obj hl]
      by_cases hkl : k = l
      · subst hkl
        rw [Members.get?, List.lookup_cons_self, Option.bind_some]
        exact ih hdiv.of_cons hls
      · have hne : (String.ofList l == String.ofList k) = false :=
          beq_eq_false_iff_ne.mpr (ofList_ne (Ne.symm hkl))
        rw [Members.get?, List.lookup_cons, hne]
        rfl

/-- **Reading along keys that diverge from those of a write** finds the same before and after it, if
there is no array on the way of the write. -/
theorem follow?_put_of_diverge (hdiv : Path.Diverge p q) (hq : ∀ k ∈ q, '[' ∉ k)
    (harrays : ∀ front, front <+: p → front ≠ p → ∀ xs, follow? front root ≠ some (.arr xs))
    (value : Json) : follow? q (put value p root) = follow? q root := by
  induction p generalizing q root with
  | nil => exact absurd List.nil_prefix hdiv.1
  | cons k ks ih =>
    cases q with
    | nil => exact absurd List.nil_prefix hdiv.2
    | cons l ls =>
      obtain ⟨hl, hls⟩ := List.forall_mem_cons.mp hq
      have hroot : ∀ xs, root ≠ .arr xs := fun xs h =>
        harrays [] List.nil_prefix (List.cons_ne_nil k ks).symm xs (congrArg some h)
      rw [put_cons_of_not_entered fun xs h => absurd h (hroot xs),
        follow?_obj hl, follow?_cons hl ls hroot]
      by_cases hkl : k = l
      · subst hkl
        have hdiv : Path.Diverge ks ls := hdiv.of_cons
        have hne : ls ≠ [] := fun he => hdiv.2 (he ▸ List.nil_prefix)
        rw [Members.get?_insert_self, Option.bind_some]
        cases hchild : (membersOrNone root).get? (String.ofList k) with
        | none => exact follow?_put_empty hdiv hls value
        | some child =>
          have hbelow : ∀ front, front <+: ks → front ≠ ks → ∀ xs,
              follow? front child ≠ some (.arr xs) := by
            intro front hfront hproper xs
            have habove := harrays (k :: front) (List.cons_prefix_cons.mpr ⟨rfl, hfront⟩)
              (fun he => hproper (List.cons.inj he).2) xs
            rwa [follow?_cons hl front hroot, hchild] at habove
          rw [Option.bind_some]
          cases child with
          | obj ns => exact ih hdiv hls hbelow
          | arr xs =>
            have hks : [] ≠ ks := fun he => hdiv.1 (he ▸ List.nil_prefix)
            exact absurd rfl (hbelow [] List.nil_prefix hks xs)
          | _ =>
            -- the scalar makes room for an object
            exact (follow?_put_empty hdiv hls value).trans (follow?_scalar rfl hne).symm
      · rw [Members.get?_insert_of_ne _ _ (ofList_ne (Ne.symm hkl))]

/-- **A write touches only its own path.** When no path above it leads to an array, reading at a
path without brackets that diverges from it finds the same before and after the write. -/
theorem get?_set_of_diverge {path other : String} (hfree : Path.BracketFree other)
    (hdiv : Path.Diverge (Path.written path) (Path.written other))
    (harrays : ∀ front, Path.Above front path → ∀ xs, root.get? front ≠ some (.arr xs))
    (value : Json) : (root.set path value).get? other = root.get? other := by
  cases hvalid : Path.valid path with
  | false => rw [set_of_not_valid root value hvalid]
  | true =>
    rw [set_of_valid root value hvalid, get?_eq_follow?, get?_eq_follow?]
    refine follow?_put_of_diverge hdiv (fun k hk => hfree.not_mem hk) ?_ value
    intro segments habove hproper xs
    obtain ⟨front, rfl⟩ := Path.exists_written_eq hvalid habove
    rw [← get?_eq_follow?]
    exact harrays front ⟨habove, hproper⟩ xs

/-- A stock with a list beside what is written, and a number in the way of it. -/
def stockLines : Json :=
  .obj [("stock", .obj [("total", .nat 2), ("lines", .arr [.obj [("sku", .str "A")]])])]

theorem get?_set_of_diverge_stock :
    stockLines.set "stock.total.lines[0].sku" .null =
        .obj [("stock", .obj [("total", .obj [("lines[0]", .obj [("sku", .null)])]),
          ("lines", .arr [.obj [("sku", .str "A")]])])] ∧
      (stockLines.set "stock.total.lines[0].sku" .null).get? "stock.lines.0.sku" =
        stockLines.get? "stock.lines.0.sku" ∧
      stockLines.get? "stock.lines.0.sku" = some (.str "A") := by
  refine ⟨rfl, get?_set_of_diverge (by simp [Path.BracketFree]) (by decide) ?_ .null, rfl⟩
  rintro front ⟨habove, hproper⟩ xs hget
  -- the paths above it have its first segments, three at most
  have hlength : (Path.written front).length < 4 :=
    Nat.lt_of_le_of_ne habove.length_le fun he => hproper (habove.eq_of_length he)
  rw [get?_eq_follow?, List.prefix_iff_eq_take.mp habove] at hget
  generalize (Path.written front).length = n at hget hlength
  match n, hlength with
  | 0, _ => cases hget
  | 1, _ => cases hget
  | 2, _ => cases hget
  | 3, _ => cases hget

end Json

end Reshape
