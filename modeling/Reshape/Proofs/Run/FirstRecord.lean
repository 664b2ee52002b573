/-
# Reshape.Proofs.Run.FirstRecord -- the fields of records are found in the first record

A survey of records and a run on them read the same array. The survey walks the array as a whole and
so puts `[*]` in front of every path; the run applies a path to each record by itself. Between them
stands `Survey.fromElement`, which takes one `[*]` away.

Segments say what is right about that. A path that goes on below the first element begins with a
segment without a key (`exists_everyItem`), and from the element on the same segments lead to the
same value with one level less (`first?_everyItem`). Where only one level is spoken of,
`fromElement` leaves just the segments behind it (`fromElement_text`). With a second level the text
goes on with a bracket and not with a dot, and `fromElement` leaves it as it is
(`fromElement_eq_self`). That is so exactly when the first record is an array that holds containers
(`Json.isGrid`), so a field of records is found in the first one at its path, or at its path without
the first `[*]` (`exists_segments_of_mem_recordFields`).

A rule that copies the field then asks for one level too many: what was found in the record is looked
for in the items of the record. `first_result_of_surveyed_field` says that this is all that can go
wrong. A grid of scalars has the values all the same; `not_forall_first_result` has the smallest
record that has none.
-/

import Reshape.Proofs.Path.Enumeration
import Reshape.Proofs.Run.LastWrite
import Reshape.Proofs.Survey.Frontier

namespace Reshape

open Reshape.Path (Segment Suffix)

/-- An array that holds containers, and is entered by a survey. -/
def Json.isGrid : Json → Bool
  | .arr xs => xs.any isContainer
  | _ => false

/-! ## Paths from an element on -/

namespace Path

/-- Only a segment that has no key and speaks of every element begins with the suffix for that. -/
theorem Segment.Proper.eq_everyItem {s : Segment} (hs : s.Proper) {more rest : List Char}
    (h : s.text.toList ++ more = everyText.toList ++ rest) :
    ∃ count, s = ⟨"", .wildcard (count + 1)⟩ := by
  obtain ⟨key, access⟩ := s
  rw [Segment.toList_text] at h
  -- a key would stand where the bracket is
  have hkey : key = "" := by
    rw [← String.toList_eq_nil_iff]
    cases hchars : key.toList with
    | nil => rfl
    | cons c cs =>
      rw [hchars] at h
      obtain rfl : c = '[' := (List.cons.inj h).1
      exact absurd rfl (hs.key '[' (hchars ▸ List.mem_cons_self)).2.1
  subst hkey
  cases access with
  | plain => exact absurd rfl (hs.nonempty rfl)
  | wildcard count =>
    obtain ⟨n, rfl⟩ := Nat.exists_eq_succ_of_ne_zero (show count ≠ 0 from hs.access)
    exact ⟨n, rfl⟩
  | indices ns =>
    -- a position would have a digit where the star is
    obtain ⟨n, ns, rfl⟩ := List.exists_cons_of_ne_nil hs.access.1
    cases hdigits : (Decimal.natText n).toList with
    | nil => exact absurd ((Decimal.toList_natText n).symm.trans hdigits) Nat.toDigits_ne_nil
    | cons d ds =>
      have hd : d.isDigit = true := isDigit_of_mem_natText (n := n) (hdigits ▸ List.mem_cons_self)
      have hstar : d = '*' := by
        simp only [Access.suffixes, List.map_cons, List.flatMap_cons, Suffix.text, Suffix.inner,
          hdigits] at h
        exact (List.cons.inj (List.cons.inj h).2).1
      rw [hstar] at hd
      cases hd

theorem prefix_text_cons (s : Segment) (ss : List Segment) :
    s.text.toList <+: (text (s :: ss)).toList := by
  cases ss with
  | nil => exact List.prefix_rfl
  | cons t ts =>
    rw [text_cons_cons, String.toList_append, String.toList_append, List.append_assoc]
    exact List.prefix_append _ _

/-- The segments of a path that goes on from the suffix for every element. -/
theorem exists_everyItem {ss : List Segment} (hss : ∀ s ∈ ss, s.Proper) {rest : List Char}
    (h : (text ss).toList = everyText.toList ++ rest) :
    ∃ (count : Nat) (ts : List Segment), ss = ⟨"", .wildcard (count + 1)⟩ :: ts := by
  cases ss with
  | nil => cases h
  | cons s ts =>
    obtain ⟨more, hmore⟩ := prefix_text_cons s ts
    obtain ⟨count, rfl⟩ := (hss s List.mem_cons_self).eq_everyItem (hmore.trans h)
    exact ⟨count, ts, rfl⟩

theorem Segment.proper_everyItem (count : Nat) : Segment.Proper ⟨"", .wildcard (count + 1)⟩ where
  key := fun _ hc => absurd hc List.not_mem_nil
  access := Nat.succ_ne_zero count
  nonempty := fun _ => Access.noConfusion

/-- One more level of elements. -/
theorem text_everyItem_succ (count : Nat) (ts : List Segment) :
    text (⟨"", .wildcard (count + 2)⟩ :: ts) =
      everyText ++ text (⟨"", .wildcard (count + 1)⟩ :: ts) := by
  have hsegment : Segment.text ⟨"", .wildcard (count + 2)⟩ =
      everyText ++ Segment.text ⟨"", .wildcard (count + 1)⟩ := by
    apply String.toList_injective
    rw [String.toList_append, Segment.toList_text, Segment.toList_text]
    rfl
  cases ts with
  | nil => exact hsegment
  | cons t ts => rw [text_cons_cons, text_cons_cons, hsegment, String.append_assoc,
      String.append_assoc, String.append_assoc]

end Path

/-- **One level of elements less**, from the first element on. -/
theorem Json.first?_everyItem (count : Nat) (ts : List Segment) (x : Json) (xs : List Json) :
    first? (⟨"", .wildcard (count + 1)⟩ :: ts) (.arr (x :: xs)) =
      (itemAt? (List.replicate count 0) x).bind (first? ts) := by
  rw [first?, Segment.first?, child?_empty, Option.bind_some, Path.Access.suffixes,
    List.map_replicate, List.replicate_succ, itemAt?_cons]
  rfl

/-- All values of a path are those to which its steps lead. -/
theorem Json.getAll_text {ss : List Segment} (hss : ∀ s ∈ ss, s.Proper) (node : Json) :
    node.getAll (Path.text ss) = along (Path.hops ss) node := by
  rw [getAll, Path.parse_text hss]
  exact (expandAll_eq_flatMap ss [node]).trans (List.flatMap_singleton _ node)

/-- **One level of elements less**, over all of them. -/
theorem Json.getAll_everyText_append {count : Nat} {ts : List Segment} (hts : ∀ s ∈ ts, s.Proper)
    (xs : List Json) :
    (Json.arr xs).getAll (Path.everyText ++ Path.text (⟨"", .wildcard (count + 1)⟩ :: ts)) =
      xs.flatMap fun x => x.getAll (Path.text (⟨"", .wildcard (count + 1)⟩ :: ts)) := by
  have hproper : ∀ n : Nat, ∀ s ∈ (⟨"", .wildcard (n + 1)⟩ : Segment) :: ts, s.Proper := fun n =>
    List.forall_mem_cons.mpr ⟨Segment.proper_everyItem n, hts⟩
  rw [← Path.text_everyItem_succ, getAll_text (hproper (count + 1))]
  -- the segment without a key stays at the array, and its first suffix goes to the items
  refine (List.flatMap_singleton _ (Json.arr xs)).trans (List.flatMap_congr fun x _ => ?_)
  rw [getAll_text (hproper count)]
  exact (List.flatMap_singleton _ x).symm

namespace Survey

/-- **A path from the elements on** has the segments behind the one for the elements. -/
theorem fromElement_text (ts : List Segment) :
    fromElement (Path.text (⟨"", .wildcard 1⟩ :: ts)) = Path.text ts := by
  cases ts with
  | nil => rfl
  | cons t ts =>
    have htext : (Path.text (⟨"", .wildcard 1⟩ :: t :: ts)).toList =
        (Path.everyText ++ ".").toList ++ (Path.text (t :: ts)).toList := by
      rw [Path.text_cons_cons]
      exact String.toList_append
    rw [fromElement, htext, Text.dropStart?_append]
    exact String.ofList_toList

theorem fromElement_eq_self {path : String} {rest : List Char}
    (h : path.toList = (Path.everyText ++ Path.everyText).toList ++ rest) :
    fromElement path = path := by
  have hne : path ≠ Path.everyText := by
    rintro rfl
    cases h
  have hdrop : Text.dropStart? (Path.everyText ++ ".").toList
      ((Path.everyText ++ Path.everyText).toList ++ rest) = none := rfl
  rw [fromElement, h, hdrop]
  exact if_neg hne

/-! ## Fields of records -/

/-- **The fields of an array** are those below its first element, or there is one for it as a whole,
and then that element is no grid. -/
theorem fields_arr {x : Json} (hx : x.Plain) (xs : List Json) :
    fields {} "" (.arr (x :: xs)) = [field {} "" (.arr (x :: xs))] ∧ x.isGrid = false ∨
      fields {} "" (.arr (x :: xs)) = walk {} Path.everyText 9 x := by
  by_cases hstop : (x :: xs).any Json.isContainer = false ∨ 10 = 0
  · refine .inl ⟨walk_arr_of_not_entered hstop, ?_⟩
    have hscalar : x.isContainer = false := by
      have hany := hstop.resolve_right (by decide)
      rw [List.any_cons, Bool.or_eq_false_iff] at hany
      exact hany.1
    cases x with
    | arr ys => cases hscalar
    | _ => rfl
  · exact .inr (walk_arr_of_entered rfl rfl rfl hx hstop)

/-- The fields below a grid are those below its own first element, so their paths begin with two
levels. -/
theorem fromElement_of_grid {x : Json} (hx : x.Plain) (hgrid : x.isGrid = true) {g : Field}
    (hg : g ∈ walk {} Path.everyText 9 x) : fromElement g.path = g.path := by
  cases x with
  | arr ys =>
    cases ys with
    | nil => cases hgrid
    | cons y ys =>
      have hgo : ¬ ((y :: ys).any Json.isContainer = false ∨ 9 = 0) := by
        rw [show (y :: ys).any Json.isContainer = true from hgrid]
        decide
      have hy : y.Plain := hx.items y List.mem_cons_self
      have hwalk : walk {} Path.everyText 9 (.arr (y :: ys)) =
          walk {} (Path.everyText ++ Path.everyText) 8 y := walk_arr_of_entered rfl rfl rfl hy hgo
      rw [hwalk] at hg
      obtain ⟨rest, hrest, -⟩ := extends_of_mem_walk hy (by decide) hg
      exact fromElement_eq_self hrest
  | _ => cases hgrid

/-- Below a first element that is no grid there is no second level. -/
theorem eq_zero_of_not_grid {x : Json} (hgrid : x.isGrid = false) {g : Field}
    (hg : g ∈ walk {} Path.everyText 9 x) {count : Nat} {ts : List Segment}
    (hss : ∀ s ∈ (⟨"", .wildcard (count + 1)⟩ : Segment) :: ts, s.Proper)
    (hpath : g.path = Path.text (⟨"", .wildcard (count + 1)⟩ :: ts)) {w : Json}
    (hw : (Json.itemAt? (List.replicate count 0) x).bind (Json.first? ts) = some w) :
    count = 0 := by
  cases count with
  | zero => rfl
  | succ count =>
    -- a second level asks for an array, and one without containers is a field as a whole
    rw [List.replicate_succ, Json.itemAt?_cons, Option.bind_assoc] at hw
    cases x with
    | arr ys =>
      rw [walk_arr_of_not_entered (.inl hgrid), List.mem_singleton] at hg
      have hwhole : g.path = Path.everyText := congrArg Field.path hg
      have hone : Path.parse Path.everyText = .ok [⟨"", .wildcard 1⟩] := rfl
      rw [← hwhole, hpath, Path.parse_text hss] at hone
      cases hone
    | _ => cases hw

/-- **A field of the records of an array is found in the first record**: at its path, or at its path
without the first `[*]` if that record is a grid. -/
theorem exists_segments_of_mem_recordFields {document x : Json} {xs : List Json} {path : String}
    (hroot : document.get? path = some (.arr (x :: xs))) (hplain : x.Plain) {f : Field}
    (hf : f ∈ recordFields {} path document) :
    ∃ (ss : List Segment) (w : Json), (∀ s ∈ ss, s.Proper) ∧ Json.first? ss x = some w ∧
      (x.isGrid = false → f.path = Path.text ss) ∧
      (x.isGrid = true → f.path = Path.everyText ++ Path.text ss ∧
        ∃ (count : Nat) (ts : List Segment), ss = ⟨"", .wildcard (count + 1)⟩ :: ts) := by
  have ho : ({} : Options).maxArrayIndices ≤ Decimal.maxUnsigned := by decide
  have hself : ∀ s ∈ ([] : List Segment), s.Proper := fun s hs => absurd hs List.not_mem_nil
  rw [recordFields, hroot] at hf
  obtain ⟨g, hg, rfl⟩ := List.mem_map.mp hf
  dsimp only
  rcases fields_arr hplain xs with ⟨hw, hgrid⟩ | hw
  · -- the array is a field as a whole, and so is each record
    rw [hw, List.mem_singleton] at hg
    refine ⟨[], x, hself, rfl, fun _ => hg ▸ rfl, fun h => ?_⟩
    cases hgrid.symm.trans h
  · rw [hw] at hg
    have hstart : Reached (.arr (x :: xs)) (element "" .every) x := .element .root trivial rfl rfl
    obtain ⟨w, hreached, -⟩ := reached_of_mem_walk ho hplain hstart hg
    obtain ⟨ss, hss, hpath, hfirst⟩ := hreached.segments
    obtain ⟨rest, hrest, -⟩ := extends_of_mem_walk hplain (element_ne_empty "" .every) hg
    obtain ⟨count, ts, rfl⟩ := Path.exists_everyItem hss (hpath ▸ hrest)
    have hts : ∀ t ∈ ts, t.Proper := fun t ht => hss t (List.mem_cons_of_mem _ ht)
    rw [Json.first?_everyItem] at hfirst
    cases hgrid : x.isGrid with
    | false =>
      obtain rfl := eq_zero_of_not_grid hgrid hg hss hpath hfirst
      refine ⟨ts, w, hts, hfirst, fun _ => ?_, fun h => absurd h Bool.false_ne_true⟩
      rw [hpath, fromElement_text]
    | true =>
      have hkept : fromElement g.path = g.path := fromElement_of_grid hplain hgrid hg
      cases count with
      | zero =>
        -- behind one level stand the other segments alone, which are not the whole path
        rw [hpath, fromElement_text] at hkept
        have hsame := congrArg Path.parse hkept
        rw [Path.parse_text hts, Path.parse_text hss] at hsame
        exact absurd (Except.ok.inj hsame).symm (List.cons_ne_self _ _)
      | succ count =>
        refine ⟨⟨"", .wildcard (count + 1)⟩ :: ts, w, ?_, ?_, fun h => absurd h Bool.noConfusion,
          fun _ => ⟨?_, count, ts, rfl⟩⟩
        · exact List.forall_mem_cons.mpr ⟨Path.Segment.proper_everyItem count, hts⟩
        · rw [Json.first?, Path.Segment.first?, Path.Access.suffixes, List.map_replicate]
          exact hfirst
        · rw [hkept, hpath, Path.text_everyItem_succ]

end Survey

namespace Run

/-! ## The first result -/

/-- A rule that copies writes something where segments lead to a value. -/
theorem exists_contribution_copyRule {ts : List Segment} (hts : ∀ t ∈ ts, t.Proper)
    {record w : Json} (hplain : record.Plain) (hfirst : Json.first? ts record = some w)
    (c : Context) (index : Option Nat) (id target : String) :
    ∃ value, contribution c record index (copyRule id (Path.text ts) target) = some value := by
  rw [contribution_copyRule]
  cases hwild : Path.hasWildcard (Path.text ts) with
  | true =>
    have hhead := Json.head?_getAll_text hts hfirst
    have hsome : ¬ (record.getAll (Path.text ts)).isEmpty = true := by
      intro hempty
      rw [List.isEmpty_iff.mp hempty] at hhead
      cases hhead
    exact ⟨_, (if_pos rfl).trans (if_neg hsome)⟩
  | false =>
    have haccess := Path.access_ne_wildcard hts hwild
    exact ⟨w, (if_neg Bool.false_ne_true).trans (Json.get?_text hts haccess hplain hfirst)⟩

/-- A rule that copies a field of the records writes something for the first one, unless that is a
grid and none of its items has values at the path without the first `[*]`. -/
theorem isSome_contribution_of_mem_recordFields {document first : Json} {rest : List Json}
    {path : String} (hroot : document.get? path = some (.arr (first :: rest)))
    (hplain : first.Plain) {f : Survey.Field} (hf : f ∈ Survey.recordFields {} path document)
    (c : Context) (index : Option Nat) (id target : String) :
    (contribution c first index (copyRule id f.path target)).isSome = true ↔
      (first.isGrid = true → ∃ (path : String) (items : List Json),
        f.path = Path.everyText ++ path ∧ first = .arr items ∧
          ∃ item ∈ items, item.getAll path ≠ []) := by
  obtain ⟨ss, w, hss, hw, hrow, hlevel⟩ :=
    Survey.exists_segments_of_mem_recordFields hroot hplain hf
  cases hgrid : first.isGrid with
  | false =>
    obtain ⟨value, hvalue⟩ := exists_contribution_copyRule hss hplain hw c index id target
    rw [hrow hgrid, hvalue]
    exact iff_of_true rfl fun h => absurd h Bool.false_ne_true
  | true =>
    obtain ⟨hpath, count, ts, rfl⟩ := hlevel hgrid
    obtain ⟨-, hts⟩ := List.forall_mem_cons.mp hss
    obtain ⟨items, rfl⟩ : ∃ items, first = .arr items := by
      cases first with
      | arr items => exact ⟨items, rfl⟩
      | _ => cases hgrid
    have hnonempty : ∀ found : List Json,
        (if found.isEmpty then none else some (Json.arr found)).isSome = true ↔ found ≠ [] := by
      intro found
      cases found <;> simp
    have hwild : Path.hasWildcard f.path = true := by
      rw [hpath, ← Path.text_everyItem_succ]
      exact Path.hasWildcard_text List.mem_cons_self rfl (Nat.succ_ne_zero _)
    rw [contribution_copyRule, if_pos hwild, hpath, Json.getAll_everyText_append hts, hnonempty]
    constructor
    · intro hfound _
      refine ⟨_, items, rfl, rfl, ?_⟩
      by_contra hnone
      push Not at hnone
      exact hfound (List.flatMap_eq_nil_iff.mpr hnone)
    · intro h hempty
      obtain ⟨path, others, hsame, hitems, item, hitem, hvalues⟩ := h rfl
      cases hitems
      obtain rfl : Path.text (⟨"", .wildcard (count + 1)⟩ :: ts) = path :=
        (String.append_right_inj Path.everyText).mp hsame
      exact hvalues (List.flatMap_eq_nil_iff.mp hempty item hitem)

/-- What a plan whose only rule copies to `v` gives a record there. -/
theorem get?_runRecord_of_copyRule {c : Context} {o : Options} {id path : String}
    (hdefaults : o.templateDefaults = false) (hrules : c.plan.rules = [copyRule id path "v"])
    (record : Json) (index : Option Nat) :
    (runRecord c o record index).get? "v" =
      contribution c record index (copyRule id path "v") := by
  have htarget : target (copyRule id path "v") = "v" := by
    have hstrip : Path.stripWildcards "v" = "v" := by decide
    rw [target]
    split
    case isTrue => exact hstrip
    case isFalse => rfl
  have hrecord : runRecord c o record index =
      runRule c record index (.obj []) (copyRule id path "v") := by
    rw [runRecord, hdefaults, if_neg Bool.false_ne_true, hrules, List.foldl_cons, List.foldl_nil]
  rw [hrecord]
  cases hvalue : contribution c record index (copyRule id path "v") with
  | none =>
    rw [runRule_of_contribution_none hvalue]
    rfl
  | some value =>
    rw [runRule_of_contribution hvalue, htarget, Json.set_of_valid _ _ rfl, Json.get?_eq_follow?]
    exact Json.follow?_put_self _ _ _

/-- **What a survey of records lists, a run finds**, if the first record is no grid. A plan whose only
rule copies a field of the records gives the first record a value at `v`, unless that record is an
array of containers. Then the path of the field is one level too long, and what was found in the
record is looked for in its items: there is a value exactly if one of them has some at the path
without the first `[*]`. -/
theorem first_result_of_surveyed_field {p : Plan} {o : Options} {now : Calendar.Instant}
    {document first : Json} {rest : List Json} {f : Survey.Field} {id : String}
    (hplain : document.Plain)
    (hroot : document.get? p.selection.effectivePrimaryPath = some (.arr (first :: rest)))
    (hf : f ∈ Survey.recordFields {} p.selection.effectivePrimaryPath document)
    (hkind : p.selection.kind = .array) (hunwrap : p.selection.unwrapSingleItems = false)
    (henvelope : ∀ e, p.envelope = some e → e.enabled = false)
    (hdefaults : o.templateDefaults = false) (hrules : p.rules = [copyRule id f.path "v"]) :
    (∃ (result : Json) (results : List Json) (value : Json),
      run p o now document = .arr (result :: results) ∧ result.get? "v" = some value) ↔
      (first.isGrid = true → ∃ (path : String) (items : List Json),
        f.path = Path.everyText ++ path ∧ first = .arr items ∧
          ∃ item ∈ items, item.getAll path ≠ []) := by
  have hfirst : first.Plain :=
    (Json.Plain.hereditary.get? hplain hroot).items first List.mem_cons_self
  let c : Context := ⟨p, p.selection.primary?.map (·.id), []⟩
  have hrun : run p o now document =
      .arr (runRecord c o first (some 0) :: runRecords c o 1 rest) := by
    rw [run, runIn_of_not_enabled henvelope, payload, recordsOf, hroot, hkind, hunwrap]
    exact unwrapped_false _
  rw [hrun, ← isSome_contribution_of_mem_recordFields hroot hfirst hf c (some 0) id "v",
    ← get?_runRecord_of_copyRule hdefaults hrules, Option.isSome_iff_exists]
  constructor
  · rintro ⟨result, results, value, hsame, hvalue⟩
    cases hsame
    exact ⟨value, hvalue⟩
  · rintro ⟨value, hvalue⟩
    exact ⟨_, _, value, rfl, hvalue⟩

/-- A plan that copies one field of the records at a path. -/
def fieldPlan (primaryPath path : String) : Plan where
  selection := { kind := .array, sources := [{ id := "s" }], primaryPath := some primaryPath }
  rules := [copyRule "m" path "v"]

/-- Two rows, the first one with a list of tags. -/
def taggedRows : List Json :=
  [.obj [("name", .str "a"), ("tags", .arr [.obj [("text", .str "x")], .obj [("text", .str "y")]])],
    .obj [("name", .str "b")]]

/-- The texts of the tags are a field of the rows, and the first row has them. -/
theorem first_result_of_surveyed_field_tags :
    ∃ (result : Json) (results : List Json) (value : Json),
      run (fieldPlan "rows" "tags[*].text") { templateDefaults := false } default
          (.obj [("rows", .arr taggedRows)]) = .arr (result :: results) ∧
        result.get? "v" = some value := by
  have hfields : Survey.recordFields {} "rows" (.obj [("rows", .arr taggedRows)]) =
      [⟨"name", .string, none⟩, ⟨"tags[*].text", .string, none⟩] := rfl
  have hf : ⟨"tags[*].text", .string, none⟩ ∈
      Survey.recordFields {} "rows" (.obj [("rows", .arr taggedRows)]) := by
    rw [hfields]
    exact List.mem_cons_of_mem _ List.mem_cons_self
  exact (first_result_of_surveyed_field (p := fieldPlan "rows" "tags[*].text") (by decide) rfl hf
    rfl rfl (fun e he => by cases he) rfl rfl).mpr fun hgrid => by cases hgrid

/-- The lists in a grid of scalars are found one level deeper than the survey found them. -/
example :
    run (fieldPlan "" "[*][*]") { templateDefaults := false } default
      (.arr [.arr [.arr [Json.nat 1, Json.nat 2]]]) =
        .arr [.obj [("v", .arr [Json.nat 1, Json.nat 2])]] := rfl

/-- **An array of arrays of objects has fields that are not found in its records**: their paths
speak of elements on two levels, and a record has only one of them left. -/
theorem not_forall_first_result :
    ¬ ∀ (p : Plan) (o : Options) (now : Calendar.Instant) (document first : Json)
      (rest : List Json) (f : Survey.Field) (id : String),
      document.Plain →
      document.get? p.selection.effectivePrimaryPath = some (.arr (first :: rest)) →
      f ∈ Survey.recordFields {} p.selection.effectivePrimaryPath document →
      p.selection.kind = .array → p.selection.unwrapSingleItems = false →
      (∀ e, p.envelope = some e → e.enabled = false) → o.templateDefaults = false →
      p.rules = [copyRule id f.path "v"] →
      ∃ (result : Json) (results : List Json) (value : Json),
        run p o now document = .arr (result :: results) ∧ result.get? "v" = some value := by
  intro h
  have hfields : Survey.recordFields {} "" (.arr [.arr [.obj [("a", Json.nat 1)]]]) =
      [⟨"[*][*].a", .number, none⟩] := rfl
  obtain ⟨result, results, value, hrun, hvalue⟩ :=
    h (fieldPlan "" "[*][*].a") { templateDefaults := false } default _ _ [] _ "m" (by decide) rfl
      (hfields ▸ List.mem_singleton_self _) rfl rfl (fun e he => by cases he) rfl rfl
  have hempty : run (fieldPlan "" "[*][*].a") { templateDefaults := false } default
      (.arr [.arr [.obj [("a", Json.nat 1)]]]) = .arr [.obj []] := rfl
  rw [hempty] at hrun
  cases hrun
  cases hvalue

end Run

end Reshape
