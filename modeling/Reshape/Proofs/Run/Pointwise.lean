/-
# Reshape.Proofs.Run.Pointwise -- an array is mapped record by record

Running a plan on an array is running it on each record by itself, as an object, together with the
documents that belong to the position of the record: of every other source the element there, if its
root is an array, and the whole root otherwise.

Both runs read the same for every rule (`input_perRecord`), so they write the same.
-/

import Reshape.Run.Basic

namespace Reshape.Run

/-! ## One record by itself -/

/-- **The plan for one record**: an object is selected, and every document is a record itself. -/
def perRecord (p : Plan) : Plan :=
  { p with
    selection :=
      { p.selection with
        kind := .object
        primaryPath := some ""
        sources := p.selection.sources.map fun s => { s with primaryPath := "" } } }

/-- What a source has for the record at a position: the element there if the root of the source is
an array, else the root. Nothing if there is no document or no root in it. -/
def recordAt? (documents : Members) (i : Nat) (s : Plan.Source) : Option Json :=
  match (documents.get? s.id).bind fun d => d.get? s.primaryPath with
  | some (.arr items) => items[i]?
  | root => root

/-- **The documents for the record at a position**: the record itself for the primary source, and
what the other sources have there. -/
def recordDocuments (p : Plan) (documents : Members) (record : Json) (i : Nat) : Members :=
  match p.selection.sources with
  | [] => []
  | primary :: others =>
    (primary.id, record) :: others.filterMap fun s =>
      (recordAt? documents i s).map fun v => (s.id, v)

/-! ## Looking up by distinct keys -/

/-- Entries that are made of a list with distinct keys are found where the key is. -/
theorem lookup_filterMap_of_nodup {α β : Type} (key : α → String) (f : α → Option β) (k : String)
    {xs : List α} (h : (xs.map key).Nodup) :
    List.lookup k (xs.filterMap fun x => (f x).map fun v => (key x, v)) =
      (xs.find? fun x => key x == k).bind f := by
  induction xs with
  | nil => rfl
  | cons x xs ih =>
    obtain ⟨hx, hxs⟩ := List.nodup_cons.mp h
    rw [List.filterMap_cons]
    by_cases hk : key x = k
    · subst hk
      rw [List.find?_cons_of_pos (p := fun y => key y == key x) (beq_self_eq_true _),
        Option.bind_some]
      cases hf : f x with
      | some v => exact List.lookup_cons_self
      | none =>
        -- The key is not found further on, as it stands here.
        have hnot : (xs.find? fun y => key y == key x) = none := by
          rw [List.find?_eq_none]
          intro y hy he
          exact hx (List.mem_map.mpr ⟨y, hy, eq_of_beq he⟩)
        rw [Option.map_none, ih hxs, hnot, Option.bind_none]
    · have hk' : (key x == k) = false := beq_eq_false_iff_ne.mpr hk
      rw [List.find?_cons_of_neg (p := fun y => key y == k) (by rw [hk']; exact Bool.false_ne_true)]
      cases hf : f x with
      | none => exact ih hxs
      | some v =>
        have hk'' : (k == key x) = false := beq_eq_false_iff_ne.mpr (Ne.symm hk)
        rw [Option.map_some, List.lookup_cons, hk'']
        exact ih hxs

theorem lookup_otherRoots {p : Plan} (documents : Members) (id : String)
    (h : ((p.selection.sources.drop 1).map Plan.Source.id).Nodup) :
    (otherRoots p documents).lookup id =
      ((p.selection.sources.drop 1).find? fun s => s.id == id).bind fun s =>
        (documents.get? s.id).bind fun d => d.get? s.primaryPath :=
  lookup_filterMap_of_nodup Plan.Source.id _ id h

/-! ## Both runs read the same -/

theorem recordAt?_eq_bind (documents : Members) (i : Nat) (s : Plan.Source) :
    recordAt? documents i s =
      ((documents.get? s.id).bind fun d => d.get? s.primaryPath).bind fun root =>
        counterpart root (some i) := by
  rw [recordAt?]
  cases (documents.get? s.id).bind fun d => d.get? s.primaryPath with
  | none => rfl
  | some root => cases root <;> rfl

variable {p : Plan} {primary : Plan.Source} {others : List Plan.Source}

/-- What the sources beside the primary one have at a position is found by their ids. -/
theorem get?_recordDocuments (hsources : p.selection.sources = primary :: others)
    (hids : (p.selection.sources.map Plan.Source.id).Nodup) (documents : Members) (record : Json)
    (i : Nat) {id : String} (hid : id ≠ primary.id) :
    (recordDocuments p documents record i).get? id =
      (others.find? fun s => s.id == id).bind (recordAt? documents i) := by
  rw [hsources, List.map_cons, List.nodup_cons] at hids
  rw [recordDocuments, hsources]
  have hne : (id == primary.id) = false := beq_eq_false_iff_ne.mpr hid
  rw [Members.get?, List.lookup_cons, hne]
  exact lookup_filterMap_of_nodup Plan.Source.id _ id hids.2

/-- In a run on the array, the element of another source is what that source has there. -/
theorem counterpart_otherRoots (hsources : p.selection.sources = primary :: others)
    (hids : (p.selection.sources.map Plan.Source.id).Nodup) (documents : Members) (i : Nat)
    (id : String) :
    (((otherRoots p documents).lookup id).bind fun root => counterpart root (some i)) =
      (others.find? fun s => s.id == id).bind (recordAt? documents i) := by
  have hdrop : p.selection.sources.drop 1 = others := by
    rw [hsources]
    rfl
  rw [hsources, List.map_cons, List.nodup_cons] at hids
  rw [lookup_otherRoots documents id (by rw [hdrop]; exact hids.2), hdrop, Option.bind_assoc]
  exact congrArg _ (funext fun s => (recordAt?_eq_bind documents i s).symm)

/-- In a run on the record alone, the root of another source is what that source has there. -/
theorem counterpart_otherRoots_perRecord (hsources : p.selection.sources = primary :: others)
    (hids : (p.selection.sources.map Plan.Source.id).Nodup) (documents : Members) (record : Json)
    (i : Nat) {id : String} (hid : id ≠ primary.id) :
    (((otherRoots (perRecord p) (recordDocuments p documents record i)).lookup id).bind
        fun root => counterpart root none) =
      (others.find? fun s => s.id == id).bind (recordAt? documents i) := by
  have hdrop : (perRecord p).selection.sources.drop 1 =
      others.map fun s => { s with primaryPath := "" } := by
    rw [perRecord, hsources]
    rfl
  have hnodup : ((others.map fun s => { s with primaryPath := "" }).map
      Plan.Source.id).Nodup := by
    rw [hsources, List.map_cons, List.nodup_cons] at hids
    rw [List.map_map]
    exact hids.2
  simp only [counterpart_none, Option.bind_fun_some]
  rw [lookup_otherRoots _ id (by rw [hdrop]; exact hnodup), hdrop, List.find?_map]
  cases hfound : others.find? ((fun s => s.id == id) ∘ fun s => { s with primaryPath := "" }) with
  | none =>
    change others.find? (fun s => s.id == id) = none at hfound
    rw [hfound]
    rfl
  | some s =>
    have hs : s.id = id := eq_of_beq (List.find?_some hfound :)
    change others.find? (fun s => s.id == id) = some s at hfound
    rw [Option.map_some, Option.bind_some]
    dsimp only
    rw [hs, get?_recordDocuments hsources hids documents record i hid, hfound]
    exact Option.bind_fun_some _

/-- **What a rule reads** for a record of an array is what it reads for the record by itself. -/
theorem input_perRecord (hsources : p.selection.sources = primary :: others)
    (hids : (p.selection.sources.map Plan.Source.id).Nodup) (documents : Members) (record : Json)
    (i : Nat) (r : Plan.Rule) :
    input ⟨p, some primary.id, otherRoots p documents⟩ r record (some i) =
      input ⟨perRecord p, some primary.id,
        otherRoots (perRecord p) (recordDocuments p documents record i)⟩ r record none := by
  have hmode : (perRecord p).selection.mergeMode = p.selection.mergeMode := rfl
  rw [input, input, hmode]
  cases r.sourceId with
  | none => rfl
  | some id =>
    dsimp only
    by_cases hid : primary.id = id
    · rw [if_pos (congrArg some hid), if_pos (congrArg some hid)]
    · have hid' : ¬ some primary.id = some id := fun h => hid (Option.some.inj h)
      rw [if_neg hid', if_neg hid', counterpart_otherRoots hsources hids,
        counterpart_otherRoots_perRecord hsources hids documents record i (Ne.symm hid)]

/-! ## Both runs write the same -/

/-- **A record of an array** is mapped as it is by itself. -/
theorem runRecord_perRecord (hsources : p.selection.sources = primary :: others)
    (hids : (p.selection.sources.map Plan.Source.id).Nodup) (o : Options) (documents : Members)
    (record : Json) (i : Nat) :
    runRecord ⟨p, some primary.id, otherRoots p documents⟩ o record (some i) =
      runRecord ⟨perRecord p, some primary.id,
        otherRoots (perRecord p) (recordDocuments p documents record i)⟩ o record none := by
  have hrule :
      runRule ⟨p, some primary.id, otherRoots p documents⟩ record (some i) =
        runRule ⟨perRecord p, some primary.id,
          otherRoots (perRecord p) (recordDocuments p documents record i)⟩ record none := by
    funext out r
    rw [runRule, runRule, input_perRecord hsources hids documents record i r]
    rfl
  rw [runRecord, runRecord, hrule]
  rfl

/-! ## Runs -/

/-- **The documents of a record** give the output of the record. -/
theorem runMany_perRecord (hsources : p.selection.sources = primary :: others)
    (henvelope : ∀ e, p.envelope = some e → e.enabled = false) (o : Options)
    (now : Calendar.Instant) (documents : Members) (record : Json) (i : Nat) :
    runMany (perRecord p) o now (recordDocuments p documents record i) =
      .ok (runRecord ⟨perRecord p, some primary.id,
        otherRoots (perRecord p) (recordDocuments p documents record i)⟩ o record none) := by
  have hprimary : (perRecord p).selection.primary? = some { primary with primaryPath := "" } := by
    rw [Plan.Selection.primary?, perRecord, hsources]
    rfl
  have hrecord : (recordDocuments p documents record i).get? primary.id = some record := by
    rw [recordDocuments, hsources]
    exact List.lookup_cons_self
  rw [runMany, hprimary]
  dsimp only
  rw [hrecord]
  dsimp only
  rw [runIn_of_not_enabled henvelope, payload_of_object rfl]
  rfl

/-- **An array is mapped record by record.** Let the sources have distinct ids, let the primary
document have an array at the primary path, and let neither an envelope nor unwrapping be asked for.
Then the result is an array with one element for each record, and each element is the result for the
record by itself, together with what the other sources have at its position. -/
theorem runMany_array_pointwise {o : Options} {now : Calendar.Instant} {documents : Members}
    {document : Json} {records : List Json}
    (hids : (p.selection.sources.map Plan.Source.id).Nodup) (hkind : p.selection.kind = .array)
    (henvelope : ∀ e, p.envelope = some e → e.enabled = false)
    (hunwrap : p.selection.unwrapSingleItems = false)
    (hprimary : p.selection.primary? = some primary)
    (hdocument : documents.get? primary.id = some document)
    (hrecords : document.get? p.selection.effectivePrimaryPath = some (.arr records)) :
    ∃ results, runMany p o now documents = .ok (.arr results) ∧
      results.length = records.length ∧
      ∀ i record, records[i]? = some record →
        ∃ result, results[i]? = some result ∧
          runMany (perRecord p) o now (recordDocuments p documents record i) = .ok result := by
  obtain ⟨others, hsources⟩ := List.head?_eq_some_iff.mp hprimary
  refine ⟨runRecords ⟨p, some primary.id, otherRoots p documents⟩ o 0 records, ?_,
    length_runRecords _ _ _ _, ?_⟩
  · rw [runMany, hprimary]
    dsimp only
    rw [hdocument]
    dsimp only
    rw [runIn_of_not_enabled henvelope, payload, recordsOf, hrecords, hkind, hunwrap]
    exact congrArg Except.ok (unwrapped_false _)
  · intro i record hrecord
    refine ⟨_, ?_, runMany_perRecord hsources henvelope o now documents record i⟩
    rw [getElem?_runRecords, hrecord, Option.map_some, Nat.zero_add,
      runRecord_perRecord hsources hids]

/-- People with their scores, position by position, and one region for all of them. -/
def mergedPlan : Plan where
  selection :=
    { kind := .array
      sources := [{ id := "people", primaryPath := "rows" }, { id := "scores" },
        { id := "meta", primaryPath := "info" }]
      mergeMode := .merge }
  rules :=
    [{ id := "n", sourcePath := "name", targetPath := "name" },
      { id := "s", sourcePath := "score", targetPath := "score", sourceId := some "scores" },
      { id := "r", sourcePath := "region", targetPath := "region", sourceId := some "meta" }]

/-- The people of `mergedDocuments`. -/
def mergedRows : List Json :=
  [.obj [("name", .str "a")], .obj [("name", .str "b")]]

/-- Two people, one score. -/
def mergedDocuments : Members :=
  [("people", .obj [("rows", .arr mergedRows)]), ("scores", .arr [.obj [("score", Json.nat 1)]]),
    ("meta", .obj [("info", .obj [("region", .str "eu")])])]

theorem runMany_array_pointwise_merged :
    ∃ results, runMany mergedPlan {} default mergedDocuments = .ok (.arr results) ∧
      results.length = mergedRows.length ∧
      ∀ i record, mergedRows[i]? = some record →
        ∃ result, results[i]? = some result ∧
          runMany (perRecord mergedPlan) {} default
            (recordDocuments mergedPlan mergedDocuments record i) = .ok result :=
  @runMany_array_pointwise mergedPlan { id := "people", primaryPath := "rows" } {} default
    mergedDocuments (.obj [("rows", .arr mergedRows)]) mergedRows (by decide) rfl
    (fun e he => by cases he) rfl rfl rfl rfl

/-- The second person has no score, and so has the second set of documents. -/
example :
    runMany mergedPlan {} default mergedDocuments =
        .ok (.arr [.obj [("name", .str "a"), ("score", Json.nat 1), ("region", .str "eu")],
          .obj [("name", .str "b"), ("region", .str "eu")]]) ∧
      recordDocuments mergedPlan mergedDocuments (.obj [("name", .str "b")]) 1 =
        [("people", .obj [("name", .str "b")]), ("meta", .obj [("region", .str "eu")])] :=
  ⟨rfl, rfl⟩

end Reshape.Run
