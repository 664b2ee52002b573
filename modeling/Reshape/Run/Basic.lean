/-
# Reshape.Run.Basic -- running a plan

The records are at the primary path of the primary document: every element of an array that is to be
mapped as such, else the one value there. Rules are run in order on an empty object for each record;
later ones overwrite what earlier ones wrote. Fields that are still missing get the defaults of the
template. Nothing in a document makes a run fail.
-/

import Reshape.Run.Options
import Reshape.Run.Rule

namespace Reshape.Run

/-! ## What rules read -/

/-- **What every record of a run has in common.** `others` are the records of the sources beside the
primary one, as far as there are any. -/
structure Context where
  plan : Plan
  primaryId : Option String
  others : List (String × Json)

/-- What a rule reads: nothing at all, as the rule is not run, or an item, which may be missing. -/
inductive Input where
  | skipped
  | item (value : Option Json)

/-- The element of another source that goes with a record of the primary one. -/
def counterpart (root : Json) (index : Option Nat) : Option Json :=
  match root, index with
  | .arr items, some i => items[i]?
  | root, _ => some root

/-- **What a rule reads** for a record. -/
def input (c : Context) (r : Plan.Rule) (record : Json) (index : Option Nat) : Input :=
  match r.sourceId with
  | none => .item (some record)
  | some id =>
    if c.primaryId = some id then .item (some record)
    else if c.plan.selection.mergeMode = .single then .skipped
    else .item ((c.others.lookup id).bind fun root => counterpart root index)

/-! ## Records -/

/-- Run a rule on what was written so far. -/
def runRule (c : Context) (record : Json) (index : Option Nat) (out : Json) (r : Plan.Rule) :
    Json :=
  match input c r record index with
  | .skipped => out
  | .item item =>
    match outcome c.plan r item with
    | some value => out.set (target r) value
    | none => out

/-- Give a field its default value if it has no value yet. -/
def fillDefault (out : Json) (f : Plan.OutputField) : Json :=
  match f.defaultValue with
  | some value => if (out.get? f.path).isNone then out.set f.path value else out
  | none => out

/-- **Run the rules on a record.** -/
def runRecord (c : Context) (o : Options) (record : Json) (index : Option Nat) : Json :=
  let out := c.plan.rules.foldl (runRule c record index) (.obj [])
  if o.templateDefaults then c.plan.template.fields.foldl fillDefault out else out

/-- Run the rules on records in turn. -/
def runRecords (c : Context) (o : Options) : (index : Nat) → List Json → List Json
  | _, [] => []
  | index, record :: records =>
    runRecord c o record (some index) :: runRecords c o (index + 1) records

/-- The result as it is, or the one item of a result that may be unwrapped. -/
def unwrapped (allowed : Bool) : List Json → Json
  | [result] => if allowed then result else .arr [result]
  | results => .arr results

/-- Where the records of a document are; null stands for what is not there. -/
def recordsOf (p : Plan) (document : Json) : Json :=
  (document.get? p.selection.effectivePrimaryPath).getD .null

/-- **The result without an envelope.** -/
def payload (c : Context) (o : Options) (document : Json) : Json :=
  match recordsOf c.plan document, c.plan.selection.kind with
  | .arr records, .array => unwrapped c.plan.selection.unwrapSingleItems (runRecords c o 0 records)
  | record, _ => runRecord c o record none

/-! ## The envelope -/

/-- The version of the envelope's form. -/
def formVersion : String := "1.0"

/-- The number of items in a result. -/
def itemCount : Json → Nat
  | .arr items => items.length
  | _ => 1

/-- The entries that describe a result. -/
def metadata (p : Plan) (e : Plan.Envelope) (now : Calendar.Instant) (result : Json) : Members :=
  let entry (wanted : Bool) (key : String) (value : Json) : Members :=
    if wanted then [(key, value)] else []
  entry e.metadata.timestamp "timestamp" (.str (Calendar.isoText now)) ++
    (p.selection.primary?.toList.flatMap fun s =>
      entry e.metadata.source "source" (.obj [("id", .str s.id), ("name", .str s.name)])) ++
    entry e.metadata.count "count" (Json.nat (itemCount result)) ++
    entry e.metadata.version "version" (.str formVersion)

/-- The key of the result in an envelope. -/
def envelopeKey (e : Plan.Envelope) : String :=
  if e.key = "" then "data" else e.key

/-- **Put an envelope around a result.** The envelope's own entries overwrite those that describe
the result, and the result overwrites both. -/
def enclose (p : Plan) (e : Plan.Envelope) (now : Calendar.Instant) (result : Json) : Json :=
  let entries :=
    if e.includeMetadata then Members.ofList (metadata p e now result ++ e.custom) else []
  .obj (entries.insert (envelopeKey e) result)

/-! ## Runs -/

/-- Run the plan of a context on the primary document. -/
def runIn (c : Context) (o : Options) (now : Calendar.Instant) (document : Json) : Json :=
  let result := payload c o document
  match c.plan.envelope with
  | some e => if e.enabled then enclose c.plan e (o.instant now) result else result
  | none => result

/-- **Run a plan on a single document.** -/
def run (p : Plan) (o : Options) (now : Calendar.Instant) (document : Json) : Json :=
  runIn ⟨p, p.selection.primary?.map (·.id), []⟩ o now document

/-- Why a plan cannot be run on several documents. -/
inductive Fault where
  | noSource
  | noDocument (id : String)
  deriving DecidableEq, Repr

/-- The message of a fault. -/
def Fault.message : Fault → String
  | .noSource => "Source not found: no source selected"
  | .noDocument id => "Source not found: " ++ id

/-- The records of the sources beside the primary one, as far as there are documents. -/
def otherRoots (p : Plan) (documents : Members) : List (String × Json) :=
  (p.selection.sources.drop 1).filterMap fun s =>
    ((documents.get? s.id).bind fun d => d.get? s.primaryPath).map fun root => (s.id, root)

/-- **Run a plan on several documents**, which go by the ids of their sources. -/
def runMany (p : Plan) (o : Options) (now : Calendar.Instant) (documents : Members) :
    Except Fault Json :=
  match p.selection.primary? with
  | none => .error .noSource
  | some primary =>
    match documents.get? primary.id with
    | none => .error (.noDocument primary.id)
    | some document => .ok (runIn ⟨p, some primary.id, otherRoots p documents⟩ o now document)

/-! ## Laws -/

theorem counterpart_none (root : Json) : counterpart root none = some root := by
  cases root <;> rfl

theorem length_runRecords (c : Context) (o : Options) (first : Nat) (records : List Json) :
    (runRecords c o first records).length = records.length := by
  induction records generalizing first with
  | nil => rfl
  | cons record records ih => rw [runRecords, List.length_cons, List.length_cons, ih]

/-- The record at a position is mapped with its position. -/
theorem getElem?_runRecords (c : Context) (o : Options) (first : Nat) (records : List Json)
    (i : Nat) :
    (runRecords c o first records)[i]? =
      records[i]?.map fun record => runRecord c o record (some (first + i)) := by
  induction records generalizing first i with
  | nil => rfl
  | cons record records ih =>
    cases i with
    | zero => rfl
    | succ i =>
      rw [runRecords, List.getElem?_cons_succ, List.getElem?_cons_succ, ih,
        Nat.add_right_comm first 1 i, Nat.add_assoc first i 1]

theorem unwrapped_false (results : List Json) : unwrapped false results = .arr results := by
  cases results with
  | nil => rfl
  | cons result results => cases results <;> rfl

/-- An object is one record. -/
theorem payload_of_object {c : Context} (hkind : c.plan.selection.kind = .object) (o : Options)
    (document : Json) :
    payload c o document = runRecord c o (recordsOf c.plan document) none := by
  rw [payload, hkind]
  split
  · next hk => cases hk
  · rfl

/-- Without an envelope the result is left as it is. -/
theorem runIn_of_not_enabled {c : Context}
    (henvelope : ∀ e, c.plan.envelope = some e → e.enabled = false) (o : Options)
    (now : Calendar.Instant) (document : Json) : runIn c o now document = payload c o document := by
  rw [runIn]
  split
  · next e he => rw [henvelope e he, if_neg Bool.false_ne_true]
  · rfl

end Reshape.Run
