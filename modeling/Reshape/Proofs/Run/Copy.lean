/-
# Reshape.Proofs.Run.Copy -- copying every field copies the document

A survey that enters objects only lists a cut through the document, and the rules that copy each of
its fields to where it was found store that cut piece by piece (`foldl_copyRules`). From a cut the
document is built anew, so the run gives back the document itself: its nulls, its empty objects and
arrays, and the order of its members (`run_copyRules_eq`).
-/

import Reshape.Proofs.Run.Defaults
import Reshape.Proofs.Run.LastWrite
import Reshape.Proofs.Survey.Cut

namespace Reshape.Run

/-- **The rules that copy fields** to where they were found, with ids by position. -/
def copyRules (newId : Nat → String) (fs : List Survey.Field) : List Plan.Rule :=
  fs.mapIdx fun i f => copyRule (newId i) f.path f.path

variable {c : Context} {record : Json} {index : Option Nat}

/-- **One rule** stores what it finds under the keys of its path. -/
theorem runRule_copyRule {e : List String × Json} (h : Survey.LedBy record e) (id : String)
    (out : Json) :
    runRule c record index out (copyRule id (Path.ofKeys e.1) (Path.ofKeys e.1)) =
      Survey.store out e := by
  obtain ⟨hkeys, hleads⟩ := h
  have hwild := Path.hasWildcard_ofKeys hkeys
  have hfound : contribution c record index
      (copyRule id (Path.ofKeys e.1) (Path.ofKeys e.1)) = some e.2 := by
    rw [contribution_copyRule, hwild, if_neg Bool.false_ne_true, Json.get?_eq_follow?,
      Path.written_ofKeys hkeys]
    exact hleads.follow?
  have htarget : target (copyRule id (Path.ofKeys e.1) (Path.ofKeys e.1)) = Path.ofKeys e.1 := by
    rw [target, expansion_copyRule, hwild]
    rfl
  rw [runRule_of_contribution hfound, htarget, Json.set_of_valid _ _ (Path.valid_ofKeys hkeys),
    Path.written_ofKeys hkeys]
  rfl

/-- **All rules** store the fields one after the other. -/
theorem foldl_copyRules {o : Survey.Options} {es : List (List String × Json)}
    (hes : ∀ e ∈ es, Survey.LedBy record e) (newId : Nat → String) (out : Json) :
    (copyRules newId (es.map (Survey.cutField o []))).foldl (runRule c record index) out =
      es.foldl Survey.store out := by
  induction es generalizing newId out with
  | nil => rfl
  | cons e es ih =>
    rw [List.forall_mem_cons] at hes
    have hstep : runRule c record index out (copyRule (newId 0) (Survey.cutField o [] e).path
        (Survey.cutField o [] e).path) = Survey.store out e := runRule_copyRule hes.1 (newId 0) out
    rw [List.map_cons, copyRules, List.mapIdx_cons, List.foldl_cons, List.foldl_cons, hstep]
    exact ih hes.2 (fun i => newId (i + 1)) (Survey.store out e)

/-- Without a template the output of a record is what the rules write. -/
theorem runRecord_of_no_template (h : c.plan.template.fields = []) (o : Options) :
    runRecord c o record index = c.plan.rules.foldl (runRule c record index) (.obj []) := by
  rw [runRecord, h]
  exact ite_self _

/-- **Copying every field copies the document.** An object is surveyed without array suffixes, to
any depth; the plan has no template, no envelope, and the rules that copy each field to where it was
found. -/
theorem run_copyRules_eq {p : Plan} {s : Survey.Options} {ms : Members}
    (hplain : (Json.obj ms).Plain) (hwild : s.includeWildcards = false)
    (hindex : s.includeFixedIndices = false) (hdepth : 1 ≤ s.maxDepth)
    (hkind : p.selection.kind = .object) (hpath : p.selection.effectivePrimaryPath = "")
    (htemplate : p.template.fields = []) (henvelope : ∀ e, p.envelope = some e → e.enabled = false)
    {newId : Nat → String} (hrules : p.rules = copyRules newId (Survey.fields s "" (.obj ms)))
    (o : Options) (now : Calendar.Instant) : run p o now (.obj ms) = .obj ms := by
  have hrecord : recordsOf p (.obj ms) = .obj ms := by
    rw [recordsOf, hpath]
    rfl
  rw [run_of_object hkind henvelope, hrecord, runRecord_of_no_template htemplate]
  dsimp only
  rw [hrules, Survey.fields_eq_map_cutMembers hwild hindex hdepth hplain,
    foldl_copyRules fun e => Survey.ledBy_of_mem_cutMembers hplain]
  exact Survey.foldl_store_cutMembers_nil hplain _

/-- A user without a mail address, and with more of an address than a short survey lists. -/
def userMembers : Members :=
  [("user", .obj
      [("name", .str "Ada"), ("mail", .null), ("address", .obj [("city", .obj [])])]),
    ("tags", .arr [.str "a", .obj [("weight", Json.nat 2)]]), ("notes", .obj [])]

/-- A survey of two levels, without array suffixes. -/
def shortSurvey : Survey.Options where
  maxDepth := 2
  includeWildcards := false

/-- The plan that copies what a short survey of the user lists. -/
def userPlan : Plan where
  selection := { sources := [{ id := "s" }], primaryPath := some "" }
  rules := copyRules Decimal.natText (Survey.fields shortSurvey "" (.obj userMembers))

theorem run_copyRules_eq_user :
    userPlan.rules.map (·.sourcePath) =
        ["user.name", "user.mail", "user.address", "tags", "notes"] ∧
      run userPlan {} default (.obj userMembers) = .obj userMembers :=
  ⟨by decide, run_copyRules_eq (by decide) rfl rfl (by decide) rfl rfl rfl
    (fun e he => by cases he) rfl {} default⟩

end Reshape.Run
