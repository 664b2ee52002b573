/-
# Reshape.Plan.Audit -- what is wrong with a plan

An audit reports what is wrong with a plan. Errors stand in the way of using it: it says nowhere
where the records are, selects no source, declares no field, or leaves a required field without a
value. All else is a warning, as running a plan never fails on it.
-/

import Reshape.Plan.Edit
import Reshape.Transform.Check

namespace Reshape.Plan

/-! ## Issues -/

/-- What an issue is about. -/
inductive IssueKind where
  | missingPrimaryPath
  | noSources
  | emptyTemplate
  | unmappedRequiredField
  | invalidPath
  | invalidTransform
  | duplicateTarget
  | orphanedTransform
  | unknownTransform
  | unknownSource
  | pinsMismatch
  deriving DecidableEq, Repr

/-- The name of a kind of issue. -/
def IssueKind.name : IssueKind → String
  | .missingPrimaryPath => "missing_primary_path"
  | .noSources => "no_sources"
  | .emptyTemplate => "empty_template"
  | .unmappedRequiredField => "unmapped_required_field"
  | .invalidPath => "invalid_path"
  | .invalidTransform => "invalid_transformation"
  | .duplicateTarget => "duplicate_target"
  | .orphanedTransform => "orphaned_transformation"
  | .unknownTransform => "unknown_transformation"
  | .unknownSource => "unknown_source"
  | .pinsMismatch => "index_config_mismatch"

/-- All kinds of issues. -/
def IssueKind.all : List IssueKind :=
  [.missingPrimaryPath, .noSources, .emptyTemplate, .unmappedRequiredField, .invalidPath,
    .invalidTransform, .duplicateTarget, .orphanedTransform, .unknownTransform, .unknownSource,
    .pinsMismatch]

/-- The end of a rule at which a path stands. -/
inductive RuleEnd where
  | source
  | target
  deriving DecidableEq, Repr

/-- The name of an end. -/
def RuleEnd.name : RuleEnd → String
  | .source => "source"
  | .target => "target"

/-- **An issue with a plan.** -/
inductive Issue where
  | missingPrimaryPath
  | noSources
  | emptyTemplate
  | unmappedRequiredField (path : String)
  | invalidPath (rule : String) (place : RuleEnd) (refusal : Path.Refusal)
  | unknownTransform (rule id : String)
  | unknownSource (rule id : String)
  | pinsMismatch (rule path : String)
  | duplicateTarget (count : Nat) (path : String)
  | invalidTransform (name : String) (objection : Transform.Objection)
  | orphanedTransform (name : String)

namespace Issue

/-- What the issue is about. -/
def kind : Issue → IssueKind
  | .missingPrimaryPath => .missingPrimaryPath
  | .noSources => .noSources
  | .emptyTemplate => .emptyTemplate
  | .unmappedRequiredField _ => .unmappedRequiredField
  | .invalidPath _ _ _ => .invalidPath
  | .unknownTransform _ _ => .unknownTransform
  | .unknownSource _ _ => .unknownSource
  | .pinsMismatch _ _ => .pinsMismatch
  | .duplicateTarget _ _ => .duplicateTarget
  | .invalidTransform _ _ => .invalidTransform
  | .orphanedTransform _ => .orphanedTransform

/-- **The message of an issue.** -/
def message : Issue → String
  | .missingPrimaryPath => "Source selection has no primary path"
  | .noSources => "No data sources selected"
  | .emptyTemplate => "Output template has no fields"
  | .unmappedRequiredField path => "Required field `" ++ path ++ "` has no mapping or default value"
  | .invalidPath _ place refusal => "Invalid " ++ place.name ++ " path: " ++ refusal.message
  | .unknownTransform _ id => "Mapping references unknown transformation `" ++ id ++ "`"
  | .unknownSource _ id => "Mapping reads from unselected source `" ++ id ++ "`"
  | .pinsMismatch _ path =>
    "Array index config for `" ++ path ++ "` does not reproduce the source path"
  | .duplicateTarget count path => Decimal.natText count ++ " mappings write to `" ++ path ++ "`"
  | .invalidTransform name objection => "Transformation `" ++ name ++ "`: " ++ objection.message
  | .orphanedTransform name => "Transformation `" ++ name ++ "` is not used by any mapping"

/-- The rule that the issue is with. -/
def rule? : Issue → Option String
  | .invalidPath rule _ _ => some rule
  | .unknownTransform rule _ => some rule
  | .unknownSource rule _ => some rule
  | .pinsMismatch rule _ => some rule
  | _ => none

/-- The path that the issue is with. -/
def path? : Issue → Option String
  | .unmappedRequiredField path => some path
  | .invalidPath _ _ refusal => some refusal.path
  | .pinsMismatch _ path => some path
  | .duplicateTarget _ path => some path
  | _ => none

/-- An issue in JSON. -/
def encode (i : Issue) : Json :=
  .obj ([("kind", .str i.kind.name), ("message", .str i.message)] ++
    (i.rule?.map fun id => ("mappingId", Json.str id)).toList ++
    (i.path?.map fun path => ("path", Json.str path)).toList)

end Issue

/-! ## Errors -/

/-- An issue, if there is reason for it. -/
def issueIf (reason : Bool) (i : Issue) : List Issue :=
  if reason then [i] else []

/-- A rule writes to a path, be it one value or an array of them. -/
def Rule.covers (r : Rule) (path : String) : Bool :=
  r.targetPath == path || Path.stripWildcards r.targetPath == path

/-- A field is required and nothing gives it a value. -/
def lacksValue (p : Plan) (f : OutputField) : Bool :=
  f.required && !p.rules.any (·.covers f.path) && f.defaultValue.isNone

/-- **The errors of a plan.** -/
def errors (p : Plan) : List Issue :=
  issueIf p.selection.primaryPath.isNone .missingPrimaryPath ++
    issueIf p.selection.sources.isEmpty .noSources ++
    issueIf p.template.fields.isEmpty .emptyTemplate ++
    (p.template.fields.filter p.lacksValue).map fun f => .unmappedRequiredField f.path

/-! ## Warnings -/

/-- A warning about a path that cannot be read. -/
def pathIssue (r : Rule) (place : RuleEnd) (path : String) : List Issue :=
  match Path.parse path with
  | .ok _ => []
  | .error refusal => [.invalidPath r.id place refusal]

/-- The warnings about a rule. -/
def ruleIssues (p : Plan) (r : Rule) : List Issue :=
  pathIssue r .source r.sourcePath ++ pathIssue r .target r.targetPath ++
    (r.transformId.toList.flatMap fun id =>
      issueIf (p.findTransform? id).isNone (.unknownTransform r.id id)) ++
    (r.sourceId.toList.flatMap fun id =>
      issueIf (p.selection.find? id).isNone (.unknownSource r.id id)) ++
    (r.pins.toList.flatMap fun pins =>
      issueIf (!pins.roundTrips r.sourcePath) (.pinsMismatch r.id r.sourcePath))

/-- The paths that rules write to, each one once, in order. -/
def targets (p : Plan) : List String :=
  dedup ((p.rules.map (·.targetPath)).mergeSort fun a b => !decide (b < a))
where
  /-- Drop repeated neighbours. -/
  dedup : List String → List String
    | a :: b :: rest => if a = b then dedup (b :: rest) else a :: dedup (b :: rest)
    | rest => rest

/-- The warnings about paths to which several rules write. -/
def duplicateIssues (p : Plan) : List Issue :=
  p.targets.flatMap fun path =>
    let count := (p.rulesFor path).length
    issueIf (1 < count) (.duplicateTarget count path)

/-- Some rule refers to a transformation. -/
def refersTo (p : Plan) (id : String) : Bool :=
  p.rules.any fun r => r.transformId == some id

/-- The warnings about a transformation. -/
def transformIssues (p : Plan) (t : NamedTransform) : List Issue :=
  (t.transform.objections.map fun o => .invalidTransform t.name o) ++
    issueIf (!p.refersTo t.id) (.orphanedTransform t.name)

/-- **The warnings about a plan.** -/
def warnings (p : Plan) : List Issue :=
  p.rules.flatMap p.ruleIssues ++ p.duplicateIssues ++ p.transforms.flatMap p.transformIssues

/-! ## Reports -/

/-- A report on a plan. -/
structure Report where
  errors : List Issue
  warnings : List Issue

/-- **Audit a plan.** -/
def audit (p : Plan) : Report :=
  ⟨p.errors, p.warnings⟩

namespace Report

/-- There is no error. -/
def valid (r : Report) : Bool :=
  r.errors.isEmpty

/-- Some issue is of a kind. -/
def has (r : Report) (kind : IssueKind) : Bool :=
  (r.errors ++ r.warnings).any fun i => i.kind == kind

/-- A report in JSON. -/
def encode (r : Report) : Json :=
  .obj [("valid", .bool r.valid), ("errors", .arr (r.errors.map Issue.encode)),
    ("warnings", .arr (r.warnings.map Issue.encode))]

end Report

end Reshape.Plan
