/-
# Reshape.Proposal.Basic -- proposed rules

For a field of the output, the path of the source that is most alike is proposed if it is alike
enough. Of paths that are equally alike the first one counts.
-/

import Reshape.Plan.Edit
import Reshape.Proposal.Similarity

namespace Reshape.Proposal

/-- How alike a path has to be if nothing else is said. -/
def defaultThreshold : Float := 0.7

/-- **The path that is most alike a target**, with its similarity. -/
def best? (target : String) : List String → Option (String × Float)
  | [] => none
  | path :: paths =>
    some (paths.foldl (fun best other =>
      let score := similarity other target
      if score > best.2 then (other, score) else best) (path, similarity path target))

/-- The rule that takes a path to a field. A default value of the field becomes the fallback. -/
def ruleFor (id path : String) (field : Plan.OutputField) : Plan.Rule :=
  let rule : Plan.Rule :=
    { id := id, sourcePath := path, targetPath := field.path, fallback := field.defaultValue }
  if path.toList.contains '[' then
    match rule.withDerivedPins with
    | .ok pinned => pinned
    | .error _ => rule
  else rule

/-- **The rules that are proposed for fields.** `newId n` is the id of the rule after `n` others. -/
def propose (newId : Nat → String) (paths : List String) (threshold : Float) :
    List Plan.OutputField → List Plan.Rule
  | [] => []
  | field :: fields =>
    match best? field.path paths with
    | none => propose newId paths threshold fields
    | some (path, score) =>
      if score < threshold then propose newId paths threshold fields
      else ruleFor (newId 0) path field :: propose (fun n => newId (n + 1)) paths threshold fields

/-- The leaves of a plan's template to which no rule writes. -/
def openFields (p : Plan) : List Plan.OutputField :=
  p.template.leaves.filter fun f => (p.rulesFor f.path).isEmpty

/-- **The rules that are proposed for a plan.** -/
def proposeFor (newId : Nat → String) (p : Plan) (paths : List String) (threshold : Float) :
    List Plan.Rule :=
  propose newId paths threshold (openFields p)

end Reshape.Proposal

namespace Reshape.Plan

/-- Add the rules that are proposed for a plan. -/
def withProposals (newId : Nat → String) (p : Plan) (paths : List String) (threshold : Float) :
    Plan :=
  (Proposal.proposeFor newId p paths threshold).foldl Plan.withRule p

end Reshape.Plan
