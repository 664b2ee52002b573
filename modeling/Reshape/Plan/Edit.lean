/-
# Reshape.Plan.Edit -- edits of plans

Every edit makes a new plan. Adding something that is there already replaces it where it stands;
what an edit refers to by an id has to be there, or the edit is refused.
-/

import Reshape.Plan.Basic

namespace Reshape.Plan

/-! ## Refusals -/

/-- **Why an edit is refused.** -/
inductive Fault where
  | noRule (id : String)
  | noTransform (id : String)
  | noSource (id : String)
  | badPath (refusal : Path.Refusal)
  deriving DecidableEq, Repr

/-- The message of a refusal. -/
def Fault.message : Fault → String
  | .noRule id => "Mapping not found: " ++ id
  | .noTransform id => "Transformation not found: " ++ id
  | .noSource id => "Source not found: " ++ id
  | .badPath refusal => refusal.message

/-! ## Lists -/

/-- Change the first item with a property, if there is one. -/
def changeFirst? {α : Type} (wanted : α → Bool) (change : α → α) : List α → Option (List α)
  | [] => none
  | x :: xs =>
    if wanted x then some (change x :: xs) else (changeFirst? wanted change xs).map (x :: ·)

/-- Put an item in the place of the first one with a property, or at the end. -/
def putInPlace {α : Type} (wanted : α → Bool) (item : α) (xs : List α) : List α :=
  match changeFirst? wanted (fun _ => item) xs with
  | some ys => ys
  | none => xs ++ [item]

/-! ## Sources and the template -/

/-- Add a source, or replace the one with its id. -/
def withSource (p : Plan) (source : Source) : Plan :=
  { p with selection :=
    { p.selection with
      sources := putInPlace (fun s => s.id == source.id) source p.selection.sources } }

/-- Remove a source. Rules that read it stay. -/
def withoutSource (p : Plan) (id : String) : Except Fault Plan :=
  if (p.selection.find? id).isNone then .error (.noSource id)
  else
    .ok { p with selection :=
      { p.selection with sources := p.selection.sources.eraseP fun s => s.id == id } }

/-- Say where the records are. -/
def withPrimaryPath (p : Plan) (path : String) : Plan :=
  { p with selection := { p.selection with primaryPath := some path } }

/-- Add a field to the template, or replace the one with its path. -/
def withOutputField (p : Plan) (field : OutputField) : Plan :=
  { p with template :=
    { p.template with
      fields := putInPlace (fun f => f.path == field.path) field p.template.fields } }

/-! ## Rules -/

/-- **Add a rule.** It takes the place of the rule with its id, else of the rule that writes the
same path from the same source, whose id it takes on. -/
def withRule (p : Plan) (rule : Rule) : Plan :=
  match changeFirst? (fun r => r.id == rule.id) (fun _ => rule) p.rules with
  | some rules => { p with rules := rules }
  | none =>
    { p with
      rules :=
        match changeFirst? (fun r => r.sameSlot rule) (fun r => { rule with id := r.id }) p.rules with
        | some rules => rules
        | none => p.rules ++ [rule] }

/-- Remove a rule. -/
def withoutRule (p : Plan) (id : String) : Except Fault Plan :=
  if (p.findRule? id).isNone then .error (.noRule id)
  else .ok { p with rules := p.rules.eraseP fun r => r.id == id }

/-- **Change a rule.** Its id stays. -/
def updateRule (p : Plan) (id : String) (change : Rule → Rule) : Except Fault Plan :=
  match changeFirst? (fun r => r.id == id) (fun r => { change r with id := id }) p.rules with
  | some rules => .ok { p with rules := rules }
  | none => .error (.noRule id)

/-- The pins of a rule; if it has none yet, those of its path. -/
def pinsOf (r : Rule) : Except Path.Refusal Pins :=
  match r.pins with
  | some pins => .ok pins
  | none => do
    match ← Pins.ofPath r.sourcePath with
    | some pins => return pins
    | none => .error (.invalid r.sourcePath .noArray)

/-- The rule with an array field of its source path pinned to a position. -/
def pinRule (r : Rule) (field : String) (index : Nat) : Except Path.Refusal Rule := do
  let pins ← pinsOf r
  let pins ← pins.pin field index
  let path ← pins.resolve
  return { r with sourcePath := path, pins := some pins }

/-- **Pin an array field of a rule's source path to a position.** -/
def withRuleIndex (p : Plan) (id field : String) (index : Nat) : Except Fault Plan :=
  match p.findRule? id with
  | none => .error (.noRule id)
  | some r =>
    match pinRule r field index with
    | .ok pinned => p.updateRule id fun _ => pinned
    | .error refusal => .error (.badPath refusal)

/-! ## Transformations and the envelope -/

/-- Add a transformation, or replace the one with its id. -/
def withTransform (p : Plan) (t : NamedTransform) : Plan :=
  { p with transforms := putInPlace (fun u => u.id == t.id) t p.transforms }

/-- **Remove a transformation.** Rules that refer to it no longer do. -/
def withoutTransform (p : Plan) (id : String) : Except Fault Plan :=
  if (p.findTransform? id).isNone then .error (.noTransform id)
  else
    .ok { p with
      transforms := p.transforms.filter fun t => t.id != id
      rules := p.rules.map fun r =>
        if r.transformId == some id then { r with transformId := none } else r }

/-- Let a rule refer to a transformation, or to none. -/
def attachTransform (p : Plan) (ruleId : String) (transformId : Option String) :
    Except Fault Plan :=
  match transformId with
  | none => p.updateRule ruleId fun r => { r with transformId := none }
  | some id =>
    if (p.findTransform? id).isNone then .error (.noTransform id)
    else p.updateRule ruleId fun r => { r with transformId := some id }

/-- Put an envelope around the result, or none. -/
def withEnvelope (p : Plan) (envelope : Option Envelope) : Plan :=
  { p with envelope := envelope }

end Reshape.Plan
