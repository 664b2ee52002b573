/-
# Reshape.Proofs.Run.LastWrite -- the last write to a path wins

Rules write one after the other into one output. What a rule wrote stays where it was put as long as
the rules after it write nothing, write to a path that cannot be read, or write to a path that
diverges from its own. Neither the rules before it nor what they left on the way of the path matter.

The invariant of the run is `Json.Leads`: the keys of the target lead to the value. The write
establishes it and every later write, being apart, keeps it.
-/

import Reshape.Proofs.Path.Place
import Reshape.Run.Basic

namespace Reshape.Run

/-! ## What a rule adds to the output -/

/-- **What a rule writes for a record.** A rule that is skipped writes nothing. -/
def contribution (c : Context) (record : Json) (index : Option Nat) (r : Plan.Rule) :
    Option Json :=
  match input c r record index with
  | .skipped => none
  | .item item => outcome c.plan r item

theorem runRule_of_contribution {c : Context} {record : Json} {index : Option Nat} {r : Plan.Rule}
    {value : Json} (h : contribution c record index r = some value) (out : Json) :
    runRule c record index out r = out.set (target r) value := by
  cases hi : input c r record index with
  | skipped => simp only [contribution, hi, reduceCtorEq] at h
  | item item =>
    simp only [contribution, hi] at h
    simp only [runRule, hi, h]

theorem runRule_of_contribution_none {c : Context} {record : Json} {index : Option Nat}
    {r : Plan.Rule} (h : contribution c record index r = none) (out : Json) :
    runRule c record index out r = out := by
  cases hi : input c r record index with
  | skipped => simp only [runRule, hi]
  | item item =>
    simp only [contribution, hi] at h
    simp only [runRule, hi, h]

/-- **What a rule can do to an output**: nothing, or put its value at a target that can be read. -/
theorem runRule_cases (c : Context) (record : Json) (index : Option Nat) (out : Json)
    (r : Plan.Rule) :
    runRule c record index out r = out ∨
      ∃ value, contribution c record index r = some value ∧ Path.valid (target r) = true ∧
        runRule c record index out r = Json.put value (Path.written (target r)) out := by
  cases hvalue : contribution c record index r with
  | none => exact .inl (runRule_of_contribution_none hvalue out)
  | some value =>
    rw [runRule_of_contribution hvalue]
    cases hvalid : Path.valid (target r) with
    | false => exact .inl (Json.set_of_not_valid out value hvalid)
    | true => exact .inr ⟨value, rfl, rfl, Json.set_of_valid out value hvalid⟩

/-- **A rule that only copies** what is at one path to another path. -/
def copyRule (id source target : String) : Plan.Rule :=
  { id := id, sourcePath := source, targetPath := target }

theorem expansion_copyRule (id source target : String) :
    expansion? (copyRule id source target) =
      if Path.hasWildcard source then some source else none := rfl

/-- A rule that only copies takes all values of a path with wildcards, and the one of another. -/
theorem contribution_copyRule (c : Context) (record : Json) (index : Option Nat)
    (id source target : String) :
    contribution c record index (copyRule id source target) =
      if Path.hasWildcard source then
        if (record.getAll source).isEmpty then none else some (.arr (record.getAll source))
      else record.get? source := by
  have hkept : ∀ value, orFallback none value = value := fun value => ite_self value
  have htransformed : transformed c.plan (copyRule id source target) = fun value => value := rfl
  change orFallback none (found c.plan (copyRule id source target) (some record)) = _
  rw [hkept, found, expansion_copyRule]
  cases Path.hasWildcard source with
  | true =>
    rw [if_pos rfl, if_pos rfl, htransformed]
    dsimp only
    rw [List.map_id']
  | false =>
    rw [if_neg Bool.false_ne_true, if_neg Bool.false_ne_true, htransformed]
    exact Option.map_id'

/-! ## Rules that leave a place alone -/

variable {c : Context} {record : Json} {index : Option Nat}

/-- **A rule spares the place of `keys` in an output**: it writes nothing, its target cannot be read,
or its target parts from the keys in that output. -/
def Spares (c : Context) (record : Json) (index : Option Nat) (keys : List (List Char)) (out : Json)
    (r : Plan.Rule) : Prop :=
  contribution c record index r = none ∨ Path.valid (target r) = false ∨
    Json.Apart (Path.written (target r)) keys out

/-- A rule that spares a place leaves there what is there. -/
theorem Spares.leads {keys : List (List Char)} {value out : Json} {r : Plan.Rule}
    (hr : Spares c record index keys out r) (h : Json.Leads value keys out) :
    Json.Leads value keys (runRule c record index out r) := by
  rcases runRule_cases c record index out r with heq | ⟨written, hwritten, hvalid, heq⟩
  · rw [heq]
    exact h
  · rw [heq]
    rcases hr with hnone | hbad | hapart
    · cases hwritten.symm.trans hnone
    · cases hvalid.symm.trans hbad
    · exact h.put_of_apart hapart written

/-- **A rule leaves the place of `keys` alone**: it writes nothing, its target cannot be read, or
its target diverges from the keys. -/
def LeavesAlone (c : Context) (record : Json) (index : Option Nat) (keys : List (List Char))
    (r : Plan.Rule) : Prop :=
  contribution c record index r = none ∨ Path.valid (target r) = false ∨
    Path.Diverge (Path.written (target r)) keys

/-- **One step keeps the place**: on the way of keys that spell no number, a target that diverges
from them parts from them in every output. -/
theorem leads_runRule {keys : List (List Char)} {value out : Json} {r : Plan.Rule}
    (hkeys : ∀ k ∈ keys, Decimal.unsigned? k = none) (hr : LeavesAlone c record index keys r)
    (h : Json.Leads value keys out) : Json.Leads value keys (runRule c record index out r) := by
  have hspares : Spares c record index keys out r := by
    rcases hr with hnone | hbad | hdiv
    · exact .inl hnone
    · exact .inr (.inl hbad)
    · exact .inr (.inr (h.apart_of_diverge hkeys hdiv))
  exact hspares.leads h

/-- **A run keeps the place.** -/
theorem leads_foldl_runRule {keys : List (List Char)} {value : Json} {rules : List Plan.Rule}
    (hkeys : ∀ k ∈ keys, Decimal.unsigned? k = none)
    (hrules : ∀ r ∈ rules, LeavesAlone c record index keys r) {out : Json}
    (h : Json.Leads value keys out) :
    Json.Leads value keys (rules.foldl (runRule c record index) out) := by
  induction rules generalizing out with
  | nil => exact h
  | cons r rules ih =>
    rw [List.foldl_cons]
    apply ih
    · exact fun s hs => hrules s (List.mem_cons_of_mem r hs)
    · exact leads_runRule hkeys (hrules r List.mem_cons_self) h

/-! ## The last write -/

/-- **The last write to a path wins.** With the defaults of the template off, the output of a record
has at the target of a rule what the rule wrote, if every rule after it leaves the target alone. The
target must be readable and spell no number. -/
theorem get?_target_of_last_write {o : Options} {before after : List Plan.Rule} {r : Plan.Rule}
    {value : Json} (hdefaults : o.templateDefaults = false)
    (hrules : c.plan.rules = before ++ r :: after)
    (hvalue : contribution c record index r = some value)
    (hvalid : Path.valid (target r) = true)
    (hkeys : ∀ k ∈ Path.written (target r), Decimal.unsigned? k = none)
    (hafter : ∀ s ∈ after, LeavesAlone c record index (Path.written (target r)) s) :
    (runRecord c o record index).get? (target r) = some value := by
  have hrun : runRecord c o record index =
      after.foldl (runRule c record index)
        ((before.foldl (runRule c record index) (.obj [])).set (target r) value) := by
    rw [runRecord, hdefaults, hrules, List.foldl_append, List.foldl_cons,
      runRule_of_contribution hvalue]
    rfl
  rw [hrun, Json.get?_eq_follow?, Json.set_of_valid _ _ hvalid]
  -- The write itself makes the invariant hold, so nothing is asked of the output before it.
  exact (leads_foldl_runRule hkeys hafter (Json.leads_put_self _ value _)).follow?

/-- The rule that writes the full name. -/
def fullRule : Plan.Rule :=
  { id := "full", sourcePath := "name", targetPath := "profile.full" }

/-- Before the full name a text is written where its object has to be; after it come a target that
cannot be read, a missing value, a source that is not merged, and a neighbour. -/
def profileContext : Context where
  plan :=
    { selection := { sources := [{ id := "people" }, { id := "extra" }] }
      rules :=
        [{ id := "whole", sourcePath := "name", targetPath := "profile" },
          fullRule,
          { id := "broken", sourcePath := "name", targetPath := "profile..full" },
          { id := "mail", sourcePath := "mail", targetPath := "profile.full.mail" },
          { id := "other", sourcePath := "name", targetPath := "profile",
            sourceId := some "extra" },
          { id := "age", sourcePath := "age", targetPath := "profile.age.years" }] }
  primaryId := some "people"
  others := []

/-- A record with a name and an age. -/
def profileRecord : Json :=
  .obj [("name", .str "Ada"), ("age", Json.nat 36)]

theorem get?_target_of_last_write_profile :
    contribution profileContext profileRecord none fullRule = some (.str "Ada") ∧
      (runRecord profileContext { templateDefaults := false } profileRecord none).get?
        "profile.full" = some (.str "Ada") := by
  have hrules : profileContext.plan.rules =
      profileContext.plan.rules.take 1 ++ fullRule :: profileContext.plan.rules.drop 2 := rfl
  have hafter : ∀ s ∈ profileContext.plan.rules.drop 2,
      LeavesAlone profileContext profileRecord none (Path.written (target fullRule)) s := by
    simp only [profileContext, List.drop, List.forall_mem_cons]
    refine ⟨?_, ?_, ?_, ?_, fun s hs => absurd hs List.not_mem_nil⟩
    · exact .inr (.inl (by decide))
    · exact .inl rfl
    · exact .inl rfl
    · exact .inr (.inr (by decide))
  exact ⟨rfl, get?_target_of_last_write rfl hrules rfl (by decide) (by decide) hafter⟩

end Reshape.Run
