/-
# Reshape.Proofs.Run.Primary -- documents that are not merged

When the sources besides the primary one are not merged, or no rule is bound to one of them, they
are not read at all. A run on several documents is then the run on the primary document alone, so
nothing that another document holds, and not even whether there is one, shows in the result.

Every rule is skipped or reads the record in both runs (`input_of_readsPrimaryOnly`); the rest
follows from `Agrees`.
-/

import Reshape.Proofs.Run.Agreement

namespace Reshape.Run

/-- **Nothing but the primary source is read**: other sources are not merged, or no rule is bound to
one of them. -/
def ReadsPrimaryOnly (p : Plan) (primary : Plan.Source) : Prop :=
  p.selection.mergeMode = .single ∨
    ∀ r ∈ p.rules, r.sourceId = none ∨ r.sourceId = some primary.id

instance (p : Plan) (primary : Plan.Source) : Decidable (ReadsPrimaryOnly p primary) :=
  inferInstanceAs (Decidable (_ ∨ ∀ r ∈ p.rules, _))

variable {p : Plan} {primary : Plan.Source}

/-- A rule finds the same, whatever the other sources have. -/
theorem input_of_readsPrimaryOnly (h : ReadsPrimaryOnly p primary) {r : Plan.Rule}
    (hr : r ∈ p.rules) (others others' : List (String × Json)) (record : Json)
    (index : Option Nat) :
    input ⟨p, some primary.id, others⟩ r record index =
      input ⟨p, some primary.id, others'⟩ r record index := by
  rw [input, input]
  cases hid : r.sourceId with
  | none => rfl
  | some id =>
    by_cases hprimary : some primary.id = some id
    · simp only [if_pos hprimary]
    · rcases h with hsingle | hall
      · simp only [if_neg hprimary, if_pos hsingle]
      · -- the rule is bound to a source, and it is not the primary one
        rcases hall r hr with hnone | hsome
        · cases hid.symm.trans hnone
        · exact absurd (hsome.symm.trans hid) hprimary

theorem agrees_of_readsPrimaryOnly (h : ReadsPrimaryOnly p primary)
    (others others' : List (String × Json)) :
    Agrees ⟨p, some primary.id, others⟩ ⟨p, some primary.id, others'⟩ where
  selection := rfl
  template := rfl
  envelope := rfl
  rules := by
    refine List.forall₂_same.mpr fun r hr record index out => ?_
    rw [runRule, runRule, input_of_readsPrimaryOnly h hr others others']

/-- **Documents that are not merged do not show.** When nothing but the primary source is read, a
run on several documents succeeds with the result of the run on the primary document alone. So
documents that have the same primary one among them give the same result. -/
theorem runMany_eq_run_of_readsPrimaryOnly {documents : Members} {document : Json}
    (hprimary : p.selection.primary? = some primary)
    (hdocument : documents.get? primary.id = some document) (h : ReadsPrimaryOnly p primary)
    (o : Options) (now : Calendar.Instant) :
    runMany p o now documents = .ok (run p o now document) ∧
      ∀ others : Members, others.get? primary.id = documents.get? primary.id →
        runMany p o now others = runMany p o now documents := by
  have halone : ∀ ds : Members, ds.get? primary.id = some document →
      runMany p o now ds = .ok (run p o now document) := by
    intro ds hds
    have hagrees := agrees_of_readsPrimaryOnly h (otherRoots p ds) []
    rw [runMany, hprimary]
    dsimp only
    rw [hds]
    dsimp only
    rw [run, hprimary, hagrees.runIn_eq]
    rfl
  refine ⟨halone documents hdocument, fun others hothers => ?_⟩
  rw [halone others (hothers.trans hdocument), halone documents hdocument]

/-- People with a rule of their own, and scores that a rule asks for but that are not merged. -/
def unmergedPlan : Plan where
  selection :=
    { kind := .array, sources := [{ id := "people", primaryPath := "rows" }, { id := "scores" }] }
  rules :=
    [{ id := "n", sourcePath := "name", targetPath := "name", sourceId := some "people" },
      { id := "s", sourcePath := "score", targetPath := "score", sourceId := some "scores",
        fallback := some (Json.nat 0) }]

/-- One person. -/
def person : Json :=
  .obj [("rows", .arr [.obj [("name", .str "a")]])]

/-- One person with a score. -/
def scoredPerson : Members :=
  [("scores", .arr [.obj [("score", Json.nat 1)]]), ("people", person)]

/-- The score does not show, with its document or without it. -/
theorem runMany_eq_run_of_readsPrimaryOnly_unmerged :
    ReadsPrimaryOnly unmergedPlan { id := "people", primaryPath := "rows" } ∧
      runMany unmergedPlan {} default scoredPerson = .ok (.arr [.obj [("name", .str "a")]]) ∧
      runMany unmergedPlan {} default [("people", person)] =
        runMany unmergedPlan {} default scoredPerson := by
  have hreads : ReadsPrimaryOnly unmergedPlan { id := "people", primaryPath := "rows" } := by
    decide
  obtain ⟨hrun, hsame⟩ :=
    @runMany_eq_run_of_readsPrimaryOnly unmergedPlan _ scoredPerson person rfl rfl hreads {} default
  exact ⟨hreads, hrun, hsame [("people", person)] rfl⟩

end Reshape.Run
