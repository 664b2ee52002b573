/-
# Reshape.Proofs.Run.Permutation -- independent rules may be run in any order

Rules are independent when their targets can be read, spell no number and diverge from each other.
What such a rule writes does not depend on the output, so two of them in a row may be exchanged up to
the order of members (`runRule_comm`), and with them a whole list of rules may be permuted
(`alike_foldl_runRule`). All that a run does to the outputs of its records, the defaults of the
template and the envelope included, takes alike outputs to alike results (`alike_run_of_perm`).
-/

import Reshape.Proofs.Json.Alike
import Reshape.Proofs.Run.LastWrite

namespace Reshape.Run

open Json

/-! ## Independent rules -/

/-- **The targets of rules are independent.** -/
structure Independent (rules : List Plan.Rule) : Prop where
  valid : ∀ r ∈ rules, Path.valid (target r) = true
  keys : ∀ r ∈ rules, ∀ k ∈ Path.written (target r), Decimal.unsigned? k = none
  diverge : rules.Pairwise fun r s =>
    Path.Diverge (Path.written (target r)) (Path.written (target s))

theorem diverge_symm {r s : Plan.Rule}
    (h : Path.Diverge (Path.written (target r)) (Path.written (target s))) :
    Path.Diverge (Path.written (target s)) (Path.written (target r)) :=
  And.symm h

theorem Independent.of_perm {rules rules' : List Plan.Rule} (h : Independent rules)
    (hperm : rules'.Perm rules) : Independent rules' where
  valid r hr := h.valid r (hperm.mem_iff.mp hr)
  keys r hr := h.keys r (hperm.mem_iff.mp hr)
  diverge := (hperm.pairwise_iff diverge_symm).mpr h.diverge

theorem Independent.of_cons {r : Plan.Rule} {rules : List Plan.Rule}
    (h : Independent (r :: rules)) : Independent rules where
  valid s hs := h.valid s (List.mem_cons_of_mem r hs)
  keys s hs := h.keys s (List.mem_cons_of_mem r hs)
  diverge := (List.pairwise_cons.mp h.diverge).2

variable {c : Context} {record : Json} {index : Option Nat} {a b : Json}

/-- **One step takes alike outputs to alike outputs**, since the rule does not read them. -/
theorem alike_runRule (h : Alike a b) (r : Plan.Rule) :
    Alike (runRule c record index a r) (runRule c record index b r) := by
  cases hw : contribution c record index r with
  | none =>
    rw [runRule_of_contribution_none hw, runRule_of_contribution_none hw]
    exact h
  | some value =>
    rw [runRule_of_contribution hw, runRule_of_contribution hw]
    exact h.set _ value

/-- **Two independent rules in a row may be exchanged.** -/
theorem runRule_comm {r s : Plan.Rule} {rules : List Plan.Rule}
    (h : Independent (r :: s :: rules)) (out : Json) :
    Alike (runRule c record index (runRule c record index out s) r)
      (runRule c record index (runRule c record index out r) s) := by
  have hr : r ∈ r :: s :: rules := List.mem_cons_self
  have hs : s ∈ r :: s :: rules := List.mem_cons_of_mem r List.mem_cons_self
  -- a rule that writes nothing is exchanged with every other
  cases hwr : contribution c record index r with
  | none =>
    simp only [runRule_of_contribution_none hwr]
    exact .refl _
  | some value =>
    cases hws : contribution c record index s with
    | none =>
      simp only [runRule_of_contribution_none hws]
      exact .refl _
    | some other =>
      have hdiv := (List.pairwise_cons.mp h.diverge).1 s List.mem_cons_self
      simp only [runRule_of_contribution hwr, runRule_of_contribution hws,
        set_of_valid _ _ (h.valid r hr), set_of_valid _ _ (h.valid s hs)]
      exact put_comm hdiv (h.keys r hr) (h.keys s hs) value other out

/-- **Independent rules in any order** give alike outputs from alike outputs. -/
theorem alike_foldl_runRule {rules rules' : List Plan.Rule} (hperm : rules.Perm rules')
    (h : Independent rules) (hab : Alike a b) :
    Alike (rules.foldl (runRule c record index) a) (rules'.foldl (runRule c record index) b) := by
  induction hperm generalizing a b with
  | nil => exact hab
  | cons r _ ih => exact ih h.of_cons (alike_runRule hab r)
  | swap r s rules =>
    have hswap : Alike (runRule c record index (runRule c record index a s) r)
        (runRule c record index (runRule c record index b r) s) :=
      (alike_runRule (alike_runRule hab s) r).trans
        (runRule_comm (h.of_perm (.swap s r rules)) b)
    -- after the two steps both runs go through the same rules
    show Alike (rules.foldl _ _) (rules.foldl _ _)
    generalize runRule c record index (runRule c record index a s) r = out at hswap
    generalize runRule c record index (runRule c record index b r) s = out' at hswap
    clear hab h
    induction rules generalizing out out' with
    | nil => exact hswap
    | cons t rules ih => exact ih _ _ (alike_runRule hswap t)
  | trans h₁ _ ih₁ ih₂ => exact (ih₁ h hab).trans (ih₂ (h.of_perm h₁.symm) (.refl b))

/-! ## Whole runs -/

theorem alike_fillDefault (h : Alike a b) (f : Plan.OutputField) :
    Alike (fillDefault a f) (fillDefault b f) := by
  unfold fillDefault
  cases f.defaultValue with
  | none => exact h
  | some value =>
    have hnone : (a.get? f.path).isNone = (b.get? f.path).isNone := by
      rw [get?_eq_follow?, get?_eq_follow?]
      exact (h.follow? _).isNone
    dsimp only
    rw [hnone]
    split
    · exact h.set f.path value
    · exact h

theorem alike_foldl_fillDefault (h : Alike a b) (fields : List Plan.OutputField) :
    Alike (fields.foldl fillDefault a) (fields.foldl fillDefault b) := by
  induction fields generalizing a b with
  | nil => exact h
  | cons f fields ih => exact ih (alike_fillDefault h f)

theorem alike_unwrapped {xs ys : List Json} (h : Alike (.arr xs) (.arr ys)) (allowed : Bool) :
    Alike (unwrapped allowed xs) (unwrapped allowed ys) := by
  have hlength := h.length
  match xs, ys with
  | [], [] => exact h
  | [x], [y] =>
    have hitem := h.getElem? 0
    cases allowed with
    | false => exact h
    | true =>
      cases hitem with
      | some hxy => exact hxy
  | _ :: _ :: _, _ :: _ :: _ => exact h
  | [], _ :: _ => cases hlength
  | _ :: _, [] => cases hlength
  | [_], _ :: _ :: _ => cases hlength
  | _ :: _ :: _, [_] => cases hlength

theorem itemCount_of_alike (h : Alike a b) : itemCount a = itemCount b := by
  cases h with
  | refl => rfl
  | arr hlength _ => exact hlength
  | obj => rfl

/-- An envelope shows the number of items of a result and the result, and nothing else of it. -/
theorem alike_enclose (h : Alike a b) {p q : Plan} (hselection : p.selection = q.selection)
    (e : Plan.Envelope) (now : Calendar.Instant) :
    Alike (enclose p e now a) (enclose q e now b) := by
  have hmetadata : metadata p e now a = metadata q e now b := by
    unfold metadata
    rw [itemCount_of_alike h, hselection]
  unfold enclose
  rw [hmetadata]
  exact (Alike.refl _).insert _ h

section Contexts

variable {c' : Context} {o : Options}

theorem alike_payload (hselection : c'.plan.selection = c.plan.selection)
    (hrecord : ∀ record index, Alike (runRecord c' o record index) (runRecord c o record index))
    (document : Json) : Alike (payload c' o document) (payload c o document) := by
  have hrecords : recordsOf c'.plan document = recordsOf c.plan document := by
    unfold recordsOf
    rw [hselection]
  unfold payload
  rw [hrecords, hselection]
  split
  · next records _ _ =>
    refine alike_unwrapped (alike_arr ?_ fun i => ?_) _
    · rw [length_runRecords, length_runRecords]
    · rw [getElem?_runRecords, getElem?_runRecords]
      cases records[i]? with
      | none => exact .none
      | some record => exact .some (hrecord record _)
  · exact hrecord _ none

/-- **Contexts that give alike outputs for every record** give alike results. -/
theorem alike_runIn (hselection : c'.plan.selection = c.plan.selection)
    (henvelope : c'.plan.envelope = c.plan.envelope)
    (hrecord : ∀ record index, Alike (runRecord c' o record index) (runRecord c o record index))
    (now : Calendar.Instant) (document : Json) :
    Alike (runIn c' o now document) (runIn c o now document) := by
  have hpayload := alike_payload hselection hrecord document
  unfold runIn
  rw [henvelope]
  dsimp only
  split
  · split
    · exact alike_enclose hpayload hselection _ _
    · exact hpayload
  · exact hpayload

end Contexts

section Rules

variable {p : Plan} {rules : List Plan.Rule}

/-- The outputs of a record under rules in another order. -/
theorem alike_runRecord_of_perm (hperm : rules.Perm p.rules) (h : Independent p.rules)
    (primaryId : Option String) (others : List (String × Json)) (o : Options) (record : Json)
    (index : Option Nat) :
    Alike (runRecord ⟨{ p with rules }, primaryId, others⟩ o record index)
      (runRecord ⟨p, primaryId, others⟩ o record index) := by
  -- what a rule writes depends on the rest of the plan only
  have hfold : Alike
      (rules.foldl (runRule ⟨{ p with rules }, primaryId, others⟩ record index) (.obj []))
      (p.rules.foldl (runRule ⟨p, primaryId, others⟩ record index) (.obj [])) :=
    alike_foldl_runRule hperm (h.of_perm hperm) (.refl _)
  unfold runRecord
  dsimp only
  split
  · exact alike_foldl_fillDefault hfold _
  · exact hfold

/-- **Independent rules may be run in any order**, on every document and with all options: only the
order of the members of objects may be another. -/
theorem alike_run_of_perm (hperm : rules.Perm p.rules) (h : Independent p.rules) (o : Options)
    (now : Calendar.Instant) (document : Json) :
    Alike (run { p with rules } o now document) (run p o now document) := by
  have hrecord := alike_runRecord_of_perm hperm h (p.selection.primary?.map (·.id)) [] o
  show Alike (runIn ⟨{ p with rules }, _, []⟩ o now document) (runIn ⟨p, _, []⟩ o now document)
  refine alike_runIn ?_ ?_ hrecord now document
  · rfl
  · rfl

end Rules

/-- A plan for orders: two rules write into one object, and one writes all articles. -/
def orderPlan : Plan where
  template := { fields := [{ path := "buyer.country", defaultValue := some (.str "NL") }] }
  rules :=
    [{ id := "name", sourcePath := "customer.name", targetPath := "buyer.name" },
      { id := "articles", sourcePath := "lines[*].article", targetPath := "articles[*]" },
      { id := "city", sourcePath := "customer.city", targetPath := "buyer.address.city" }]
  envelope := some { enabled := true, includeMetadata := true }

/-- The rules for orders may be run the other way round. -/
theorem alike_run_of_perm_orderPlan :
    orderPlan.rules.reverse.Perm orderPlan.rules ∧ Independent orderPlan.rules ∧
      ∀ now document,
        Alike (run { orderPlan with rules := orderPlan.rules.reverse } {} now document)
          (run orderPlan {} now document) := by
  have hperm : orderPlan.rules.reverse.Perm orderPlan.rules := List.reverse_perm _
  have hrules : Independent orderPlan.rules :=
    { valid := by decide
      keys := by decide
      diverge := by decide }
  exact ⟨hperm, hrules, fun now document => alike_run_of_perm hperm hrules {} now document⟩

end Reshape.Run
