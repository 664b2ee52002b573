/-
# Reshape.Proofs.Survey.Cache -- what a cache answers

A cache is asked for surveys, told to drop those of a source, and cleared. A survey is kept by its
subject and not by its document, so an answer need not be a survey of the document at hand. After
every run of calls it is a survey of the document that stands for the subject: the earliest one
since the surveys of its source were last forgotten (`find?_run`). One equation says what is kept
after a call (`find?_step`), and the document that stands obeys the same one (`standing?_concat`).

From this follows when a cache is as good as none: when the surveys of a source are forgotten before
another document of it is surveyed (`Renewed`).
-/

import Mathlib.Data.List.DropRight
import Reshape.Survey.Cache

namespace Reshape.Survey.Cache

/-! ## Calls -/

/-- **What can be asked of a cache.** -/
inductive Call where
  | survey (source : Plan.Source) (options : Options) (document : Json)
  | drop (source : String)
  | clear

/-- **The cache after a call.** -/
def step (c : Cache) : Call → Cache
  | .survey source o document => (c.survey (.of o source) document).2
  | .drop source => c.drop source
  | .clear => c.clear

/-- The cache after several calls, which was new before them. -/
def run (calls : List Call) : Cache :=
  calls.foldl step {}

/-- **The answer to a survey** after several calls. -/
def answer (calls : List Call) (source : Plan.Source) (o : Options) (document : Json) :
    List Field :=
  ((run calls).survey (.of o source) document).1

/-! ## Which document stands -/

/-- The call makes a cache forget the surveys of a source. -/
def Call.forgets (id : String) : Call → Bool
  | .survey .. => false
  | .drop source => source == id
  | .clear => true

/-- The document of a call for a survey of the subject. -/
def Call.documentFor? (s : Subject) : Call → Option Json
  | .survey source o document => if Subject.of o source = s then some document else none
  | .drop _ => none
  | .clear => none

/-- The calls since the surveys of a source were last forgotten. -/
def since (id : String) (calls : List Call) : List Call :=
  calls.rtakeWhile fun call => !call.forgets id

/-- **The document that stands for a subject**: the earliest one that came with it since the surveys
of its source were last forgotten. -/
def standing? (s : Subject) (calls : List Call) : Option Json :=
  (since s.source calls).findSome? (Call.documentFor? s)

variable {calls : List Call} {call : Call} {s : Subject}

/-- **One more call** takes away the document that stands, or brings in its own if none does. -/
theorem standing?_concat (s : Subject) (calls : List Call) (call : Call) :
    standing? s (calls ++ [call]) =
      if call.forgets s.source then none else (standing? s calls).or (call.documentFor? s) := by
  rw [standing?, since, List.rtakeWhile_concat]
  cases hf : call.forgets s.source with
  | true => rfl
  | false =>
    change (List.findSome? _ (since s.source calls ++ [call])) = _
    rw [List.findSome?_append, List.findSome?_singleton]
    rfl

/-! ## What is kept -/

/-- Dropping takes away the surveys of one source and leaves the others. -/
theorem find?_drop (c : Cache) (id : String) (s : Subject) :
    (c.drop id).find? s = if id = s.source then none else c.find? s := by
  obtain ⟨entries⟩ := c
  change (entries.filter fun e => e.1.source != id).lookup s = if _ then none else entries.lookup s
  induction entries with
  | nil => exact (ite_self _).symm
  | cons e entries ih =>
    obtain ⟨t, fs⟩ := e
    by_cases hs : s = t
    · subst hs
      by_cases hid : id = s.source
      · simpa [hid] using ih
      · simp [hid, Ne.symm hid]
    · have hs' : (s == t) = false := beq_eq_false_iff_ne.mpr hs
      by_cases hid : t.source = id
      · simpa [hid, hs', List.lookup_cons] using ih
      · simpa [hid, hs', List.lookup_cons] using ih

/-- A survey that was made before stays, and a new one is kept. -/
theorem find?_survey (c : Cache) (t : Subject) (document : Json) (s : Subject) :
    (c.survey t document).2.find? s =
      (c.find? s).or (if t = s then some (recordFields s.options s.primaryPath document)
        else none) := by
  rw [survey]
  cases ht : c.find? t with
  | some fs =>
    by_cases hts : t = s
    · subst hts
      rw [ht]
      rfl
    · rw [if_neg hts, Option.or_none]
  | none =>
    change (c.entries ++ [_]).lookup s = _
    rw [List.lookup_append]
    by_cases hts : t = s
    · subst hts
      simp [find?]
    · have hst : (s == t) = false := beq_eq_false_iff_ne.mpr (Ne.symm hts)
      simp [find?, hts, List.lookup_cons, hst]

/-- **What is kept after a call**, whatever was kept before. -/
theorem find?_step (c : Cache) (call : Call) (s : Subject) :
    (c.step call).find? s =
      if call.forgets s.source then none
      else (c.find? s).or
        ((call.documentFor? s).map (recordFields s.options s.primaryPath)) := by
  cases call with
  | survey source o document =>
    rw [step, find?_survey, Call.forgets, Call.documentFor?, apply_ite (Option.map _)]
    rfl
  | drop id =>
    rw [step, find?_drop, Call.forgets, Call.documentFor?, Option.map_none, Option.or_none]
    simp only [beq_iff_eq]
  | clear => rfl

theorem run_concat (calls : List Call) (call : Call) :
    run (calls ++ [call]) = (run calls).step call := by
  rw [run, List.foldl_append]
  rfl

/-- **What is kept after every run**: a survey of the document that stands. -/
theorem find?_run (calls : List Call) (s : Subject) :
    (run calls).find? s = (standing? s calls).map (recordFields s.options s.primaryPath) := by
  induction calls using List.reverseRecOn with
  | nil => rfl
  | append_singleton calls call ih =>
    rw [run_concat, find?_step, ih, standing?_concat]
    cases call.forgets s.source with
    | true => rfl
    | false =>
      cases standing? s calls with
      | some document => rfl
      | none => rfl

/-! ## Answers -/

/-- **Every answer is a survey of the document that stands**, or of the one at hand if none does. -/
theorem answer_eq (calls : List Call) (source : Plan.Source) (o : Options) (document : Json) :
    answer calls source o document =
      recordFields o source.primaryPath ((standing? (.of o source) calls).getD document) := by
  have hkept := find?_run calls (.of o source)
  rw [answer, survey]
  cases hs : standing? (.of o source) calls with
  | some other =>
    rw [hs, Option.map_some] at hkept
    rw [hkept]
    rfl
  | none =>
    rw [hs, Option.map_none] at hkept
    rw [hkept]
    rfl

/-- **Other documents of a source are surveyed afresh**: between two surveys of one source with
different documents its surveys are forgotten. -/
def Renewed (calls : List Call) : Prop :=
  ∀ (before between after : List Call) (source source' : Plan.Source) (o o' : Options)
    (document document' : Json),
    calls = before ++ .survey source o document :: (between ++
      .survey source' o' document' :: after) → source.id = source'.id → document ≠ document' →
      ∃ call ∈ between, call.forgets source.id = true

/-- The document that stands came with a survey of the subject, and nothing has made the cache
forget it. -/
theorem exists_split_of_standing? {document : Json} (h : standing? s calls = some document) :
    ∃ (before between : List Call) (source : Plan.Source) (o : Options),
      calls = before ++ .survey source o document :: between ∧ Subject.of o source = s ∧
        ∀ call ∈ between, call.forgets s.source = false := by
  obtain ⟨skipped, call, between, hsince, hcall, -⟩ := List.findSome?_eq_some_iff.mp h
  obtain ⟨before, hcalls⟩ : since s.source calls <:+ calls := List.rtakeWhile_suffix _ _
  cases call with
  | survey source o other =>
    rw [Call.documentFor?, Option.ite_none_right_eq_some] at hcall
    obtain ⟨hsubject, hcall⟩ := hcall
    cases hcall
    refine ⟨before ++ skipped, between, source, o, ?_, hsubject, fun call hmem => ?_⟩
    · rw [List.append_assoc, ← hsince, hcalls]
    · have hmem : call ∈ since s.source calls := by
        rw [hsince]
        exact List.mem_append_right _ (List.mem_cons_of_mem _ hmem)
      simpa using List.mem_rtakeWhile_imp hmem
  | drop id => cases hcall
  | clear => cases hcall

/-- The document that stands is the one at hand, as another one would have been forgotten. -/
theorem Renewed.eq_of_standing? {source : Plan.Source} {o : Options} {document other : Json}
    (h : Renewed (calls ++ [.survey source o document]))
    (hs : standing? (.of o source) calls = some other) : other = document := by
  obtain ⟨before, between, source', o', rfl, hsubject, hkept⟩ := exists_split_of_standing? hs
  have hid : source'.id = source.id := congrArg Subject.source hsubject
  by_contra hne
  obtain ⟨call, hmem, hforgets⟩ := h before between [] source' source o' o other document
    (by simp) hid hne
  rw [hid] at hforgets
  cases hforgets.symm.trans (hkept call hmem)

/-- A drop of another source does not change which document stands. -/
theorem standing?_drop {id : String} (h : id ≠ s.source) (before after : List Call) :
    standing? s (before ++ .drop id :: after) = standing? s (before ++ after) := by
  induction after using List.reverseRecOn with
  | nil =>
    have hforgets : (Call.drop id).forgets s.source = false := beq_eq_false_iff_ne.mpr h
    rw [standing?_concat, hforgets, List.append_nil]
    exact Option.or_none
  | append_singleton after call ih =>
    rw [← List.cons_append, ← List.append_assoc, standing?_concat, ih, ← standing?_concat,
      List.append_assoc]

/-- **A cache is coherent.** After every run of calls it answers with a survey of the earliest
document that came with this source, primary path and options since the surveys of the source were
last forgotten, or of the document at hand. So its answer is as good as a new survey if other
documents of a source are surveyed afresh, and a drop of one source changes no answer for another. -/
theorem answer_coherent (calls : List Call) (source : Plan.Source) (o : Options)
    (document : Json) :
    answer calls source o document =
        recordFields o source.primaryPath ((standing? (.of o source) calls).getD document) ∧
      (Renewed (calls ++ [.survey source o document]) →
        answer calls source o document = recordFields o source.primaryPath document) ∧
      ∀ (before after : List Call) (id : String), calls = before ++ .drop id :: after →
        id ≠ source.id → answer calls source o document =
          answer (before ++ after) source o document := by
  refine ⟨answer_eq calls source o document, fun hrenewed => ?_, ?_⟩
  · rw [answer_eq]
    cases hs : standing? (.of o source) calls with
    | none => rfl
    | some other =>
      rw [hrenewed.eq_of_standing? hs]
      rfl
  · rintro before after id rfl hid
    have hsource : id ≠ (Subject.of o source).source := hid
    rw [answer_eq, answer_eq, standing?_drop hsource]

/-- Customers, one level down in their document. -/
def customers : Plan.Source where
  id := "crm"
  primaryPath := "data"

/-- A sample of customers, and a later one with one more field. -/
def firstSample : Json :=
  .obj [("data", .obj [("name", .str "Ada")])]

def laterSample : Json :=
  .obj [("data", .obj [("name", .str "Ada"), ("mail", .null)])]

/-- The customers are forgotten behind their first survey, and another source too. -/
def customerCalls : List Call :=
  [.survey customers {} firstSample, .drop "crm", .drop "shop"]

theorem answer_coherent_customers :
    Renewed (customerCalls ++ [.survey customers {} laterSample]) ∧
      (answer customerCalls customers {} laterSample).map (·.path) = ["name", "mail"] ∧
      (answer [.survey customers {} firstSample] customers {} laterSample).map (·.path) =
        ["name"] ∧
      answer customerCalls customers {} laterSample =
        answer [.survey customers {} firstSample, .drop "crm"] customers {} laterSample := by
  have hrenewed : Renewed (customerCalls ++ [.survey customers {} laterSample]) := by
    intro before between after source source' o o' document document' hcalls hid hne
    -- only the first and the last call are surveys, and behind the first one comes a drop
    rcases before with _ | ⟨_, _ | ⟨_, _ | ⟨_, _ | ⟨_, _⟩⟩⟩⟩ <;> simp [customerCalls] at hcalls
    rcases between with _ | ⟨call, between⟩ <;> simp at hcalls
    obtain ⟨⟨rfl, -, -⟩, rfl, -⟩ := hcalls
    exact ⟨.drop "crm", List.mem_cons_self, rfl⟩
  refine ⟨hrenewed, ?_, ?_, ?_⟩
  · rw [(answer_coherent customerCalls customers {} laterSample).2.1 hrenewed]
    decide
  · rw [(answer_coherent [.survey customers {} firstSample] customers {} laterSample).1]
    decide
  · exact (answer_coherent customerCalls customers {} laterSample).2.2
      [.survey customers {} firstSample, .drop "crm"] [] "shop" rfl (by decide)

end Reshape.Survey.Cache
