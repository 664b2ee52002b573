/-
# Reshape.Proofs.Run.Agreement -- what a run depends on

A run looks at the selection, the template and the envelope of its plan, and otherwise only at what
each rule does to the output at hand. So two contexts whose rules write the same, one after the
other, give the same result for every document (`Agrees.runIn_eq`). Which sources are there besides the
primary one, and how a rule comes by its path, can matter in no other way.
-/

import Mathlib.Data.List.Forall2
import Reshape.Run.Basic

namespace Reshape.Run

variable {c d : Context}

/-- In one context a rule does to every output what another rule does in another context. -/
def SameEffect (c d : Context) (r s : Plan.Rule) : Prop :=
  ∀ record index out, runRule c record index out r = runRule d record index out s

/-- Rules with the same effects one by one have the same effect all together. -/
theorem foldl_runRule_eq {rs ss : List Plan.Rule} (h : List.Forall₂ (SameEffect c d) rs ss)
    (record : Json) (index : Option Nat) (out : Json) :
    rs.foldl (runRule c record index) out = ss.foldl (runRule d record index) out := by
  induction h generalizing out with
  | nil => rfl
  | cons hrule _ ih => rw [List.foldl_cons, List.foldl_cons, hrule record index out, ih]

/-- **Two contexts agree**: their plans differ in the rules at most, and rule by rule the one has
the effect that the other has. -/
structure Agrees (c d : Context) : Prop where
  selection : c.plan.selection = d.plan.selection
  template : c.plan.template = d.plan.template
  envelope : c.plan.envelope = d.plan.envelope
  rules : List.Forall₂ (SameEffect c d) c.plan.rules d.plan.rules

namespace Agrees

theorem runRecord_eq (h : Agrees c d) (o : Options) (record : Json) (index : Option Nat) :
    runRecord c o record index = runRecord d o record index := by
  rw [runRecord, runRecord, foldl_runRule_eq h.rules, h.template]

theorem runRecords_eq (h : Agrees c d) (o : Options) (first : Nat) (records : List Json) :
    runRecords c o first records = runRecords d o first records := by
  induction records generalizing first with
  | nil => rfl
  | cons record records ih => rw [runRecords, runRecords, h.runRecord_eq, ih]

theorem payload_eq (h : Agrees c d) (o : Options) (document : Json) :
    payload c o document = payload d o document := by
  simp only [payload, recordsOf, h.selection, h.runRecords_eq, h.runRecord_eq]

/-- **Contexts that agree give the same results.** -/
theorem runIn_eq (h : Agrees c d) (o : Options) (now : Calendar.Instant) (document : Json) :
    runIn c o now document = runIn d o now document := by
  simp only [runIn, enclose, metadata, h.payload_eq, h.envelope, h.selection]

/-- **Plans that agree give the same results**, for one document and for several. -/
theorem run_eq {p q : Plan}
    (h : ∀ primaryId others, Agrees ⟨p, primaryId, others⟩ ⟨q, primaryId, others⟩)
    (hsources : p.selection = q.selection) (o : Options) (now : Calendar.Instant) :
    (∀ document, run p o now document = run q o now document) ∧
      ∀ documents, runMany p o now documents = runMany q o now documents := by
  constructor
  · intro document
    unfold run
    rw [(h _ []).runIn_eq, hsources]
  · intro documents
    unfold runMany otherRoots
    simp only [(h _ _).runIn_eq, hsources]

end Agrees

end Reshape.Run
