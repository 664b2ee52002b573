/-
# Reshape.Survey.Cache -- surveys that were made before

A cache keeps the surveys of sources. Source, primary path and options say which survey is meant;
the document does not, so a survey stands until its source is dropped.
-/

import Reshape.Plan.Source
import Reshape.Survey.Basic

namespace Reshape.Survey

/-- What a survey is of. -/
structure Subject where
  source : String
  primaryPath : String
  options : Options
  deriving DecidableEq, Repr

/-- The subject of a survey of a source. Its name, type and category do not matter. -/
def Subject.of (o : Options) (source : Plan.Source) : Subject :=
  ⟨source.id, source.primaryPath, o⟩

/-- **Surveys by their subjects**, oldest first. -/
structure Cache where
  entries : List (Subject × List Field) := []

namespace Cache

/-- The survey of a subject, if it was made before. -/
def find? (c : Cache) (s : Subject) : Option (List Field) :=
  c.entries.lookup s

/-- **The survey of a subject**: the one that was made before, or one of this document. -/
def survey (c : Cache) (s : Subject) (document : Json) : List Field × Cache :=
  match c.find? s with
  | some fs => (fs, c)
  | none =>
    let fs := recordFields s.options s.primaryPath document
    (fs, ⟨c.entries ++ [(s, fs)]⟩)

/-- Drop the surveys of a source. -/
def drop (c : Cache) (source : String) : Cache :=
  ⟨c.entries.filter fun e => e.1.source != source⟩

/-- Drop all surveys. -/
def clear (_ : Cache) : Cache :=
  {}

/-- The number of surveys. -/
def size (c : Cache) : Nat :=
  c.entries.length

end Cache

end Reshape.Survey
