/-
# Reshape.Command.Request -- what a command line asks for

The commands with what they need to be carried out, made from a command line that was read.
-/

import Reshape.Command.Arguments

namespace Reshape.Command

/-- **What is asked for.** Documents and plans go by the names of their files. -/
inductive Request where
  | apply (plan document : String) (others : List String) (templateDefaults : Bool)
      (timestamp : Option Calendar.Instant)
  | validate (plan : String)
  | extract (document primaryPath : String) (options : Survey.Options)
  | automap (plan sample : String) (threshold : Float) (write : Bool)
  | transform (plan id value : String)

/-- **What is asked for, and how to put it out.** Without a file it goes to the standard output. -/
structure Order where
  request : Request
  output : Option String
  layout : Layout

namespace Line

/-- A size that may be given. -/
def size (l : Line) (long : String) (other : Nat) : Nat :=
  ((l.value? long).bind fun v => Decimal.unsigned? v.toList).getD other

/-- A float that may be given. -/
def float (l : Line) (long : String) (other : Float) : Float :=
  ((l.value? long).bind Decimal.parse?).getD other

/-- An instant that may be given. -/
def instant? (l : Line) (long : String) : Option Calendar.Instant :=
  (l.value? long).bind fun v => (Calendar.lenient v.toList).toOption

/-- How far a survey goes. -/
def surveyOptions (l : Line) : Survey.Options :=
  let usual : Survey.Options := {}
  { maxDepth := l.size "max-depth" usual.maxDepth
    includeWildcards := !l.has "no-wildcards"
    includeFixedIndices := l.has "fixed-indices"
    maxArrayIndices := l.size "max-array-indices" usual.maxArrayIndices
    includeValues := l.has "values" }

/-- What a line asks for. -/
def request (l : Line) : Request :=
  match l.verb with
  | .apply =>
    .apply (l.operand 0) (l.operand 1) (l.values "source") (!l.has "no-template-defaults")
      (l.instant? "timestamp")
  | .validate => .validate (l.operand 0)
  | .extract => .extract (l.operand 0) ((l.value? "primary-path").getD "") l.surveyOptions
  | .automap =>
    .automap (l.operand 0) (l.operand 1) (l.float "threshold" Proposal.defaultThreshold)
      (l.has "write")
  | .transform => .transform (l.operand 0) (l.operand 1) (l.operand 2)

/-- **The order in a line.** -/
def order (l : Line) : Order where
  request := l.request
  output := l.value? "output"
  layout := ((l.value? "format").bind fun name => layouts.lookup name).getD .pretty

end Line

/-- The id and the file in the value of a switch for another document. -/
def splitBinding? (binding : String) : Option (String × String) :=
  match splitValue binding.toList with
  | (id, some file) => some (id, file)
  | (_, none) => none

/-- **The files that a request reads.** -/
def Request.files : Request → List String
  | .apply plan document others _ _ =>
    plan :: document :: (others.filterMap splitBinding?).map Prod.snd
  | .validate plan => [plan]
  | .extract document _ _ => [document]
  | .automap plan sample _ _ => [plan, sample]
  | .transform plan _ _ => [plan]

end Reshape.Command
