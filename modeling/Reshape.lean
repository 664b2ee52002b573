import Reshape.Calendar.Date
import Reshape.Calendar.Format
import Reshape.Calendar.Instant
import Reshape.Calendar.Layout
import Reshape.Calendar.Standard
import Reshape.Command.Arguments
import Reshape.Command.Grammar
import Reshape.Command.Help
import Reshape.Command.Perform
import Reshape.Command.Request
import Reshape.Decimal.Double
import Reshape.Decimal.Notation
import Reshape.Decimal.Reader
import Reshape.Decimal.Shortest
import Reshape.Formula.Arena.Basic
import Reshape.Formula.Arena.Eval
import Reshape.Formula.Arena.Reading
import Reshape.Formula.Eval
import Reshape.Formula.Function
import Reshape.Formula.Reading
import Reshape.Formula.Term
import Reshape.Formula.Token
import Reshape.Formula.Value
import Reshape.Json.Basic
import Reshape.Json.Kind
import Reshape.Json.Loose
import Reshape.Json.Printer
import Reshape.Main
import Reshape.Path.Basic
import Reshape.Path.Read
import Reshape.Path.Write
import Reshape.Pattern.CharSet
import Reshape.Pattern.Flaw
import Reshape.Pattern.Program
import Reshape.Pattern.Reading
import Reshape.Pattern.Replacement
import Reshape.Pattern.Search
import Reshape.Pattern.Syntax
import Reshape.Plan.Audit
import Reshape.Plan.Basic
import Reshape.Plan.Edit
import Reshape.Plan.Envelope
import Reshape.Plan.Pins
import Reshape.Plan.Rule
import Reshape.Plan.Source
import Reshape.Plan.Template
import Reshape.Plan.Timeline
import Reshape.Proofs.Calendar.Automatic
import Reshape.Proofs.Calendar.Clock
import Reshape.Proofs.Calendar.Days
import Reshape.Proofs.Calendar.Internet
import Reshape.Proofs.Calendar.Layout
import Reshape.Proofs.Calendar.Scanning
import Reshape.Proofs.Decimal.Counts
import Reshape.Proofs.Decimal.Finite
import Reshape.Proofs.Decimal.Floats
import Reshape.Proofs.Decimal.Integers
import Reshape.Proofs.Decimal.Natural
import Reshape.Proofs.Decimal.Normal
import Reshape.Proofs.Decimal.Numbers
import Reshape.Proofs.Decimal.Rounding
import Reshape.Proofs.Formula.Arena.Evaluation
import Reshape.Proofs.Formula.Arena.Layout
import Reshape.Proofs.Formula.Arena.Reader
import Reshape.Proofs.Formula.Arena.Safe
import Reshape.Proofs.Formula.Arena.WellFormed
import Reshape.Proofs.Formula.Complete
import Reshape.Proofs.Formula.Escapes
import Reshape.Proofs.Formula.Exact
import Reshape.Proofs.Formula.Grammar
import Reshape.Proofs.Formula.Lexemes
import Reshape.Proofs.Formula.Splitting
import Reshape.Proofs.Formula.Literals
import Reshape.Proofs.Formula.Positions
import Reshape.Proofs.Formula.Reads
import Reshape.Proofs.Formula.Shape
import Reshape.Proofs.Formula.Size
import Reshape.Proofs.Formula.Sound
import Reshape.Proofs.Formula.Step
import Reshape.Proofs.Formula.Unambiguous
import Reshape.Proofs.Json.Alike
import Reshape.Proofs.Path.Enumeration
import Reshape.Proofs.Path.First
import Reshape.Proofs.Path.Frame
import Reshape.Proofs.Path.Lens
import Reshape.Proofs.Path.Occupied
import Reshape.Proofs.Path.Place
import Reshape.Proofs.Path.RoundTrip
import Reshape.Proofs.Path.Spelling
import Reshape.Proofs.Path.Tidy
import Reshape.Proofs.Path.Wildcards
import Reshape.Proofs.Plan.Containment
import Reshape.Proofs.Plan.Coverage
import Reshape.Proofs.Plan.Indices
import Reshape.Proofs.Plan.Integrity
import Reshape.Proofs.Plan.Pins
import Reshape.Proofs.Plan.Proposals
import Reshape.Proofs.Plan.ReadBack
import Reshape.Proofs.Plan.Slots
import Reshape.Proofs.Plan.Timeline
import Reshape.Proofs.Proposal.Best
import Reshape.Proofs.Proposal.EditDistance
import Reshape.Proofs.Proposal.Proposed
import Reshape.Proofs.Run.Agreement
import Reshape.Proofs.Run.Collision
import Reshape.Proofs.Run.Copy
import Reshape.Proofs.Run.Defaults
import Reshape.Proofs.Run.DerivedPins
import Reshape.Proofs.Run.FirstRecord
import Reshape.Proofs.Run.IdleDefault
import Reshape.Proofs.Run.LastWrite
import Reshape.Proofs.Run.Permutation
import Reshape.Proofs.Run.Pointwise
import Reshape.Proofs.Run.Primary
import Reshape.Proofs.Run.Proposals
import Reshape.Proofs.Run.Required
import Reshape.Proofs.Run.TransformId
import Reshape.Proofs.Run.Undecoded
import Reshape.Proofs.Run.Written
import Reshape.Proofs.Survey.Cache
import Reshape.Proofs.Survey.Cut
import Reshape.Proofs.Survey.Frontier
import Reshape.Proofs.Survey.Resolve
import Reshape.Proofs.Text.Occurrence
import Reshape.Proofs.Text.Pieces
import Reshape.Proofs.Text.Removal
import Reshape.Proofs.Text.Search
import Reshape.Proofs.Text.Size
import Reshape.Proofs.Transform.Admitted
import Reshape.Proofs.Transform.Date
import Reshape.Proofs.Transform.Groups
import Reshape.Proofs.Transform.ReadBack
import Reshape.Proofs.Transform.Rounding
import Reshape.Proofs.Wire.Decodes
import Reshape.Proofs.Wire.Faithful
import Reshape.Proofs.Wire.Parts
import Reshape.Proofs.Wire.Record
import Reshape.Proposal.Basic
import Reshape.Proposal.Similarity
import Reshape.Run.Basic
import Reshape.Run.Condition
import Reshape.Run.Options
import Reshape.Run.Rule
import Reshape.Survey.Basic
import Reshape.Survey.Cache
import Reshape.Text.Case
import Reshape.Text.CaseTable
import Reshape.Text.Category
import Reshape.Text.CategoryTable
import Reshape.Text.Quoted
import Reshape.Text.ScriptTable
import Reshape.Text.Search
import Reshape.Text.Table
import Reshape.Transform.Apply
import Reshape.Transform.Basic
import Reshape.Transform.Check
import Reshape.Transform.Date
import Reshape.Transform.Fault
import Reshape.Transform.Lookup
import Reshape.Transform.Number
import Reshape.Transform.Settings
import Reshape.Transform.Text
import Reshape.Wire.Complaint
import Reshape.Wire.Draft
import Reshape.Wire.Flaw
import Reshape.Wire.Record
import Reshape.Wire.Text
