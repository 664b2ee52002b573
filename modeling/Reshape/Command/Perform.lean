/-
# Reshape.Command.Perform -- carrying out a request

What the program does, as a function of the files around it. The first thing that goes wrong ends it
with a message; then nothing is put out.
-/

import Reshape.Command.Help
import Reshape.Command.Request
import Reshape.Plan.Audit
import Reshape.Proposal.Basic
import Reshape.Run.Basic
import Reshape.Wire.Text

namespace Reshape.Command

/-! ## The world around -/

/-- What is found under the name of a file. -/
inductive File where
  | missing
  | unreadable
  | text (content : String)

/-- **What the program finds around it**: files, places for new ones, the time, and ids that nothing
else uses. -/
structure World where
  file : String → File
  creatable : String → Bool
  now : Calendar.Instant
  newId : Nat → String

/-- **What the program does**: its exit code, what it prints, and the file that it makes. -/
structure Outcome where
  code : Nat
  stdout : String := ""
  stderr : List String := []
  written : Option (String × String) := none

/-! ## New ids -/

/-- A number in hexadecimal digits, `width` of them at least. -/
def hexDigits (width n : Nat) : List Char :=
  let digits := Text.hexText n
  List.replicate (width - digits.length) '0' ++ digits

/-- **The id of a number**: 32 hexadecimal digits in five groups, six bits of which say that it is a
random one. Numbers below `2 ^ 122` have different ids. -/
def idText (n : Nat) : String :=
  let first := hexDigits 12 (n / Decimal.twoTo 74 % Decimal.twoTo 48)
  let middle := '4' :: hexDigits 3 (n / Decimal.twoTo 62 % Decimal.twoTo 12)
  let last := hexDigits 16 (Decimal.twoTo 63 + n % Decimal.twoTo 62)
  "-".intercalate
    ([first.take 8, first.drop 8, middle, last.take 4, last.drop 4].map String.ofList)

/-! ## Reading files -/

/-- A message with the cause below it. -/
def causedBy (message cause : String) : String :=
  message ++ "\n\nCaused by:\n    " ++ cause

/-- Read the document in a file; `role` says what it is good for. -/
def readDocument (w : World) (role file : String) : Except String Json :=
  match w.file file with
  | .missing => .error ("Failed to open " ++ role ++ ": " ++ file)
  | .unreadable => .error ("Failed to parse " ++ role ++ " from: " ++ file)
  | .text content =>
    (Wire.Text.parse content).mapError fun _ => "Failed to parse " ++ role ++ " from: " ++ file

/-- Read the plan in a file. -/
def readPlan (w : World) (file : String) : Except String Plan :=
  match w.file file with
  | .missing => .error ("Failed to open config file: " ++ file)
  | .unreadable => .error ("Failed to parse mapping config from: " ++ file)
  | .text content =>
    (Plan.ofText content).mapError fun _ => "Failed to parse mapping config from: " ++ file

/-- Read other documents, each given as its id and its file, and add them to the ones there are. -/
def readOthers (w : World) : List String → Members → Except String Members
  | [], documents => .ok documents
  | binding :: bindings, documents =>
    match splitBinding? binding with
    | none => .error ("Expected <source-id>=<file>, got `" ++ binding ++ "`")
    | some (id, file) => do
      let document ← readDocument w "source document" file
      readOthers w bindings (documents.insert id document)

/-! ## Requests -/

/-- **What comes of a request**: a value, remarks, and whether all is well. -/
structure Product where
  value : Json
  remarks : List String := []
  success : Bool := true

/-- Run a plan on a document and perhaps on others. -/
def applyPlan (w : World) (o : Run.Options) (p : Plan) (document : Json) (others : List String) :
    Except String Json :=
  if others.isEmpty then .ok (Run.run p o w.now document)
  else
    match p.selection.primary? with
    | none => .error "Config selects no sources; cannot bind --source documents"
    | some primary => do
      let documents ← readOthers w others [(primary.id, document)]
      (Run.runMany p o w.now documents).mapError fun fault =>
        causedBy "Mapping failed" fault.message

/-- What comes of an audit. -/
def auditProduct (r : Plan.Report) : Product where
  value := r.encode
  remarks := (r.warnings.map fun i => "Warning: " ++ i.message) ++
    (r.errors.map fun i => "Error: " ++ i.message)
  success := r.valid

/-- The paths that a sample document offers to a plan. -/
def samplePaths (p : Plan) (sample : Json) : List String :=
  ((Survey.recordFields {} p.selection.effectivePrimaryPath sample).map (·.path)).filter (· != "")

/-- The threshold is sensible. -/
def isThreshold (x : Float) : Bool :=
  0.0 ≤ x && x ≤ 1.0

/-- What comes of proposals for a plan. -/
def proposals (w : World) (p : Plan) (paths : List String) (threshold : Float) (write : Bool) :
    Product :=
  if write then { value := Plan.shape.encode (p.withProposals w.newId paths threshold) }
  else
    let rules := Proposal.proposeFor w.newId p paths threshold
    { value := .arr (rules.map Plan.Rule.shape.encode)
      remarks :=
        if rules.isEmpty then
          ["No field reached the similarity threshold of " ++ Decimal.plainText threshold]
        else [] }

/-- **Carry out a request**, or say what went wrong. -/
def produce (w : World) : Request → Except String Product
  | .apply plan document others templateDefaults timestamp => do
    let p ← readPlan w plan
    let d ← readDocument w "source document" document
    let value ← applyPlan w ⟨templateDefaults, timestamp⟩ p d others
    return { value := value }
  | .validate plan => do
    let p ← readPlan w plan
    return auditProduct p.audit
  | .extract document primaryPath options => do
    let d ← readDocument w "document" document
    return { value := .arr ((Survey.recordFields options primaryPath d).map Survey.Field.encode) }
  | .automap plan sample threshold write => do
    if !isThreshold threshold then
      .error ("Threshold must be between 0.0 and 1.0, got " ++ Decimal.plainText threshold)
    let p ← readPlan w plan
    let d ← readDocument w "sample document" sample
    return proposals w p (samplePaths p d) threshold write
  | .transform plan id value => do
    let p ← readPlan w plan
    match p.findTransform? id with
    | none => .error ("No transformation with id `" ++ id ++ "` in config")
    | some t => do
      let v ← (Wire.Text.parse value).mapError fun _ =>
        "Failed to parse input value as JSON: " ++ value
      let result ← (t.transform.tryApply v).mapError fun fault =>
        causedBy "Transformation failed" fault.message
      return { value := result }

/-! ## Orders -/

/-- A failure, after remarks that were made before. -/
def failure (remarks : List String) (message : String) : Outcome :=
  { code := 1, stderr := remarks ++ ["Error: " ++ message] }

/-- A value in a layout, with a line end. -/
def Layout.text : Layout → Json → String
  | .pretty, value => value.pretty 2 ++ "\n"
  | .compact, value => value.compact ++ "\n"

/-- Put out what came of a request. -/
def putOut (w : World) (o : Order) (p : Product) : Outcome :=
  let text := o.layout.text p.value
  let code := if p.success then 0 else 1
  match o.output with
  | none => { code := code, stdout := text, stderr := p.remarks }
  | some file =>
    if w.creatable file then { code := code, stderr := p.remarks, written := some (file, text) }
    else failure p.remarks ("Failed to create output file: " ++ file)

/-- Carry out an order. -/
def fulfil (w : World) (o : Order) : Outcome :=
  match produce w o.request with
  | .ok p => putOut w o p
  | .error message => failure [] message

/-- What is said to a command line that is refused. -/
def misuseText : String :=
  "error: the arguments do not fit; for more information, try '--help'"

/-- **What the program does when called with words.** -/
def run (w : World) (words : List String) : Outcome :=
  match readLine words with
  | .ok line => fulfil w line.order
  | .error stop =>
    match stop.text? with
    | some text => { code := 0, stdout := text }
    | none => { code := 2, stderr := [misuseText] }

/-- **The files that the program reads when called with words.** -/
def filesToRead (words : List String) : List String :=
  match readLine words with
  | .ok line => line.order.request.files
  | .error _ => []

end Reshape.Command
