/-
# Reshape.Run.Options -- how a plan is run

What a caller can choose for one run. The timestamp stands for the current time where the envelope
asks for it.
-/

import Reshape.Calendar.Standard
import Reshape.Wire.Record

namespace Reshape.Run

open Wire

/-- Instants as strings in their internet form; reading is more lenient than writing. -/
def instantCodec : Codec Calendar.Instant where
  read _ d := match d with
    | .str s => (Calendar.lenient s.toList).mapError fun flaw => .unreadable flaw.message
    | d => d.refuse "an RFC 3339 formatted date and time string"
  write i := .str (Calendar.exactText i)

/-- **How a plan is run.** -/
structure Options where
  templateDefaults : Bool := true
  timestamp : Option Calendar.Instant := none

/-- The JSON form of the options. -/
def Options.shape : Shape Options where
  name := "ApplyOptions"
  blank := {}
  fields :=
    [.defaulted "templateDefaults" .bool (·.templateDefaults)
        (fun v r => { r with templateDefaults := v }),
      .maybe "timestamp" instantCodec (·.timestamp) (fun v r => { r with timestamp := v })]

/-- The instant that the envelope shows, given the current one. -/
def Options.instant (o : Options) (now : Calendar.Instant) : Calendar.Instant :=
  o.timestamp.getD now

end Reshape.Run
