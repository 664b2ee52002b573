/-
# Reshape.Plan.Envelope -- what is put around the result

An envelope is an object that has the result under a key, after entries that describe it.
-/

import Reshape.Wire.Record

namespace Reshape.Plan

open Wire

/-- Which entries describe the result. -/
structure MetadataFields where
  timestamp : Bool := true
  source : Bool := true
  count : Bool := true
  version : Bool := false
  deriving DecidableEq, Repr

/-- The JSON form of the choice of entries. -/
def MetadataFields.shape : Shape MetadataFields where
  name := "MetadataFields"
  blank := {}
  fields :=
    [.defaulted "timestamp" .bool (·.timestamp) (fun v r => { r with timestamp := v }),
      .defaulted "source" .bool (·.source) (fun v r => { r with source := v }),
      .defaulted "count" .bool (·.count) (fun v r => { r with count := v }),
      .defaulted "version" .bool (·.version) (fun v r => { r with version := v })]

/-- **An envelope.** -/
structure Envelope where
  enabled : Bool := false
  key : String := "data"
  includeMetadata : Bool := false
  metadata : MetadataFields := {}
  custom : Members := []

/-- The JSON form of an envelope. -/
def Envelope.shape : Shape Envelope where
  name := "OutputWrapperConfig"
  blank := {}
  fields :=
    [.defaulted "enabled" .bool (·.enabled) (fun v r => { r with enabled := v }),
      .defaulted "wrapperKey" .string (·.key) (fun v r => { r with key := v }),
      .defaulted "includeMetadata" .bool (·.includeMetadata)
        (fun v r => { r with includeMetadata := v }),
      .defaulted "metadataFields" MetadataFields.shape.codec (·.metadata)
        (fun v r => { r with metadata := v }),
      .defaulted "customMetadata" .members (·.custom) (fun v r => { r with custom := v })]

/-- An envelope with the result alone. -/
def Envelope.plain (key : String) : Envelope :=
  { enabled := true, key := key }

/-- The envelope with the chosen entries. -/
def Envelope.withMetadata (e : Envelope) (fields : MetadataFields) : Envelope :=
  { e with includeMetadata := true, metadata := fields }

end Reshape.Plan
