import PipelineCapacity.Document.Mismatch

/-!
Everything that can go wrong, by cause, and the wording of each.
-/

set_option autoImplicit false

namespace PipelineCapacity

/-- Why stored parameters cannot be used. -/
inductive CodecFault where
  | malformedModel
  | notAnObject
  | missingModelType
  | unknownModelType (tag : String)
  | reading (fault : ReadFault)
  /-- Words of the caller. -/
  | note (text : String)

def CodecFault.message : CodecFault → String
  | malformedModel => "Malformed model JSON: " ++ ReadFault.malformed.message
  | notAnObject => "Model must be a JSON object"
  | missingModelType => "Missing model_type"
  | unknownModelType tag => s!"Unknown model_type '{tag}'"
  | reading fault => fault.message
  | note text => text

/-- Why a configuration cannot be used. -/
inductive ConfigFault where
  | invalidJson (fault : ReadFault)
  | invalidToml (fault : ReadFault)
  | unsupportedFormat (path : String)
  | missingRange
  | missingTraffic
  | missingModel
  | slaNotFinite
  /-- Words of the caller. -/
  | note (text : String)

def ConfigFault.message : ConfigFault → String
  | invalidJson fault => "Invalid JSON: " ++ fault.message
  | invalidToml fault => "Invalid TOML: " ++ fault.message
  | unsupportedFormat path => s!"Unsupported configuration format: {path}"
  | missingRange => "Missing forecast date range"
  | missingTraffic => "Missing traffic model"
  | missingModel => "Missing capacity model"
  | slaNotFinite => "SLA limit and percent must be finite"
  | note text => text

inductive Failure (α : Type) where
  | invalidParameter (cause : InvalidParameter α)
  | invalidPolicy (token : String)
  /-- The ends of a range of days, as they are written. -/
  | invalidRange (first last : String)
  | emptySeries
  | codec (cause : CodecFault)
  | cancelled (completed : Nat)
  | store (key detail : String)
  | config (cause : ConfigFault)
  | serialization (cause : ReadFault)
  | unreadableFile
  | unexpected (detail : String)

namespace Failure

variable {α : Type}

def message [Shown α] : Failure α → String
  | invalidParameter cause => "Invalid parameter: " ++ cause.message
  | invalidPolicy token =>
      s!"Unknown scheduling policy '{token}' (expected fifo, lifo or random)"
  | invalidRange first last => s!"Invalid forecast range: {last} is before {first}"
  | emptySeries => "Cannot evaluate an empty result series"
  | codec cause => "Codec error: " ++ cause.message
  | cancelled completed => s!"Simulation cancelled after {completed} steps"
  | store key detail => s!"Store error for '{key}': {detail}"
  | config cause => "Configuration error: " ++ cause.message
  | serialization cause => "Serialization error: " ++ cause.message
  | unreadableFile => "IO error: unreadable file"
  | unexpected detail => "Unexpected error: " ++ detail

def isCancelled : Failure α → Bool
  | cancelled _ => true
  | _ => false

def ofDates (first last : Date) : Failure α := invalidRange first.text last.text

end Failure

/-- Raises a refused value as a failure. -/
def refuse {α β : Type} (checked : Except (InvalidParameter α) β) : Except (Failure α) β :=
  checked.mapError .invalidParameter

end PipelineCapacity
