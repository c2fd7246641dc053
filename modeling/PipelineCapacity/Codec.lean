import PipelineCapacity.Json.Reader
import PipelineCapacity.Json.Writer
import PipelineCapacity.Stored.Forecast
import PipelineCapacity.Stored.Pipeline

/-!
The text form in which parameters are handed to a store.

Reading gives valid parameters or says why not. For a pipeline the kind is
checked first and then the policy, so that an unknown policy is reported as
such, whatever else is wrong.
-/

set_option autoImplicit false

namespace PipelineCapacity.Codec

open Json

def encodeModel (style : Style) (params : ModelParams Float) : String :=
  write style params.toDocument

def encodeTraffic (style : Style) (model : TrafficModel Float) : String :=
  write style model.toDocument

/-- The text of a field, if it has one. -/
def textField? (fields : List (String × Document)) (name : String) : Option String :=
  match Document.field? fields name with
  | some (.text text) => some text
  | _ => none

/-- The kind must be a known one. -/
def checkKind (fields : List (String × Document)) : Except (Failure Float) Unit :=
  match textField? fields "model_type" with
  | none => .error (.codec .missingModelType)
  | some tag =>
      match ModelType.ofTag? tag with
      | some _ => .ok ()
      | none => .error (.codec (.unknownModelType tag))

/-- The policy, if it is a text, must be a known one. -/
def checkPolicy (fields : List (String × Document)) : Except (Failure Float) Unit :=
  match textField? fields "policy" with
  | none => .ok ()
  | some token => (Policy.parse token).map fun _ => ()

/-- Parameters out of a document whose records are sorted. -/
def modelOfDocument (document : Document) : Except (Failure Float) (ModelParams Float) := do
  match document with
  | .record fields =>
      checkKind fields
      checkPolicy fields
      let params ← (ModelParams.ofDocument Dialect.json.aside document).mapError
        fun cause => .codec (.reading (.mismatch cause))
      refuse params.validate
      return params
  | _ => throw (.codec .notAnObject)

def decodeModel (text : String) : Except (Failure Float) (ModelParams Float) :=
  match read? text.toList with
  | none => .error (.codec .malformedModel)
  | some document =>
      if document.isReadable then modelOfDocument document.sorted
      else .error (.codec .malformedModel)

def decodeTraffic (text : String) : Except (Failure Float) (TrafficModel Float) := do
  let model ← (decode (TrafficModel.ofDocument .json) text).mapError
    fun fault => .codec (.reading fault)
  refuse model.validate
  return model

end PipelineCapacity.Codec
