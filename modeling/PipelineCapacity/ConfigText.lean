import PipelineCapacity.Config
import PipelineCapacity.Json.Reader
import PipelineCapacity.Json.Writer
import PipelineCapacity.Stored.Forecast
import PipelineCapacity.Stored.Result
import PipelineCapacity.Toml.Reader

/-!
Configurations as documents, texts and files. A file's format is told by its
extension.
-/

set_option autoImplicit false

namespace PipelineCapacity.Config

def toDocument (config : Config Float) : Document :=
  .record
    [("name", .text config.name), ("from", config.first.toDocument),
      ("to", config.last.toDocument), ("forecast", config.traffic.toDocument),
      ("model", config.model.toDocument), ("sla", config.sla.toDocument)]

def shape : Shape := ⟨"SimulationConfig", 6⟩

def gather (dialect : Dialect) (fields : Fields) : Gathered (Config Float) :=
  Config.mk <$> fields.get 0 "name" dialect.readText
    <*> fields.get 1 "from" dialect.readDate
    <*> fields.get 2 "to" dialect.readDate
    <*> fields.get 3 "forecast" (TrafficModel.ofDocument dialect)
    <*> fields.get 4 "model" (ModelParams.ofDocument dialect)
    <*> fields.getOr (.allowed .usual) 5 "sla" (Sla.ofDocument dialect)

def ofDocument (dialect : Dialect) : Document → Reading (Config Float) :=
  shape.read dialect (gather dialect)

def ofJson (text : String) : Except (Failure Float) (Config Float) := do
  let config ← (Json.decode (ofDocument .json) text).mapError fun fault =>
    .config (.invalidJson fault)
  config.validated

def ofToml (text : String) : Except (Failure Float) (Config Float) := do
  let config ← (Toml.decode (ofDocument .toml) text).mapError fun fault =>
    .config (.invalidToml fault)
  config.validated

def toJson (config : Config Float) (style : Json.Style) : String :=
  Json.write style config.toDocument

/-- What follows the last dot of a file name, unless the name starts with it. -/
def extension? (file : String) : Option String :=
  let reversed := file.toList.reverse
  match reversed.dropWhile (· != '.') with
  | [] | ['.'] => none
  | _ => some (String.ofList (reversed.takeWhile (· != '.')).reverse)

/-- The configuration of a file; the contents are absent when the file cannot be
read as text. -/
def ofFile (file : String) (contents : Option String) :
    Except (Failure Float) (Config Float) :=
  match contents with
  | none => .error .unreadableFile
  | some text =>
      match extension? file with
      | some "json" => ofJson text
      | some "toml" => ofToml text
      | _ => .error (.config (.unsupportedFormat file))

end PipelineCapacity.Config
