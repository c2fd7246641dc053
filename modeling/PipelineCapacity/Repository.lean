import PipelineCapacity.Codec
import PipelineCapacity.Stored.Result
import PipelineCapacity.Table

/-!
A key/value store in memory, and typed access to it: pipelines, traffic models,
forecasts, and the results and summaries of simulations, each under a kind of its
own.
-/

set_option autoImplicit false

namespace PipelineCapacity

/-- An entry is addressed by a kind and a name under the namespace of the store;
the three are joined by colons into one key. -/
structure Store where
  space : String
  entries : Table String String

namespace Store

def usualSpace : String := "plantd"

def ofSpace (space : String) : Store := ⟨space, .empty⟩

def key (store : Store) (kind name : String) : String :=
  store.space ++ ":" ++ kind ++ ":" ++ name

/-- Replaces any entry under the same key. -/
def save (store : Store) (kind name data : String) : Store :=
  { store with entries := store.entries.insert (store.key kind name) data }

def load? (store : Store) (kind name : String) : Option String :=
  store.entries.find? (store.key kind name)

/-- Ascending. -/
def keys (store : Store) : List String := store.entries.keys

def size (store : Store) : Nat := store.entries.size

end Store

inductive EntryKind where
  | model
  | traffic
  | forecast
  | results
  | summary
  deriving DecidableEq, Repr

def EntryKind.label : EntryKind → String
  | model => "twinmodel"
  | traffic => "trafficmodel_params"
  | forecast => "trafficmodel_predictions"
  | results => "simulation_traffic"
  | summary => "simulation_summary"

/-- A store and the style of the parameters written to it. -/
structure Repository where
  store : Store
  style : Json.Style

namespace Repository

def saveText (repository : Repository) (kind : EntryKind) (name text : String) : Repository :=
  { repository with store := repository.store.save kind.label name text }

/-- An entry that has to be there. -/
def loadText (repository : Repository) (kind : EntryKind) (name : String) :
    Except (Failure Float) String :=
  match repository.store.load? kind.label name with
  | some text => .ok text
  | none => .error (.store (kind.label ++ ":" ++ name) "no such entry")

/-- Reads an entry that is not parameters. -/
def loadWith {β : Type} (repository : Repository) (kind : EntryKind)
    (read : Document → Reading β) (name : String) : Except (Failure Float) β := do
  let text ← repository.loadText kind name
  (Json.decode read text).mapError .serialization

def saveModel (repository : Repository) (name : String) (params : ModelParams Float) :
    Repository :=
  repository.saveText .model name (Codec.encodeModel repository.style params)

def loadModel (repository : Repository) (name : String) :
    Except (Failure Float) (ModelParams Float) := do
  Codec.decodeModel (← repository.loadText .model name)

/-- A traffic model is stored under its own name. -/
def saveTraffic (repository : Repository) (model : TrafficModel Float) : Repository :=
  repository.saveText .traffic model.name (Codec.encodeTraffic repository.style model)

def loadTraffic (repository : Repository) (name : String) :
    Except (Failure Float) (TrafficModel Float) := do
  Codec.decodeTraffic (← repository.loadText .traffic name)

def saveForecast (repository : Repository) (name : String) (forecast : Forecast Float) :
    Repository :=
  repository.saveText .forecast name (Json.write .compact forecast.toDocument)

def loadForecast (repository : Repository) (name : String) :
    Except (Failure Float) (Forecast Float) :=
  repository.loadWith .forecast (Forecast.ofDocument .json) name

/-- Stores the results and then the summary of an outcome under its name. -/
def saveOutcome (repository : Repository) (outcome : Outcome Float) : Repository :=
  let results := Json.write .compact outcome.results.toDocument
  let summary := Json.write .compact outcome.summary.toDocument
  (repository.saveText .results outcome.name results).saveText .summary outcome.name summary

def loadResults (repository : Repository) (name : String) :
    Except (Failure Float) (ResultSeries Float) :=
  repository.loadWith .results (ResultSeries.ofDocument .json) name

def loadSummary (repository : Repository) (name : String) :
    Except (Failure Float) (Summary Float) :=
  repository.loadWith .summary (Summary.ofDocument .json) name

end Repository

end PipelineCapacity
