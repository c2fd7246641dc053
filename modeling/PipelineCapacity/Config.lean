import PipelineCapacity.Forecast.Traffic
import PipelineCapacity.Run.Job

/-!
Configurations: a named range of days, the traffic model that fills it, the
pipeline under test and the service-level agreement.
-/

set_option autoImplicit false

namespace PipelineCapacity

open Quantity

structure Config (α : Type) where
  name : String
  first : Date
  last : Date
  traffic : TrafficModel α
  model : ModelParams α
  sla : Sla α

namespace Config

variable {α : Type} [Quantity α]

def validate (config : Config α) : Except (Failure α) Unit := do
  if config.last < config.first then throw (.ofDates config.first config.last)
  refuse config.traffic.validate
  refuse config.model.validate
  if !isFinite config.sla.latencyLimit || !isFinite config.sla.requiredPercent then
    throw (.config .slaNotFinite)

/-- The configuration itself, if it is valid. -/
def validated (config : Config α) : Except (Failure α) (Config α) := do
  config.validate
  return config

variable [MonthlyGrowth α]

/-- The job that a configuration describes. -/
def prepare (config : Config α) : Except (Failure α) (Job α) := do
  config.validate
  let forecast ← config.traffic.generate config.first config.last
  let pipeline ← refuse (Pipeline.ofParams config.model)
  return { name := config.name, forecast, pipeline, sla := config.sla }

def execute (config : Config α) : Except (Failure α) (Outcome α) := do
  let job ← config.prepare
  job.run .idle ()

/-- Prepares every configuration before running any. -/
def executeAll (configs : List (Config α)) : Except (Failure α) (List (Outcome α)) := do
  let jobs ← configs.mapM prepare
  Batch.run jobs .idle () fun _ => false

end Config

/-- A configuration in the making. -/
structure Draft (α : Type) where
  name : Option String
  range : Option (Date × Date)
  traffic : Option (TrafficModel α)
  model : Option (ModelParams α)
  sla : Sla α

namespace Draft

variable {α : Type} [Quantity α]

def empty : Draft α := { name := none, range := none, traffic := none, model := none, sla := .usual }

/-- A part of the draft that has to be there. -/
def require {β : Type} (part : Option β) (fault : ConfigFault) : Except (Failure α) β :=
  match part with
  | some part => .ok part
  | none => .error (.config fault)

/-- A draft without a name goes by its traffic model and its kind of pipeline. -/
def build (draft : Draft α) : Except (Failure α) (Config α) := do
  let (first, last) ← require draft.range .missingRange
  let traffic ← require draft.traffic .missingTraffic
  let model ← require draft.model .missingModel
  let name := draft.name.getD (traffic.name ++ "-" ++ model.kind.tag)
  Config.validated { name, first, last, traffic, model, sla := draft.sla }

end Draft

end PipelineCapacity
