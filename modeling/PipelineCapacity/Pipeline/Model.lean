import PipelineCapacity.Pipeline.Params
import PipelineCapacity.Quantity
import PipelineCapacity.Queue

/-!
The four kinds of pipeline as state machines. A step takes the records that
arrive in one hour and reports what became of them. What an hour's demand asks of
a pipeline comes first: how many units serve it, and how it falls on the seconds
of the hour.
-/

set_option autoImplicit false

namespace PipelineCapacity

open Quantity

section Demand

variable {α : Type} [Quantity α]

/-- The first count, from `units` on, whose capacity is not short of the demand. -/
def raiseUnits (incoming unitCapacity : α) (units : Nat) : Nat :=
  if short : ofNat units * unitCapacity < incoming ∧ units < maxUnits then
    raiseUnits incoming unitCapacity (units + 1)
  else units
termination_by maxUnits - units
decreasing_by
  have := short.2
  omega

/-- Units that serve a demand within one step, at least one. Rounding in the
quotient is made good by raising the count. -/
def unitsFor (incoming unitCapacity : α) : Nat :=
  raiseUnits incoming unitCapacity (toUnits (max (ceil (incoming / unitCapacity)) one))

/-- Whole records of an amount; none of a negative or endless one. -/
def wholeRecords (records : α) : Nat :=
  if isFinite records && decide (zero < records) then truncate records else 0

/-- Records that fall on a second when a total is spread evenly over the hour.
What does not divide goes to the first seconds. -/
def secondShare (total second : Nat) : Nat :=
  total / secondsPerHour + if second < total % secondsPerHour then 1 else 0

/-- An hour's records, second by second. -/
def spreadOverSeconds (records : α) : List α :=
  let total := wholeRecords records
  (List.range secondsPerHour).map fun second => ofNat (secondShare total second)

end Demand

structure StepMetrics (α : Type) where
  throughput : α
  latencyFifo : α
  latencyLifo : α
  backlog : α
  cost : α
  units : Nat

/-- One unit at a constant hourly cost. -/
structure FixedModel (α : Type) where
  params : SimpleParams α
  queue : Queue α
  totalCost : α

/-- As many units as every hour's demand needs. -/
structure QuickScalingModel (α : Type) where
  params : QuickScalingParams α
  queue : Queue α
  units : Nat
  totalCost : α

/-- Units under the hysteresis controller, which observes every hour. -/
structure AutoscalingModel (α : Type) where
  params : AutoscalingParams α
  queue : Queue α
  scaler : Scaler α
  totalCost : α

/-- Units under the hysteresis controller, which observes every second. -/
structure FineModel (α : Type) where
  params : AutoscalingParams α
  queue : Queue α
  scaler : Scaler α
  totalCost : α

variable {α : Type} [Quantity α]

/-- Metrics of an hour served in one update of the queue. -/
def StepMetrics.ofService (service : Queue.Service α) (cost : α) (units : Nat) :
    StepMetrics α :=
  { throughput := service.throughput
    latencyFifo := service.latencyFifo
    latencyLifo := service.latencyLifo
    backlog := service.backlog
    cost
    units }

namespace SimpleParams

/-- The hourly load on a number of units. -/
def hourLoad (params : SimpleParams α) (incoming capacity : α) : Queue.Load α :=
  { incoming
    capacity
    baseLatency := params.baseLatency
    duration := ofNat secondsPerHour }

end SimpleParams

/-- Cost of one hour on a number of units. -/
def hourCost (fixedCost unitCost : α) (units : Nat) : α := fixedCost + unitCost * ofNat units

namespace FixedModel

def create (params : SimpleParams α) : Except (InvalidParameter α) (FixedModel α) := do
  params.validate
  return { params, queue := .empty, totalCost := zero }

def reset (model : FixedModel α) : FixedModel α :=
  { model with queue := .empty, totalCost := zero }

def step (model : FixedModel α) (incoming : α) : StepMetrics α × FixedModel α :=
  let params := model.params
  let (service, queue) := model.queue.advance (params.hourLoad incoming params.maxRate)
  (.ofService service params.unitCost 1,
    { model with queue, totalCost := model.totalCost + params.unitCost })

end FixedModel

namespace QuickScalingModel

def create (params : QuickScalingParams α) :
    Except (InvalidParameter α) (QuickScalingModel α) := do
  params.validate
  return { params, queue := .empty, units := 1, totalCost := zero }

def reset (model : QuickScalingModel α) : QuickScalingModel α :=
  { model with queue := .empty, units := 1, totalCost := zero }

def step (model : QuickScalingModel α) (incoming : α) :
    StepMetrics α × QuickScalingModel α :=
  let base := model.params.base
  let units := unitsFor incoming base.maxRate
  let (service, queue) :=
    model.queue.advance (base.hourLoad incoming (base.maxRate * ofNat units))
  let cost := hourCost model.params.fixedCost base.unitCost units
  (.ofService service cost units,
    { model with queue, units, totalCost := model.totalCost + cost })

end QuickScalingModel

namespace AutoscalingModel

def create (params : AutoscalingParams α) :
    Except (InvalidParameter α) (AutoscalingModel α) := do
  params.validate
  return { params, queue := .empty, scaler := .ofRule params.rule, totalCost := zero }

def reset (model : AutoscalingModel α) : AutoscalingModel α :=
  { model with queue := .empty, scaler := model.scaler.reset, totalCost := zero }

/-- The hour is served and paid with the units found at its start; the metrics
show the units at its end. -/
def step (model : AutoscalingModel α) (incoming : α) : StepMetrics α × AutoscalingModel α :=
  let base := model.params.base
  let units := model.scaler.units
  let (service, queue) :=
    model.queue.advance (base.hourLoad incoming (base.maxRate * ofNat units))
  let cost := hourCost model.params.fixedCost base.unitCost units
  let scaler := (model.scaler.observe service.throughput base.maxRate).2
  (.ofService service cost scaler.units,
    { model with queue, scaler, totalCost := model.totalCost + cost })

end AutoscalingModel

namespace FineModel

def create (params : AutoscalingParams α) : Except (InvalidParameter α) (FineModel α) := do
  params.validate
  return { params, queue := .empty, scaler := .ofRule params.rule, totalCost := zero }

def reset (model : FineModel α) : FineModel α :=
  { model with queue := .empty, scaler := model.scaler.reset, totalCost := zero }

/-- Records per second of one unit. -/
def secondRate (params : AutoscalingParams α) : α := params.base.maxRate / ofNat secondsPerHour

/-- An hour under way: what its seconds so far add up to. -/
structure Hour (α : Type) where
  queue : Queue α
  scaler : Scaler α
  throughput : α
  cost : α
  last : Option (Queue.Service α)

def Hour.start (model : FineModel α) : Hour α :=
  { queue := model.queue, scaler := model.scaler, throughput := zero, cost := zero, last := none }

/-- One second of the hour, served with the units found at its start. -/
def Hour.second (params : AutoscalingParams α) (rate : α) (hour : Hour α) (records : α) :
    Hour α :=
  let units := hour.scaler.units
  let (service, queue) := hour.queue.advance
    { incoming := records
      capacity := rate * ofNat units
      baseLatency := params.base.baseLatency
      duration := one }
  let cost := hourCost params.fixedCost params.base.unitCost units / ofNat secondsPerHour
  { queue
    scaler := (hour.scaler.observe service.throughput rate).2
    throughput := hour.throughput + service.throughput
    cost := hour.cost + cost
    last := some service }

/-- The latencies are those of the last second. -/
def Hour.metrics (params : AutoscalingParams α) (hour : Hour α) : StepMetrics α :=
  { throughput := hour.throughput
    latencyFifo := (hour.last.map (·.latencyFifo)).getD params.base.baseLatency
    latencyLifo := (hour.last.map (·.latencyLifo)).getD params.base.baseLatency
    backlog := hour.queue.backlog
    cost := hour.cost
    units := hour.scaler.units }

def step (model : FineModel α) (incoming : α) : StepMetrics α × FineModel α :=
  let hour := (spreadOverSeconds incoming).foldl
    (Hour.second model.params (secondRate model.params)) (Hour.start model)
  (hour.metrics model.params,
    { model with
      queue := hour.queue
      scaler := hour.scaler
      totalCost := model.totalCost + hour.cost })

end FineModel

inductive Pipeline (α : Type) where
  | fixed (model : FixedModel α)
  | quickScaling (model : QuickScalingModel α)
  | autoscaling (model : AutoscalingModel α)
  | autoscalingFine (model : FineModel α)

namespace Pipeline

/-- A pipeline in its zero state. -/
def ofParams : ModelParams α → Except (InvalidParameter α) (Pipeline α)
  | .simple params => (FixedModel.create params).map fixed
  | .quickScaling params => (QuickScalingModel.create params).map quickScaling
  | .autoscaling params => (AutoscalingModel.create params).map autoscaling
  | .autoscalingFine params => (FineModel.create params).map autoscalingFine

omit [Quantity α] in
def params : Pipeline α → ModelParams α
  | fixed model => .simple model.params
  | quickScaling model => .quickScaling model.params
  | autoscaling model => .autoscaling model.params
  | autoscalingFine model => .autoscalingFine model.params

omit [Quantity α] in
def kind (pipeline : Pipeline α) : ModelType := pipeline.params.kind

/-- Empty queue, one unit, no cost. -/
def reset : Pipeline α → Pipeline α
  | fixed model => fixed model.reset
  | quickScaling model => quickScaling model.reset
  | autoscaling model => autoscaling model.reset
  | autoscalingFine model => autoscalingFine model.reset

/-- One hour with the records that arrive in it. -/
def step (pipeline : Pipeline α) (incoming : α) : StepMetrics α × Pipeline α :=
  match pipeline with
  | fixed model => (model.step incoming).map id fixed
  | quickScaling model => (model.step incoming).map id quickScaling
  | autoscaling model => (model.step incoming).map id autoscaling
  | autoscalingFine model => (model.step incoming).map id autoscalingFine

omit [Quantity α] in
def units : Pipeline α → Nat
  | fixed _ => 1
  | quickScaling model => model.units
  | autoscaling model => model.scaler.units
  | autoscalingFine model => model.scaler.units

omit [Quantity α] in
def queue : Pipeline α → Queue α
  | fixed model => model.queue
  | quickScaling model => model.queue
  | autoscaling model => model.queue
  | autoscalingFine model => model.queue

omit [Quantity α] in
def totalCost : Pipeline α → α
  | fixed model => model.totalCost
  | quickScaling model => model.totalCost
  | autoscaling model => model.totalCost
  | autoscalingFine model => model.totalCost

end Pipeline

end PipelineCapacity
