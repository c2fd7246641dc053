import PipelineCapacity.Pipeline.Model

/-!
What a run leaves behind: one row for every forecast hour, what the rows say of a
latency agreement, and the figures published next to them.
-/

set_option autoImplicit false

namespace PipelineCapacity

open Quantity

section Series

structure ResultRow (α : Type) where
  slot : Slot
  incoming : α
  throughput : α
  backlog : α
  latencyFifo : α
  latencyLifo : α
  /-- Absent for an hour that processed nothing. -/
  costPerRecord : Option α
  cost : α
  units : Nat

structure ResultSeries (α : Type) where
  rows : List (ResultRow α)

variable {α : Type} [Quantity α]

/-- Cost of one processed record, if there is any. -/
def costPerRecord? (cost throughput : α) : Option α :=
  if zero < throughput then some (cost / throughput) else none

def ResultRow.ofMetrics (slot : Slot) (incoming : α) (metrics : StepMetrics α) : ResultRow α :=
  { slot
    incoming
    throughput := metrics.throughput
    backlog := metrics.backlog
    latencyFifo := metrics.latencyFifo
    latencyLifo := metrics.latencyLifo
    costPerRecord := costPerRecord? metrics.cost metrics.throughput
    cost := metrics.cost
    units := metrics.units }

namespace ResultSeries

omit [Quantity α] in
def length (series : ResultSeries α) : Nat := series.rows.length

def totalIncoming (series : ResultSeries α) : α := sum (series.rows.map (·.incoming))

def totalThroughput (series : ResultSeries α) : α := sum (series.rows.map (·.throughput))

def totalCost (series : ResultSeries α) : α := sum (series.rows.map (·.cost))

end ResultSeries

end Series

/-- A latency service-level agreement: a percentage of the hours must stay
strictly below a latency. -/
structure Sla (α : Type) where
  latencyLimit : α
  requiredPercent : α

structure SlaResult (α : Type) where
  met : Bool
  percentWithin : α

namespace Sla

variable {α : Type} [Quantity α]

/-- 99 % of the hours below 70 seconds. -/
def usual : Sla α := ⟨ofNat 70, ofNat 99⟩

/-- Hours whose first-in latency is below the limit. -/
def countWithin (sla : Sla α) (series : ResultSeries α) : Nat :=
  series.rows.countP fun row => decide (row.latencyFifo < sla.latencyLimit)

def percentWithin (sla : Sla α) (series : ResultSeries α) : α :=
  ofNat 100 * ofNat (sla.countWithin series) / ofNat series.length

def evaluate (sla : Sla α) (series : ResultSeries α) : Except (Failure α) (SlaResult α) := do
  refuse (requireNonNegative "latency_sla_limit" sla.latencyLimit)
  refuse (requireNonNegative "latency_sla_percent" sla.requiredPercent)
  if series.rows.isEmpty then throw .emptySeries
  let percent := sla.percentWithin series
  return ⟨decide (sla.requiredPercent ≤ percent), percent⟩

end Sla

/-- The figures published next to a simulation. -/
structure Summary (α : Type) where
  hours : Nat
  totalCost : α
  totalIncoming : α
  totalThroughput : α
  meanLatency : α
  maxLatency : α
  meanBacklog : α
  maxBacklog : α
  meanThroughput : α
  maxThroughput : α
  maxUnits : Nat
  sla : SlaResult α

namespace Summary

variable {α : Type} [Quantity α]

/-- Mean and greatest value of a column. -/
def column (series : ResultSeries α) (value : ResultRow α → α) : Except (Failure α) (α × α) :=
  match meanAndPeak (series.rows.map value) with
  | some figures => .ok figures
  | none => .error .emptySeries

omit [Quantity α] in
/-- The greatest count of units, one when there is no row. -/
def peakUnits (series : ResultSeries α) : Nat :=
  ((series.rows.map (·.units)).max?).getD 1

def ofResults (series : ResultSeries α) (sla : Sla α) : Except (Failure α) (Summary α) := do
  let checked ← sla.evaluate series
  let (meanLatency, maxLatency) ← column series (·.latencyFifo)
  let (meanBacklog, maxBacklog) ← column series (·.backlog)
  let (meanThroughput, maxThroughput) ← column series (·.throughput)
  return {
    hours := series.length
    totalCost := series.totalCost
    totalIncoming := series.totalIncoming
    totalThroughput := series.totalThroughput
    meanLatency
    maxLatency
    meanBacklog
    maxBacklog
    meanThroughput
    maxThroughput
    maxUnits := peakUnits series
    sla := checked }

/-- Mean cost of one processed record, if any was processed. -/
def costPerRecord (summary : Summary α) : Option α :=
  costPerRecord? summary.totalCost summary.totalThroughput

end Summary

end PipelineCapacity
