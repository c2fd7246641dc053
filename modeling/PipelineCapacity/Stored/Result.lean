import PipelineCapacity.Run.Job
import PipelineCapacity.Stored.Forecast
import PipelineCapacity.Stored.Pipeline

/-!
Documents of what runs produce.
-/

set_option autoImplicit false

namespace PipelineCapacity

open Document

namespace Direction

def toDocument (direction : Direction) : Document := .text direction.label

def ofDocument (dialect : Dialect) : Document → Reading Direction :=
  dialect.readVariant all label

end Direction

namespace ScaleEvent

def toDocument (event : ScaleEvent) : Document :=
  .record
    [("index", event.slot.toDocument), ("direction", event.direction.toDocument),
      ("from_numproc", ofNat event.before), ("to_numproc", ofNat event.after)]

def shape : Shape := ⟨"ScaleEvent", 4⟩

def gather (dialect : Dialect) (fields : Fields) : Gathered ScaleEvent :=
  ScaleEvent.mk <$> fields.get 0 "index" (Slot.ofDocument dialect)
    <*> fields.get 1 "direction" (Direction.ofDocument dialect)
    <*> fields.get 2 "from_numproc" dialect.readCount
    <*> fields.get 3 "to_numproc" dialect.readCount

def ofDocument (dialect : Dialect) : Document → Reading ScaleEvent :=
  shape.read dialect (gather dialect)

end ScaleEvent

namespace StepMetrics

def toDocument (metrics : StepMetrics Float) : Document :=
  .record
    [("throughput", ofFloat metrics.throughput), ("latency_fifo", ofFloat metrics.latencyFifo),
      ("latency_lifo", ofFloat metrics.latencyLifo), ("queue", ofFloat metrics.backlog),
      ("cost", ofFloat metrics.cost), ("numproc", ofNat metrics.units)]

def shape : Shape := ⟨"StepMetrics", 6⟩

def gather (dialect : Dialect) (fields : Fields) : Gathered (StepMetrics Float) :=
  StepMetrics.mk <$> fields.get 0 "throughput" dialect.readReal
    <*> fields.get 1 "latency_fifo" dialect.readReal
    <*> fields.get 2 "latency_lifo" dialect.readReal
    <*> fields.get 3 "queue" dialect.readReal
    <*> fields.get 4 "cost" dialect.readReal
    <*> fields.get 5 "numproc" dialect.readCount

def ofDocument (dialect : Dialect) : Document → Reading (StepMetrics Float) :=
  shape.read dialect (gather dialect)

end StepMetrics

namespace ResultRow

def toDocument (row : ResultRow Float) : Document :=
  .record
    [("index", row.slot.toDocument), ("incoming", ofFloat row.incoming),
      ("throughput", ofFloat row.throughput), ("queue_len", ofFloat row.backlog),
      ("latency_fifo", ofFloat row.latencyFifo), ("latency_lifo", ofFloat row.latencyLifo),
      ("cost_per_record", (row.costPerRecord.map ofFloat).getD .null),
      ("cost", ofFloat row.cost), ("numproc", ofNat row.units)]

def shape : Shape := ⟨"ResultRow", 9⟩

def gather (dialect : Dialect) (fields : Fields) : Gathered (ResultRow Float) :=
  ResultRow.mk <$> fields.get 0 "index" (Slot.ofDocument dialect)
    <*> fields.get 1 "incoming" dialect.readReal
    <*> fields.get 2 "throughput" dialect.readReal
    <*> fields.get 3 "queue_len" dialect.readReal
    <*> fields.get 4 "latency_fifo" dialect.readReal
    <*> fields.get 5 "latency_lifo" dialect.readReal
    <*> fields.getOr (.unnamed none) 6 "cost_per_record" dialect.readReal?
    <*> fields.get 7 "cost" dialect.readReal
    <*> fields.get 8 "numproc" dialect.readCount

def ofDocument (dialect : Dialect) : Document → Reading (ResultRow Float) :=
  shape.read dialect (gather dialect)

end ResultRow

namespace ResultSeries

def toDocument (series : ResultSeries Float) : Document :=
  .record [("rows", .list (series.rows.map ResultRow.toDocument))]

def shape : Shape := ⟨"ResultSeries", 1⟩

def gather (dialect : Dialect) (fields : Fields) : Gathered (ResultSeries Float) :=
  ResultSeries.mk <$> fields.get 0 "rows" (dialect.readList (ResultRow.ofDocument dialect))

def ofDocument (dialect : Dialect) : Document → Reading (ResultSeries Float) :=
  shape.read dialect (gather dialect)

end ResultSeries

namespace Sla

def toDocument (sla : Sla Float) : Document :=
  .record
    [("latency_sla_limit", ofFloat sla.latencyLimit),
      ("latency_sla_percent", ofFloat sla.requiredPercent)]

def shape : Shape := ⟨"SlaSpec", 2⟩

def gather (dialect : Dialect) (fields : Fields) : Gathered (Sla Float) :=
  Sla.mk <$> fields.get 0 "latency_sla_limit" dialect.readReal
    <*> fields.get 1 "latency_sla_percent" dialect.readReal

def ofDocument (dialect : Dialect) : Document → Reading (Sla Float) :=
  shape.read dialect (gather dialect)

end Sla

namespace SlaResult

def toDocument (result : SlaResult Float) : Document :=
  .record
    [("met", .bool result.met), ("pct_time_within_limit", ofFloat result.percentWithin)]

def shape : Shape := ⟨"SlaResult", 2⟩

def gather (dialect : Dialect) (fields : Fields) : Gathered (SlaResult Float) :=
  SlaResult.mk <$> fields.get 0 "met" dialect.readBool
    <*> fields.get 1 "pct_time_within_limit" dialect.readReal

def ofDocument (dialect : Dialect) : Document → Reading (SlaResult Float) :=
  shape.read dialect (gather dialect)

end SlaResult

namespace Summary

def toDocument (summary : Summary Float) : Document :=
  .record
    [("hours", ofNat summary.hours), ("total_cost", ofFloat summary.totalCost),
      ("total_incoming", ofFloat summary.totalIncoming),
      ("total_throughput", ofFloat summary.totalThroughput),
      ("avg_latency_s", ofFloat summary.meanLatency),
      ("max_latency_s", ofFloat summary.maxLatency),
      ("avg_queue", ofFloat summary.meanBacklog), ("max_queue", ofFloat summary.maxBacklog),
      ("avg_throughput_rph", ofFloat summary.meanThroughput),
      ("max_throughput_rph", ofFloat summary.maxThroughput),
      ("max_numproc", ofNat summary.maxUnits), ("sla_check", summary.sla.toDocument)]

def shape : Shape := ⟨"SimulationSummary", 12⟩

def gather (dialect : Dialect) (fields : Fields) : Gathered (Summary Float) :=
  Summary.mk <$> fields.get 0 "hours" dialect.readSize
    <*> fields.get 1 "total_cost" dialect.readReal
    <*> fields.get 2 "total_incoming" dialect.readReal
    <*> fields.get 3 "total_throughput" dialect.readReal
    <*> fields.get 4 "avg_latency_s" dialect.readReal
    <*> fields.get 5 "max_latency_s" dialect.readReal
    <*> fields.get 6 "avg_queue" dialect.readReal
    <*> fields.get 7 "max_queue" dialect.readReal
    <*> fields.get 8 "avg_throughput_rph" dialect.readReal
    <*> fields.get 9 "max_throughput_rph" dialect.readReal
    <*> fields.get 10 "max_numproc" dialect.readCount
    <*> fields.get 11 "sla_check" (SlaResult.ofDocument dialect)

def ofDocument (dialect : Dialect) : Document → Reading (Summary Float) :=
  shape.read dialect (gather dialect)

end Summary

namespace Outcome

def toDocument (outcome : Outcome Float) : Document :=
  .record
    [("name", .text outcome.name), ("model", outcome.model.toDocument),
      ("results", outcome.results.toDocument), ("summary", outcome.summary.toDocument)]

def shape : Shape := ⟨"SimulationOutcome", 4⟩

def gather (dialect : Dialect) (fields : Fields) : Gathered (Outcome Float) :=
  Outcome.mk <$> fields.get 0 "name" dialect.readText
    <*> fields.get 1 "model" (ModelParams.ofDocument dialect)
    <*> fields.get 2 "results" (ResultSeries.ofDocument dialect)
    <*> fields.get 3 "summary" (Summary.ofDocument dialect)

def ofDocument (dialect : Dialect) : Document → Reading (Outcome Float) :=
  shape.read dialect (gather dialect)

end Outcome

end PipelineCapacity
