import PipelineCapacity.Proofs.Stored.Forecast
import PipelineCapacity.Stored.Result

/-!
Results, summaries and service-level agreements read back from their documents.
Nothing about them is checked, so they come back whatever they say, as long as
their amounts have numerals and their counts fit the places they are given.
-/

set_option autoImplicit false

namespace PipelineCapacity

open Document

variable {dialect : Dialect} {depth : Nat}

section Amounts

variable {α : Type}

/-- The cost of a record is among them where there is one. -/
def ResultRow.amounts (row : ResultRow α) : List α :=
  [row.incoming, row.throughput, row.backlog, row.latencyFifo, row.latencyLifo, row.cost] ++
    row.costPerRecord.toList

def Sla.amounts (sla : Sla α) : List α := [sla.latencyLimit, sla.requiredPercent]

def Summary.amounts (summary : Summary α) : List α :=
  [summary.totalCost, summary.totalIncoming, summary.totalThroughput, summary.meanLatency,
    summary.maxLatency, summary.meanBacklog, summary.maxBacklog, summary.meanThroughput,
    summary.maxThroughput, summary.sla.percentWithin]

end Amounts

namespace ResultRow

variable {row : ResultRow Float}

structure Storable (row : ResultRow Float) : Prop where
  slot : row.slot.Storable
  units : row.units ≤ maxUnits
  finite : ∀ amount ∈ row.amounts, amount.isFinite = true

theorem ofDocument_toDocument (storable : row.Storable) :
    ofDocument dialect row.toDocument = .ok row := by
  have finite := storable.finite
  simp only [amounts, List.forall_mem_append, List.forall_mem_cons, Option.mem_toList] at finite
  obtain ⟨⟨incoming, throughput, backlog, fifo, lifo, cost, _⟩, perRecord⟩ := finite
  refine Shape.read_own (by simp) fun holds => ?_
  unfold gather Fields.get
  rw [holds.get_done "index" (by simp) (Slot.ofDocument_toDocument storable.slot),
    holds.get_done "incoming" (by simp) (dialect.readReal_of_finite incoming),
    holds.get_done "throughput" (by simp) (dialect.readReal_of_finite throughput),
    holds.get_done "queue_len" (by simp) (dialect.readReal_of_finite backlog),
    holds.get_done "latency_fifo" (by simp) (dialect.readReal_of_finite fifo),
    holds.get_done "latency_lifo" (by simp) (dialect.readReal_of_finite lifo),
    holds.get_done "cost_per_record" (by simp) (dialect.readReal?_of_finite perRecord),
    holds.get_done "cost" (by simp) (dialect.readReal_of_finite cost),
    holds.get_done "numproc" (by simp) (dialect.readCount_of_le storable.units)]
  rfl

theorem legible_toDocument (storable : row.Storable) :
    Json.Legible (depth + 2) row.toDocument := by
  refine .record ?_
  simp only [List.forall_mem_cons]
  exact ⟨Slot.legible_toDocument storable.slot, .real _, .real _, .real _, .real _, .real _,
    .real? _, .real _, .count storable.units, List.forall_mem_nil _⟩

end ResultRow

namespace ResultSeries

variable {series : ResultSeries Float}

def Storable (series : ResultSeries Float) : Prop := ∀ row ∈ series.rows, row.Storable

theorem ofDocument_toDocument (storable : series.Storable) :
    ofDocument dialect series.toDocument = .ok series := by
  refine Shape.read_own (by simp) fun holds => ?_
  unfold gather Fields.get
  rw [holds.get_done "rows" (by simp) (dialect.readList_map fun row member =>
    ResultRow.ofDocument_toDocument (storable row member))]
  rfl

theorem legible_toDocument (storable : series.Storable) :
    Json.Legible (depth + 4) series.toDocument := by
  refine .record (List.forall_mem_singleton.mpr (.list (List.forall_mem_map.mpr ?_)))
  intro row member
  exact ResultRow.legible_toDocument (storable row member)

end ResultSeries

namespace Sla

variable {sla : Sla Float}

theorem ofDocument_toDocument (finite : ∀ amount ∈ sla.amounts, amount.isFinite = true) :
    ofDocument dialect sla.toDocument = .ok sla := by
  simp only [amounts, List.forall_mem_cons] at finite
  refine Shape.read_own (by simp) fun holds => ?_
  unfold gather Fields.get
  rw [holds.get_done "latency_sla_limit" (by simp) (dialect.readReal_of_finite finite.1),
    holds.get_done "latency_sla_percent" (by simp) (dialect.readReal_of_finite finite.2.1)]
  rfl

theorem legible_toDocument (sla : Sla Float) : Json.Legible (depth + 1) sla.toDocument := by
  refine .record ?_
  simp only [List.forall_mem_cons]
  exact ⟨.real _, .real _, List.forall_mem_nil _⟩

end Sla

theorem SlaResult.ofDocument_toDocument {result : SlaResult Float}
    (finite : result.percentWithin.isFinite = true) :
    ofDocument dialect result.toDocument = .ok result := by
  refine Shape.read_own (by simp) fun holds => ?_
  unfold gather Fields.get
  rw [holds.get_done "met" (by simp) (dialect.readBool_bool result.met),
    holds.get_done "pct_time_within_limit" (by simp) (dialect.readReal_of_finite finite)]
  rfl

namespace Summary

variable {summary : Summary Float}

structure Storable (summary : Summary Float) : Prop where
  hours : summary.hours ≤ maxWhole
  units : summary.maxUnits ≤ PipelineCapacity.maxUnits
  finite : ∀ amount ∈ summary.amounts, amount.isFinite = true

theorem ofDocument_toDocument (storable : summary.Storable) :
    ofDocument dialect summary.toDocument = .ok summary := by
  have finite := storable.finite
  simp only [amounts, List.forall_mem_cons] at finite
  obtain ⟨cost, incoming, throughput, meanLatency, maxLatency, meanBacklog, maxBacklog,
    meanThroughput, maxThroughput, percent, _⟩ := finite
  refine Shape.read_own (by simp) fun holds => ?_
  unfold gather Fields.get
  rw [holds.get_done "hours" (by simp) (dialect.readSize_of_le storable.hours),
    holds.get_done "total_cost" (by simp) (dialect.readReal_of_finite cost),
    holds.get_done "total_incoming" (by simp) (dialect.readReal_of_finite incoming),
    holds.get_done "total_throughput" (by simp) (dialect.readReal_of_finite throughput),
    holds.get_done "avg_latency_s" (by simp) (dialect.readReal_of_finite meanLatency),
    holds.get_done "max_latency_s" (by simp) (dialect.readReal_of_finite maxLatency),
    holds.get_done "avg_queue" (by simp) (dialect.readReal_of_finite meanBacklog),
    holds.get_done "max_queue" (by simp) (dialect.readReal_of_finite maxBacklog),
    holds.get_done "avg_throughput_rph" (by simp) (dialect.readReal_of_finite meanThroughput),
    holds.get_done "max_throughput_rph" (by simp) (dialect.readReal_of_finite maxThroughput),
    holds.get_done "max_numproc" (by simp) (dialect.readCount_of_le storable.units),
    holds.get_done "sla_check" (by simp) (SlaResult.ofDocument_toDocument percent)]
  rfl

theorem legible_toDocument (storable : summary.Storable) :
    Json.Legible (depth + 2) summary.toDocument := by
  have sla : Json.Legible (depth + 1) summary.sla.toDocument := by
    refine .record ?_
    simp only [List.forall_mem_cons]
    exact ⟨.bool _, .real _, List.forall_mem_nil _⟩
  refine .record ?_
  simp only [List.forall_mem_cons]
  exact ⟨.ofNat storable.hours, .real _, .real _, .real _, .real _, .real _, .real _, .real _,
    .real _, .real _, .count storable.units, sla, List.forall_mem_nil _⟩

end Summary

end PipelineCapacity
