import PipelineCapacity.Pipeline.Model
import PipelineCapacity.Proofs.Pipeline.Demand
import PipelineCapacity.Proofs.Queue.Service

/-!
The updates of the queue behind one step. Each finds the queue as the one
before left it; what a step reports of throughput, backlog and latency is what
its updates add up to.
-/

set_option autoImplicit false

namespace PipelineCapacity

open Quantity (zero one ofNat)

variable {α : Type} [Quantity α]

structure Update (α : Type) where
  units : Nat
  found : Queue α
  load : Queue.Load α

namespace Update

def service (update : Update α) : Queue.Service α := (update.found.advance update.load).1

def left (update : Update α) : Queue α := (update.found.advance update.load).2

/-- Updates that lead from one queue to another. -/
inductive Chain : Queue α → List (Update α) → Queue α → Prop
  | nil (queue : Queue α) : Chain queue [] queue
  | cons {update : Update α} {rest : List (Update α)} {last : Queue α}
      (tail : Chain update.left rest last) : Chain update.found (update :: rest) last

def throughput (updates : List (Update ℚ)) : ℚ :=
  (updates.map (·.service.throughput)).sum

def incoming (updates : List (Update ℚ)) : ℚ := (updates.map (·.load.incoming)).sum

theorem throughput_append (first second : List (Update ℚ)) :
    throughput (first ++ second) = throughput first + throughput second := by
  unfold throughput
  rw [List.map_append, List.sum_append]

theorem incoming_append (first second : List (Update ℚ)) :
    incoming (first ++ second) = incoming first + incoming second := by
  unfold incoming
  rw [List.map_append, List.sum_append]

theorem Chain.append {first middle last : Queue α} {before after : List (Update α)}
    (head : Chain first before middle) (tail : Chain middle after last) :
    Chain first (before ++ after) last := by
  induction head with
  | nil queue => exact tail
  | cons _ ih => exact .cons (ih tail)

theorem Chain.serve_eq {first last : Queue α} {updates : List (Update α)}
    (chain : Chain first updates last) : first.serve (updates.map (·.load)) = last := by
  induction chain with
  | nil queue => rfl
  | cons _ ih => exact ih

theorem Chain.balance {first last : Queue ℚ} {updates : List (Update ℚ)}
    (chain : Chain first updates last) :
    throughput updates + last.backlog = first.backlog + incoming updates := by
  induction chain with
  | nil queue => simp [throughput, incoming]
  | @cons update rest last _ ih =>
      have once : update.service.throughput + update.left.backlog =
          update.found.backlog + update.load.incoming :=
        Queue.advance_balance update.found update.load
      simp only [throughput, incoming, List.map_cons, List.sum_cons] at ih ⊢
      linarith

theorem Chain.backlog_nonneg {first last : Queue ℚ} {updates : List (Update ℚ)}
    (chain : Chain first updates last) (waiting : 0 ≤ first.backlog) : 0 ≤ last.backlog := by
  induction chain with
  | nil queue => exact waiting
  | @cons update rest last _ ih => exact ih (Queue.advance_backlog_nonneg _ _)

end Update

namespace FineModel

def secondLoad (params : AutoscalingParams α) (rate : α) (units : Nat) (records : α) :
    Queue.Load α :=
  { incoming := records
    capacity := rate * ofNat units
    baseLatency := params.base.baseLatency
    duration := one }

namespace Hour

def pass (params : AutoscalingParams α) (rate : α) (hour : Hour α) (records : List α) :
    Hour α :=
  records.foldl (Hour.second params rate) hour

def updates (params : AutoscalingParams α) (rate : α) (hour : Hour α) :
    List α → List (Update α)
  | [] => []
  | records :: rest =>
      ⟨hour.scaler.units, hour.queue, secondLoad params rate hour.scaler.units records⟩ ::
        (hour.second params rate records).updates params rate rest

variable {params : AutoscalingParams α} {rate : α}

theorem updates_chain (hour : Hour α) (records : List α) :
    Update.Chain hour.queue (hour.updates params rate records)
      (hour.pass params rate records).queue := by
  induction records generalizing hour with
  | nil => exact .nil hour.queue
  | cons record rest ih =>
      exact @Update.Chain.cons α _ ⟨_, hour.queue, _⟩ _ _ (ih (hour.second params rate record))

theorem updates_incoming (hour : Hour α) (records : List α) :
    (hour.updates params rate records).map (·.load.incoming) = records := by
  induction records generalizing hour with
  | nil => rfl
  | cons record rest ih => exact congrArg (List.cons record) (ih _)

theorem exists_last_second (hour : Hour α) {records : List α} (present : records ≠ []) :
    ∃ (before : Hour α) (record : α),
      hour.pass params rate records = before.second params rate record := by
  refine ⟨hour.pass params rate records.dropLast, records.getLast present, ?_⟩
  unfold pass
  conv_lhs => rw [← List.dropLast_append_getLast present]
  rw [List.foldl_append]
  rfl

theorem updates_of_steady {units : Nat} (hour : Hour α) (records : List α)
    (steady : ∀ count, count < records.length →
      (hour.pass params rate (records.take count)).scaler.units = units) :
    (hour.updates params rate records).map (·.units) = List.replicate records.length units ∧
      (hour.updates params rate records).map (·.load) =
        records.map (secondLoad params rate units) := by
  induction records generalizing hour with
  | nil => exact ⟨rfl, rfl⟩
  | cons record rest ih =>
      have now : hour.scaler.units = units := steady 0 (Nat.succ_pos _)
      have later : ∀ count, count < rest.length →
          ((hour.second params rate record).pass params rate (rest.take count)).scaler.units =
            units :=
        fun count within => steady (count + 1) (Nat.succ_lt_succ within)
      obtain ⟨unitsRest, loadsRest⟩ := ih (hour.second params rate record) later
      constructor
      · rw [updates, List.map_cons, unitsRest, now]
        rfl
      · rw [updates, List.map_cons, loadsRest, now]
        rfl

theorem pass_throughput {params : AutoscalingParams ℚ} {rate : ℚ} (hour : Hour ℚ)
    (records : List ℚ) :
    (hour.pass params rate records).throughput =
      hour.throughput + Update.throughput (hour.updates params rate records) := by
  induction records generalizing hour with
  | nil => exact (add_zero hour.throughput).symm
  | cons record rest ih =>
      refine (ih (hour.second params rate record)).trans ?_
      exact add_assoc hour.throughput _ _

theorem pass_cost {params : AutoscalingParams ℚ} {rate : ℚ} (hour : Hour ℚ)
    (records : List ℚ) :
    (hour.pass params rate records).cost =
      hour.cost + ((hour.updates params rate records).map fun update =>
        (params.fixedCost + params.base.unitCost * update.units) / 3600).sum := by
  induction records generalizing hour with
  | nil => exact (add_zero hour.cost).symm
  | cons record rest ih =>
      refine (ih (hour.second params rate record)).trans ?_
      exact add_assoc hour.cost _ _

end Hour

def updates (model : FineModel α) (incoming : α) : List (Update α) :=
  (Hour.start model).updates model.params (secondRate model.params) (spreadOverSeconds incoming)

def hourAfter (model : FineModel α) (incoming : α) (seconds : Nat) : Hour α :=
  (Hour.start model).pass model.params (secondRate model.params)
    ((spreadOverSeconds incoming).take seconds)

theorem hourAfter_end (model : FineModel α) (incoming : α) :
    model.hourAfter incoming secondsPerHour =
      (Hour.start model).pass model.params (secondRate model.params)
        (spreadOverSeconds incoming) := by
  unfold hourAfter
  rw [List.take_of_length_le (length_spreadOverSeconds incoming).le]

/-- The report and the pipeline at the end of an hour. Both are stated of any
hour, so that nothing has to count through the seconds of a given one. -/
def close (model : FineModel α) (hour : Hour α) : StepMetrics α × FineModel α :=
  (hour.metrics model.params,
    { model with
      queue := hour.queue
      scaler := hour.scaler
      totalCost := model.totalCost + hour.cost })

theorem close_params (model : FineModel α) (hour : Hour α) :
    (model.close hour).2.params = model.params := rfl

theorem close_queue (model : FineModel α) (hour : Hour α) :
    (model.close hour).2.queue = hour.queue := rfl

theorem close_scaler (model : FineModel α) (hour : Hour α) :
    (model.close hour).2.scaler = hour.scaler := rfl

theorem close_backlog (model : FineModel α) (hour : Hour α) :
    (model.close hour).1.backlog = (model.close hour).2.queue.backlog := rfl

theorem close_throughput (model : FineModel α) (hour : Hour α) :
    (model.close hour).1.throughput = hour.throughput := rfl

theorem close_cost (model : FineModel α) (hour : Hour α) :
    (model.close hour).1.cost = hour.cost := rfl

theorem close_totalCost (model : FineModel α) (hour : Hour α) :
    (model.close hour).2.totalCost = model.totalCost + (model.close hour).1.cost := rfl

theorem close_units (model : FineModel α) (hour : Hour α) :
    (model.close hour).1.units = (model.close hour).2.scaler.units := rfl

theorem close_latencyLifo (model : FineModel α) (before : Hour α) (rate record : α) :
    (model.close (before.second model.params rate record)).1.latencyLifo =
      model.params.base.baseLatency +
        (model.close (before.second model.params rate record)).2.queue.oldestAge := rfl

theorem step_eq (model : FineModel α) (incoming : α) :
    model.step incoming = model.close (model.hourAfter incoming secondsPerHour) := by
  rw [hourAfter_end]
  rfl

theorem step_params (model : FineModel α) (incoming : α) :
    (model.step incoming).2.params = model.params := by
  rw [step_eq, close_params]

theorem step_queue (model : FineModel α) (incoming : α) :
    (model.step incoming).2.queue = (model.hourAfter incoming secondsPerHour).queue := by
  rw [step_eq, close_queue]

theorem step_scaler (model : FineModel α) (incoming : α) :
    (model.step incoming).2.scaler = (model.hourAfter incoming secondsPerHour).scaler := by
  rw [step_eq, close_scaler]

theorem step_backlog (model : FineModel α) (incoming : α) :
    (model.step incoming).1.backlog = (model.step incoming).2.queue.backlog := by
  rw [step_eq, close_backlog]

theorem step_totalCost (model : FineModel α) (incoming : α) :
    (model.step incoming).2.totalCost = model.totalCost + (model.step incoming).1.cost := by
  rw [step_eq, close_totalCost]

theorem step_units (model : FineModel α) (incoming : α) :
    (model.step incoming).1.units = (model.step incoming).2.scaler.units := by
  rw [step_eq, close_units]

theorem step_chain (model : FineModel α) (incoming : α) :
    Update.Chain model.queue (model.updates incoming) (model.step incoming).2.queue := by
  rw [step_queue, hourAfter_end]
  exact Hour.updates_chain (Hour.start model) (spreadOverSeconds incoming)

theorem updates_total (model : FineModel ℚ) (incoming : ℚ) :
    Update.incoming (model.updates incoming) = wholeRecords incoming := by
  unfold Update.incoming updates
  rw [Hour.updates_incoming, sum_spreadOverSeconds]

theorem step_throughput (model : FineModel ℚ) (incoming : ℚ) :
    (model.step incoming).1.throughput = Update.throughput (model.updates incoming) := by
  have begun : (Hour.start model).throughput = 0 := Quantity.zero_rat
  rw [step_eq, close_throughput, hourAfter_end, Hour.pass_throughput, begun, zero_add]
  unfold updates
  rfl

theorem step_latencyLifo (model : FineModel ℚ) (incoming : ℚ) :
    (model.step incoming).1.latencyLifo =
      model.params.base.baseLatency + (model.step incoming).2.queue.oldestAge := by
  obtain ⟨before, record, last⟩ := @Hour.exists_last_second ℚ _ model.params
    (secondRate model.params) (Hour.start model) _ (spreadOverSeconds_ne_nil incoming)
  rw [step_eq, hourAfter_end, last, close_latencyLifo]

theorem step_cost (model : FineModel ℚ) (incoming : ℚ) :
    (model.step incoming).1.cost = ((model.updates incoming).map fun update =>
      (model.params.fixedCost + model.params.base.unitCost * update.units) / 3600).sum := by
  have begun : (Hour.start model).cost = 0 := Quantity.zero_rat
  rw [step_eq, close_cost, hourAfter_end, Hour.pass_cost, begun, zero_add]
  unfold updates
  rfl

end FineModel

end PipelineCapacity
