import PipelineCapacity.Proofs.Pipeline.Hour
import PipelineCapacity.Proofs.Pipeline.Params
import PipelineCapacity.Proofs.Scaling.Decision

/-!
An hour in seconds against the same hour in one update.

The shares of the seconds never grow within the hour. As long as the count of
units stays what it was at the start, the seconds therefore add up: the fine
pipeline ends the hour with the queue of a single hourly update on the whole
records of the hour, and reports its throughput, last-in latency and cost.
-/

set_option autoImplicit false

namespace PipelineCapacity.FineModel

section

variable {α : Type} [Quantity α]

/-- None of the observations before the last second of the hour changes the
count of units. -/
def Steady (model : FineModel α) (incoming : α) : Prop :=
  ∀ second, second + 1 < secondsPerHour →
    (model.hourAfter incoming (second + 1)).scaler.units =
      (model.hourAfter incoming second).scaler.units

theorem Steady.units_eq {model : FineModel α} {incoming : α} (steady : model.Steady incoming)
    {second : Nat} (within : second < secondsPerHour) :
    (model.hourAfter incoming second).scaler.units = model.scaler.units := by
  induction second with
  | zero => rfl
  | succ second ih => exact (steady second within).trans (ih (Nat.lt_of_succ_lt within))

theorem Hour.pass_waiting {params : AutoscalingParams α} {rate : α} (hour : Hour α)
    (records : List α) (up : hour.scaler.since + records.length < hour.scaler.rule.upDelay)
    (down : hour.scaler.since + records.length < hour.scaler.rule.downDelay) :
    (hour.pass params rate records).scaler.units = hour.scaler.units := by
  induction records generalizing hour with
  | nil => rfl
  | cons record rest ih =>
      rw [List.length_cons] at up down
      have waiting : (hour.second params rate record).scaler = hour.scaler.record _ :=
        congrArg Prod.snd (Scaler.observe_waiting (by omega) (by omega))
      refine (ih (hour.second params rate record) ?_ ?_).trans ?_
      · rw [waiting]
        change hour.scaler.since + 1 + rest.length < hour.scaler.rule.upDelay
        omega
      · rw [waiting]
        change hour.scaler.since + 1 + rest.length < hour.scaler.rule.downDelay
        omega
      · rw [waiting]
        rfl

theorem steady_of_delays {model : FineModel α} (incoming : α)
    (up : model.scaler.since + secondsPerHour ≤ model.scaler.rule.upDelay)
    (down : model.scaler.since + secondsPerHour ≤ model.scaler.rule.downDelay) :
    model.Steady incoming := by
  have units_eq (second : Nat) (within : second < secondsPerHour) :
      (model.hourAfter incoming second).scaler.units = model.scaler.units := by
    have shorter : ((spreadOverSeconds incoming).take second).length ≤ second :=
      List.length_take_le second _
    apply Hour.pass_waiting
    · change model.scaler.since + _ < model.scaler.rule.upDelay
      omega
    · change model.scaler.since + _ < model.scaler.rule.downDelay
      omega
  intro second within
  exact (units_eq _ within).trans (units_eq _ (Nat.lt_of_succ_lt within)).symm

end

theorem secondLoad_over (params : AutoscalingParams ℚ) (units : Nat) (records : ℚ) :
    (secondLoad params (secondRate params) units 0).over secondsPerHour records =
      { incoming := records
        capacity := params.base.maxRate * units
        baseLatency := params.base.baseLatency
        duration := 3600 } := by
  have capacity : (secondsPerHour : ℚ) * (params.base.maxRate / secondsPerHour * units) =
      params.base.maxRate * units := by
    unfold secondsPerHour
    push_cast
    ring
  have duration : (secondsPerHour : ℚ) * Quantity.one = 3600 := by
    rw [Quantity.one_rat, mul_one]
    rfl
  unfold Queue.Load.over
  exact congrArg₂ (fun capacity duration => Queue.Load.mk records capacity _ duration)
    capacity duration

theorem Steady.updates_eq {model : FineModel ℚ} {incoming : ℚ} (steady : model.Steady incoming) :
    (model.updates incoming).map (·.units) =
        List.replicate secondsPerHour model.scaler.units ∧
      (model.updates incoming).map (·.load) = (spreadOverSeconds incoming).map
        (secondLoad model.params (secondRate model.params) model.scaler.units) := by
  rw [← length_spreadOverSeconds incoming]
  apply Hour.updates_of_steady
  intro count within
  rw [length_spreadOverSeconds] at within
  exact steady.units_eq within

theorem Steady.queue_eq {model : FineModel ℚ} {incoming : ℚ} (steady : model.Steady incoming)
    (waiting : 0 ≤ model.queue.backlog) :
    (model.step incoming).2.queue =
      (model.queue.advance
        { incoming := (wholeRecords incoming : ℚ)
          capacity := model.params.base.maxRate * model.scaler.units
          baseLatency := model.params.base.baseLatency
          duration := 3600 }).2 := by
  have served := (model.step_chain incoming).serve_eq
  rw [steady.updates_eq.2] at served
  rw [← served, ← secondLoad_over, ← sum_spreadOverSeconds, ← length_spreadOverSeconds incoming]
  exact Queue.serve_withIncoming (secondLoad model.params (secondRate model.params)
    model.scaler.units 0) (spreadOverSeconds incoming) model.queue waiting
    (spreadOverSeconds_falling incoming) (spreadOverSeconds_ne_nil incoming)

theorem Steady.cost_eq {model : FineModel ℚ} {incoming : ℚ} (steady : model.Steady incoming) :
    (model.step incoming).1.cost =
      model.params.fixedCost + model.params.base.unitCost * model.scaler.units := by
  have everySecond : (model.updates incoming).map (fun update =>
      (model.params.fixedCost + model.params.base.unitCost * update.units) / 3600) =
        List.replicate secondsPerHour
          ((model.params.fixedCost + model.params.base.unitCost * model.scaler.units) / 3600) := by
    have mapped := congrArg (List.map fun units : Nat =>
      (model.params.fixedCost + model.params.base.unitCost * units) / 3600) steady.updates_eq.1
    rw [List.map_map, List.map_replicate] at mapped
    exact mapped
  rw [step_cost, everySecond, List.sum_replicate, nsmul_eq_mul]
  unfold secondsPerHour
  push_cast
  ring

/-- An hour on a steady count of units is one hourly update of the queue. The
first-in latency is that of the last second and is left out. -/
theorem step_eq_single_update (model : FineModel ℚ) (incoming : ℚ)
    (waiting : 0 ≤ model.queue.backlog) (nonneg : 0 ≤ incoming) (bounded : incoming < 2 ^ 64)
    (steady : model.Steady incoming) :
    let base := model.params.base
    let load : Queue.Load ℚ :=
      { incoming := ⌊incoming⌋
        capacity := base.maxRate * model.scaler.units
        baseLatency := base.baseLatency
        duration := 3600 }
    let hourly := model.queue.advance load
    let reported := (model.step incoming).1
    (model.step incoming).2.queue = hourly.2 ∧
      reported.throughput = hourly.1.throughput ∧
      reported.latencyLifo = hourly.1.latencyLifo ∧
      reported.backlog = hourly.1.backlog ∧
      reported.cost = model.params.fixedCost + base.unitCost * model.scaler.units := by
  intro base load hourly reported
  have queue : (model.step incoming).2.queue = hourly.2 := by
    rw [steady.queue_eq waiting, wholeRecords_floor nonneg bounded]
  refine ⟨queue, ?_, ?_, ?_, steady.cost_eq⟩
  · have seconds := (model.step_chain incoming).balance
    rw [← step_throughput, updates_total, wholeRecords_floor nonneg bounded, queue] at seconds
    exact add_right_cancel (seconds.trans (model.queue.advance_balance load).symm)
  · exact (model.step_latencyLifo incoming).trans (congrArg _ (congrArg Queue.oldestAge queue))
  · exact (model.step_backlog incoming).trans (congrArg Queue.backlog queue)

def patient : FineModel ℚ :=
  { params := .patient
    queue := .empty
    scaler := .ofRule AutoscalingParams.patient.rule
    totalCost := 0 }

theorem patient_steady (incoming : ℚ) : patient.Steady incoming :=
  steady_of_delays incoming (by decide) (by decide)

/-- An hour that ends with a backlog, half a record of it truncated. -/
theorem patient_step :
    (0 ≤ patient.queue.backlog ∧ (0 : ℚ) ≤ 20001 / 2 ∧ (20001 / 2 : ℚ) < 2 ^ 64 ∧
      patient.Steady (20001 / 2)) ∧
    (patient.step (20001 / 2)).1.throughput = 3600 ∧
    (patient.step (20001 / 2)).2.queue.backlog = 6400 ∧
    (patient.step (20001 / 2)).1.cost = 5 / 2 := by
  have waiting : 0 ≤ patient.queue.backlog := Quantity.zero_rat.ge
  have nonneg : (0 : ℚ) ≤ 20001 / 2 := by norm_num
  have bounded : (20001 / 2 : ℚ) < 2 ^ 64 := by norm_num
  have steady := patient_steady (20001 / 2)
  obtain ⟨queue, throughput, _, _, cost⟩ :=
    step_eq_single_update patient (20001 / 2) waiting nonneg bounded steady
  have empty : patient.queue.backlog = 0 := Quantity.zero_rat
  have whole : ⌊(20001 / 2 : ℚ)⌋ = 10000 := by norm_num
  refine ⟨⟨waiting, nonneg, bounded, steady⟩, ?_, ?_, ?_⟩
  · rw [throughput, Queue.advance_throughput, empty, whole]
    norm_num [patient, AutoscalingParams.patient, Scaler.ofRule]
  · rw [queue, Queue.advance_backlog, empty, whole]
    norm_num [patient, AutoscalingParams.patient, Scaler.ofRule]
  · rw [cost]
    norm_num [patient, AutoscalingParams.patient, Scaler.ofRule]

end PipelineCapacity.FineModel
