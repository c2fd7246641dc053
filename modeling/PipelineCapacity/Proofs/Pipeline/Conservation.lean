import PipelineCapacity.Proofs.Pipeline.Params
import PipelineCapacity.Proofs.Pipeline.Steps

/-!
Records over whole runs, in exact arithmetic.

Every kind of pipeline hands its queue a positive capacity for at least one
unit, whether it updates once an hour or once a second and whatever the scaler
did with a backlog outstanding. Throughput and backlog therefore account for
every record that was let in: all of them, but for the fractions the fine
pipeline leaves out.
-/

set_option autoImplicit false

namespace PipelineCapacity

open Quantity (ofNat)

/-- An update that serves what it can: it makes up no record, and it leaves
none waiting while capacity is idle. -/
structure Update.Sound (update : Update ℚ) : Prop where
  units_pos : 1 ≤ update.units
  capacity_pos : 0 < update.load.capacity
  throughput_nonneg : 0 ≤ update.service.throughput
  throughput_le : update.service.throughput ≤ update.load.capacity
  backlog_nonneg : 0 ≤ update.left.backlog
  drained : update.service.throughput < update.load.capacity → update.left.backlog = 0

theorem Update.sound {update : Update ℚ} (units_pos : 1 ≤ update.units)
    (capacity_pos : 0 < update.load.capacity) (waiting : 0 ≤ update.found.backlog)
    (incoming : 0 ≤ update.load.incoming) : update.Sound :=
  { units_pos
    capacity_pos
    throughput_nonneg := Queue.advance_throughput_nonneg waiting incoming capacity_pos.le
    throughput_le := Queue.advance_throughput_le update.found update.load
    backlog_nonneg := Queue.advance_backlog_nonneg update.found update.load
    drained := Queue.advance_drained }

theorem rate_mul_units_pos {rate : ℚ} {units : Nat} (rate_pos : 0 < rate) (several : 1 ≤ units) :
    0 < rate * (ofNat units : ℚ) :=
  mul_pos rate_pos (Nat.cast_pos.mpr several)

namespace FineModel.Hour

variable {params : AutoscalingParams ℚ} {rate : ℚ}

theorem pass_units_pos {hour : Hour ℚ} (several : 1 ≤ hour.scaler.units) (records : List ℚ) :
    1 ≤ (hour.pass params rate records).scaler.units := by
  induction records generalizing hour with
  | nil => exact several
  | cons record rest ih =>
      exact @ih (hour.second params rate record) (Scaler.observe_units_pos several)

theorem updates_sound (rate_pos : 0 < rate) {hour : Hour ℚ} (several : 1 ≤ hour.scaler.units)
    (waiting : 0 ≤ hour.queue.backlog) {records : List ℚ}
    (nonneg : ∀ amount ∈ records, 0 ≤ amount) :
    ∀ update ∈ hour.updates params rate records, update.Sound := by
  -- A second hands on a queue that is not overdrawn and at least one unit.
  induction records generalizing hour with
  | nil =>
      intro update absent
      cases absent
  | cons record rest ih =>
      intro update member
      rcases List.mem_cons.mp member with now | later
      · subst now
        exact Update.sound several (rate_mul_units_pos rate_pos several) waiting
          (nonneg record List.mem_cons_self)
      · exact @ih (hour.second params rate record) (Scaler.observe_units_pos several)
          (Queue.advance_backlog_nonneg _ _)
          (fun amount present => nonneg amount (List.mem_cons_of_mem _ present)) update later

end FineModel.Hour

namespace Pipeline

variable {α : Type} [Quantity α]

def updates (pipeline : Pipeline α) (volume : α) : List (Update α) :=
  match pipeline with
  | fixed model => [⟨1, model.queue, model.params.hourLoad volume model.params.maxRate⟩]
  | quickScaling model =>
      let base := model.params.base
      let units := unitsFor volume base.maxRate
      [⟨units, model.queue, base.hourLoad volume (base.maxRate * ofNat units)⟩]
  | autoscaling model =>
      let base := model.params.base
      let units := model.scaler.units
      [⟨units, model.queue, base.hourLoad volume (base.maxRate * ofNat units)⟩]
  | autoscalingFine model => model.updates volume

def updatesOver (pipeline : Pipeline α) : List α → List (Update α)
  | [] => []
  | volume :: rest =>
      pipeline.updates volume ++ (pipeline.step volume).2.updatesOver rest

theorem step_chain (pipeline : Pipeline α) (volume : α) :
    Update.Chain pipeline.queue (pipeline.updates volume) (pipeline.step volume).2.queue := by
  cases pipeline with
  | fixed model =>
      exact @Update.Chain.cons α _ ⟨1, model.queue, _⟩ _ _ (.nil _)
  | quickScaling model =>
      exact @Update.Chain.cons α _ ⟨_, model.queue, _⟩ _ _ (.nil _)
  | autoscaling model =>
      exact @Update.Chain.cons α _ ⟨_, model.queue, _⟩ _ _ (.nil _)
  | autoscalingFine model =>
      rw [(step_autoscalingFine model volume).2, queue_autoscalingFine, queue_autoscalingFine]
      exact model.step_chain volume

theorem after_chain (pipeline : Pipeline α) (volumes : List α) :
    Update.Chain pipeline.queue (pipeline.updatesOver volumes)
      (pipeline.after volumes).queue := by
  induction volumes generalizing pipeline with
  | nil => exact .nil _
  | cons volume rest ih => exact (pipeline.step_chain volume).append (ih _)

end Pipeline

/-- The records of an hour a pipeline lets in. The fine one counts whole
records, as many as a count can hold. -/
def ModelParams.admitted : ModelParams ℚ → ℚ → ℚ
  | .autoscalingFine _, volume => (Min.min ⌊volume⌋ (2 ^ 64 - 1) : ℤ)
  | _, volume => volume

namespace Pipeline

theorem step_throughput (pipeline : Pipeline ℚ) (volume : ℚ) :
    (pipeline.step volume).1.throughput = Update.throughput (pipeline.updates volume) := by
  cases pipeline with
  | fixed model => exact (List.sum_singleton).symm
  | quickScaling model => exact (List.sum_singleton).symm
  | autoscaling model => exact (List.sum_singleton).symm
  | autoscalingFine model =>
      rw [(step_autoscalingFine model volume).1]
      exact model.step_throughput volume

theorem updates_incoming (pipeline : Pipeline ℚ) {volume : ℚ} (nonneg : 0 ≤ volume) :
    Update.incoming (pipeline.updates volume) = pipeline.params.admitted volume := by
  cases pipeline with
  | fixed model => exact List.sum_singleton
  | quickScaling model => exact List.sum_singleton
  | autoscaling model => exact List.sum_singleton
  | autoscalingFine model =>
      refine (model.updates_total volume).trans ?_
      have whole : ((Min.min ⌊volume⌋.toNat maxWhole : Nat) : ℤ) =
          Min.min ⌊volume⌋ (2 ^ 64 - 1) := by
        have floorNonneg : 0 ≤ ⌊volume⌋ := Int.floor_nonneg.mpr nonneg
        unfold maxWhole
        omega
      change _ = ((Min.min ⌊volume⌋ (2 ^ 64 - 1) : ℤ) : ℚ)
      rw [wholeRecords_rat, ← whole, Int.cast_natCast]

theorem reports_throughput (pipeline : Pipeline ℚ) (volumes : List ℚ) :
    ((pipeline.reports volumes).map (·.throughput)).sum =
      Update.throughput (pipeline.updatesOver volumes) := by
  induction volumes generalizing pipeline with
  | nil => rfl
  | cons volume rest ih =>
      rw [reports, updatesOver, Update.throughput_append, List.map_cons, List.sum_cons,
        step_throughput, ih]

theorem updatesOver_incoming (pipeline : Pipeline ℚ) {volumes : List ℚ}
    (nonneg : ∀ volume ∈ volumes, 0 ≤ volume) :
    Update.incoming (pipeline.updatesOver volumes) =
      (volumes.map pipeline.params.admitted).sum := by
  induction volumes generalizing pipeline with
  | nil => rfl
  | cons volume rest ih =>
      have later := ih (pipeline.step volume).2
        (fun amount present => nonneg amount (List.mem_cons_of_mem _ present))
      rw [updatesOver, Update.incoming_append, later, step_params,
        updates_incoming pipeline (nonneg volume List.mem_cons_self), List.map_cons, List.sum_cons]

theorem reports_balance (pipeline : Pipeline ℚ) {volumes : List ℚ}
    (nonneg : ∀ volume ∈ volumes, 0 ≤ volume) :
    ((pipeline.reports volumes).map (·.throughput)).sum + (pipeline.after volumes).queue.backlog =
      pipeline.queue.backlog + (volumes.map pipeline.params.admitted).sum := by
  rw [reports_throughput, ← updatesOver_incoming pipeline nonneg]
  exact (pipeline.after_chain volumes).balance

structure Ready (pipeline : Pipeline ℚ) : Prop where
  rate_pos : 0 < pipeline.params.base.maxRate
  waiting : 0 ≤ pipeline.queue.backlog
  units_pos : 1 ≤ pipeline.units

theorem fresh_backlog (params : ModelParams ℚ) : params.fresh.queue.backlog = 0 := by
  cases params <;> exact Quantity.zero_rat

theorem ready_fresh {params : ModelParams ℚ} (valid : params.validate = .ok ()) :
    params.fresh.Ready := by
  have rate_pos : 0 < params.fresh.params.base.maxRate := by
    rw [fresh_params]
    exact ModelParams.maxRate_pos valid
  have single : params.fresh.units = 1 := by
    cases params <;> rfl
  exact ⟨rate_pos, (fresh_backlog params).ge, single.ge⟩

theorem step_units_pos {pipeline : Pipeline ℚ} (several : 1 ≤ pipeline.units) (volume : ℚ) :
    1 ≤ (pipeline.step volume).2.units := by
  cases pipeline with
  | fixed model => exact Nat.le_refl 1
  | quickScaling model => exact one_le_unitsFor _ _
  | autoscaling model => exact Scaler.observe_units_pos several
  | autoscalingFine model =>
      have begun : 1 ≤ (FineModel.Hour.start model).scaler.units := several
      have ended : 1 ≤ (model.step volume).2.scaler.units := by
        rw [FineModel.step_scaler, FineModel.hourAfter_end]
        exact FineModel.Hour.pass_units_pos begun (spreadOverSeconds volume)
      rw [(step_autoscalingFine model volume).2, units_autoscalingFine]
      exact ended

theorem Ready.step {pipeline : Pipeline ℚ} (ready : pipeline.Ready) (volume : ℚ) :
    (pipeline.step volume).2.Ready := by
  refine ⟨?_, (pipeline.step_chain volume).backlog_nonneg ready.waiting,
    step_units_pos ready.units_pos volume⟩
  rw [step_params]
  exact ready.rate_pos

theorem Ready.updates_sound {pipeline : Pipeline ℚ} (ready : pipeline.Ready) {volume : ℚ}
    (nonneg : 0 ≤ volume) : ∀ update ∈ pipeline.updates volume, update.Sound := by
  obtain ⟨rate_pos, waiting, units_pos⟩ := ready
  cases pipeline with
  | fixed model =>
      intro update member
      cases List.mem_singleton.mp member
      exact Update.sound (Nat.le_refl 1) rate_pos waiting nonneg
  | quickScaling model =>
      intro update member
      cases List.mem_singleton.mp member
      have several := one_le_unitsFor volume model.params.base.maxRate
      exact Update.sound several (rate_mul_units_pos rate_pos several) waiting nonneg
  | autoscaling model =>
      intro update member
      cases List.mem_singleton.mp member
      exact Update.sound units_pos (rate_mul_units_pos rate_pos units_pos) waiting nonneg
  | autoscalingFine model =>
      have perSecond : 0 < FineModel.secondRate model.params :=
        div_pos rate_pos (by norm_num [Quantity.ofNat_rat, secondsPerHour])
      have begun : 1 ≤ (FineModel.Hour.start model).scaler.units := units_pos
      have found : 0 ≤ (FineModel.Hour.start model).queue.backlog := waiting
      exact FineModel.Hour.updates_sound perSecond begun found
        (fun amount present => spreadOverSeconds_nonneg present)

theorem Ready.updatesOver_sound {pipeline : Pipeline ℚ} (ready : pipeline.Ready)
    {volumes : List ℚ} (nonneg : ∀ volume ∈ volumes, 0 ≤ volume) :
    ∀ update ∈ pipeline.updatesOver volumes, update.Sound := by
  induction volumes generalizing pipeline with
  | nil =>
      intro update absent
      cases absent
  | cons volume rest ih =>
      intro update member
      rcases List.mem_append.mp member with now | later
      · exact ready.updates_sound (nonneg volume List.mem_cons_self) update now
      · exact ih (ready.step volume)
          (fun amount present => nonneg amount (List.mem_cons_of_mem _ present)) update later

theorem Ready.after {pipeline : Pipeline ℚ} (ready : pipeline.Ready) (volumes : List ℚ) :
    (pipeline.after volumes).Ready := by
  induction volumes generalizing pipeline with
  | nil => exact ready
  | cons volume rest ih => exact ih (ready.step volume)

end Pipeline

/-- Validated parameters make a pipeline, which every reset restores. In each of
its runs every update is sound, and at every hour throughput and backlog account
for the records let in so far. -/
theorem ModelParams.records_conserved {params : ModelParams ℚ}
    (valid : params.validate = .ok ()) :
    ∃ start, Pipeline.ofParams params = .ok start ∧
      (∀ used, Pipeline.Reached params used → used.reset = start) ∧
      ∀ volumes : List ℚ, (∀ volume ∈ volumes, 0 ≤ volume) →
        Update.Chain start.queue (start.updatesOver volumes) (start.after volumes).queue ∧
        (∀ update ∈ start.updatesOver volumes, update.Sound) ∧
        ∀ done, done <+: volumes →
          1 ≤ (start.after done).units ∧
          ((start.reports done).map (·.throughput)).sum =
            Update.throughput (start.updatesOver done) ∧
          ((start.reports done).map (·.throughput)).sum + (start.after done).queue.backlog =
            (done.map params.admitted).sum := by
  have ready := Pipeline.ready_fresh valid
  refine ⟨params.fresh, Pipeline.ofParams_of_valid valid, fun used reached => reached.reset_eq,
    ?_⟩
  intro volumes nonneg
  refine ⟨params.fresh.after_chain volumes, ready.updatesOver_sound nonneg, ?_⟩
  intro done early
  have balance := params.fresh.reports_balance
    (fun volume present => nonneg volume (early.subset present))
  rw [Pipeline.fresh_params, Pipeline.fresh_backlog, zero_add] at balance
  exact ⟨(ready.after done).units_pos, params.fresh.reports_throughput done, balance⟩

/-- Half a record of the first hour is not let in, the backlog is. -/
theorem ModelParams.records_conserved_patient :
    (ModelParams.autoscalingFine .patient).validate = .ok () ∧
      (∀ volume ∈ [(20001 / 2 : ℚ), 0], 0 ≤ volume) ∧
      ∃ start, Pipeline.ofParams (.autoscalingFine .patient) = .ok start ∧
        ((start.reports [20001 / 2, 0]).map (·.throughput)).sum +
          (start.after [20001 / 2, 0]).queue.backlog = 10000 := by
  have valid : (ModelParams.autoscalingFine .patient).validate = .ok () :=
    AutoscalingParams.patient_valid
  have nonneg : ∀ volume ∈ [(20001 / 2 : ℚ), 0], 0 ≤ volume := by
    norm_num
  obtain ⟨start, created, _, runs⟩ := records_conserved valid
  obtain ⟨_, _, hours⟩ := runs [20001 / 2, 0] nonneg
  obtain ⟨_, _, balance⟩ := hours [20001 / 2, 0] List.prefix_rfl
  refine ⟨valid, nonneg, start, created, balance.trans ?_⟩
  norm_num [admitted]

end PipelineCapacity
