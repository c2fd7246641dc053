import PipelineCapacity.Proofs.Pipeline.Resolution
import PipelineCapacity.Proofs.Pipeline.Steps
import PipelineCapacity.Proofs.Scaling.History

/-!
Pipelines that never leave their one unit, in exact arithmetic.

A scaler averages over what was served, and one unit serves at most its
capacity. A rule that goes up only above all of the capacity is therefore never
met, whatever its delays, and a single unit is never taken away. So the pipelines
that scale every hour and every second are the fixed pipeline at another price.
-/

set_option autoImplicit false

namespace PipelineCapacity

open Quantity (ofNat)

namespace Scaler

/-- One unit, which has not served more than its capacity since the reset. -/
structure Single (scaler : Scaler ℚ) (rule : ScalingRule ℚ) (unitCapacity : ℚ)
    (log : List (Entry ℚ)) : Prop extends Follows scaler rule log where
  exactSums : scaler.Exact
  units_one : scaler.units = 1
  capped : ∀ served ∈ sinceReset log, served ≤ unitCapacity

theorem single_ofRule (rule : ScalingRule ℚ) (unitCapacity : ℚ) :
    (ofRule rule).Single rule unitCapacity [] :=
  { toFollows := follows_ofRule rule
    exactSums := exact_ofRule rule
    units_one := rfl
    capped := List.forall_mem_nil _ }

variable {scaler : Scaler ℚ} {rule : ScalingRule ℚ} {unitCapacity throughput : ℚ}
  {log : List (Entry ℚ)}

/-- No mean over what one unit served is above its capacity. -/
theorem Single.not_upDue (single : scaler.Single rule unitCapacity log)
    (full : 100 ≤ rule.upPercent) (capacity : 0 ≤ unitCapacity)
    (within : throughput ≤ unitCapacity) :
    ¬UpDue rule log scaler.units throughput unitCapacity := by
  intro due
  obtain ⟨sample, member, above⟩ := due.exists_gt
  have bounded : sample ≤ unitCapacity := by
    rcases List.mem_cons.mp member with now | before
    · rw [now]
      exact within
    · have fresh := sinceAction_prefix log
      exact single.capped sample (fresh.subset before)
  have threshold := mul_le_mul_of_nonneg_left full capacity
  rw [single.units_one, Nat.cast_one, mul_one] at above
  linarith

theorem Single.not_downDue (single : scaler.Single rule unitCapacity log) :
    ¬DownDue rule log scaler.units throughput unitCapacity := by
  intro due
  have several := due.2.2
  rw [single.units_one] at several
  exact Nat.lt_irrefl 1 several

theorem Single.observe (single : scaler.Single rule unitCapacity log)
    (full : 100 ≤ rule.upPercent) (capacity : 0 ≤ unitCapacity)
    (within : throughput ≤ unitCapacity) :
    (scaler.observe throughput unitCapacity).2.Single rule unitCapacity
      (.observed throughput .maintain :: log) := by
  have kept : (scaler.observe throughput unitCapacity).1 = .maintain :=
    (observe_answer single.toFollows single.exactSums throughput unitCapacity).2.2.mpr
      ⟨single.not_upDue full capacity within, single.not_downDue⟩
  have follows := single.toFollows.observe throughput unitCapacity
  rw [kept] at follows
  refine ⟨follows, single.exactSums.observe throughput unitCapacity, ?_, ?_⟩
  · rw [follows.units]
    exact single.units.symm.trans single.units_one
  · exact List.forall_mem_cons.mpr ⟨within, single.capped⟩

end Scaler

/-- A rule that goes up only above all of the capacity. -/
structure AutoscalingParams.SingleUnit (params : AutoscalingParams ℚ) : Prop where
  rate_pos : 0 < params.base.maxRate
  full : 100 ≤ params.rule.upPercent

/-- What an hour reports, at the price of one unit and the fixed cost. -/
def AutoscalingParams.priced (params : AutoscalingParams ℚ) (report : StepMetrics ℚ) :
    StepMetrics ℚ :=
  { report with cost := params.fixedCost + params.base.unitCost }

namespace AutoscalingModel

/-- A pipeline on its one unit, with the queue of a fixed one. -/
structure Beside (params : AutoscalingParams ℚ) (model : AutoscalingModel ℚ)
    (fixed : FixedModel ℚ) (log : List (Scaler.Entry ℚ)) : Prop where
  params_eq : model.params = params
  base_eq : fixed.params = params.base
  queue_eq : fixed.queue = model.queue
  single : model.scaler.Single params.rule params.base.maxRate log

variable {params : AutoscalingParams ℚ} {model : AutoscalingModel ℚ} {fixed : FixedModel ℚ}
  {log : List (Scaler.Entry ℚ)}

theorem step_report (model : AutoscalingModel ℚ) (volume : ℚ) :
    (model.step volume).1 = .ofService
      (model.queue.advance (model.params.base.hourLoad volume
        (model.params.base.maxRate * ofNat model.scaler.units))).1
      (hourCost model.params.fixedCost model.params.base.unitCost model.scaler.units)
      (model.step volume).2.scaler.units := rfl

/-- The load on one unit is the load on the fixed pipeline. -/
theorem Beside.advance_eq (beside : Beside params model fixed log) (volume : ℚ) :
    model.queue.advance (model.params.base.hourLoad volume
        (model.params.base.maxRate * ofNat model.scaler.units)) =
      fixed.queue.advance (fixed.params.hourLoad volume fixed.params.maxRate) := by
  rw [beside.params_eq, beside.base_eq, beside.queue_eq, beside.single.units_one,
    Quantity.ofNat_rat, Nat.cast_one, mul_one]

theorem Beside.step (alone : params.SingleUnit) (beside : Beside params model fixed log)
    (volume : ℚ) :
    (model.step volume).1 = params.priced (fixed.step volume).1 ∧
      ∃ later, Beside params (model.step volume).2 (fixed.step volume).2 later := by
  have advance := beside.advance_eq volume
  have within : (model.step volume).1.throughput ≤ params.base.maxRate := by
    rw [step_report, advance, ← beside.base_eq]
    exact fixed.queue.advance_throughput_le (fixed.params.hourLoad volume fixed.params.maxRate)
  have observed : (model.step volume).2.scaler =
      (model.scaler.observe (model.step volume).1.throughput params.base.maxRate).2 := by
    rw [← beside.params_eq]
    rfl
  have single := beside.single.observe alone.full alone.rate_pos.le within
  rw [← observed] at single
  constructor
  · rw [step_report, advance, single.units_one, beside.single.units_one, hourCost,
      Quantity.ofNat_rat, Nat.cast_one, mul_one, beside.params_eq]
    rfl
  · exact ⟨_, beside.params_eq, beside.base_eq, (congrArg Prod.snd advance).symm, single⟩

theorem Beside.reports (alone : params.SingleUnit) (beside : Beside params model fixed log)
    (volumes : List ℚ) :
    (Pipeline.autoscaling model).reports volumes =
        ((Pipeline.fixed fixed).reports volumes).map params.priced ∧
      ((Pipeline.autoscaling model).after volumes).units = 1 := by
  induction volumes generalizing model fixed log with
  | nil => exact ⟨rfl, beside.single.units_one⟩
  | cons volume rest ih =>
      obtain ⟨report, _, next⟩ := beside.step alone volume
      obtain ⟨reports, units⟩ := ih next
      exact ⟨congrArg₂ List.cons report reports, units⟩

end AutoscalingModel

/-- Two reports that may differ in the first-in latency only. -/
structure StepMetrics.SameButFifo (first second : StepMetrics ℚ) : Prop where
  throughput : first.throughput = second.throughput
  latencyLifo : first.latencyLifo = second.latencyLifo
  backlog : first.backlog = second.backlog
  cost : first.cost = second.cost
  units : first.units = second.units

theorem StepMetrics.column_eq {β : Type} {value : StepMetrics ℚ → β}
    {first second : List (StepMetrics ℚ)}
    (same : List.Forall₂ (fun one other => value one = value other) first second) :
    first.map value = second.map value := by
  rw [← List.forall₂_eq_eq_eq, List.forall₂_map_left_iff, List.forall₂_map_right_iff]
  exact same

namespace FineModel

/-- A fine pipeline on its one unit, with the queue of a fixed one. -/
structure Beside (params : AutoscalingParams ℚ) (model : FineModel ℚ) (fixed : FixedModel ℚ)
    (log : List (Scaler.Entry ℚ)) : Prop where
  params_eq : model.params = params
  base_eq : fixed.params = params.base
  queue_eq : fixed.queue = model.queue
  waiting : 0 ≤ model.queue.backlog
  single : model.scaler.Single params.rule (secondRate params) log

variable {params : AutoscalingParams ℚ} {model : FineModel ℚ} {fixed : FixedModel ℚ}
  {log : List (Scaler.Entry ℚ)} {volume : ℚ}

theorem secondRate_nonneg (alone : params.SingleUnit) : 0 ≤ secondRate params :=
  div_nonneg alone.rate_pos.le (Nat.cast_nonneg _)

theorem Hour.pass_single (alone : params.SingleUnit) {hour : Hour ℚ}
    (single : hour.scaler.Single params.rule (secondRate params) log) (records : List ℚ) :
    ∃ later, (hour.pass params (secondRate params) records).scaler.Single params.rule
      (secondRate params) later := by
  induction records generalizing hour log with
  | nil => exact ⟨log, single⟩
  | cons record rest ih =>
      have within : (hour.queue.advance (secondLoad params (secondRate params) hour.scaler.units
          record)).1.throughput ≤ secondRate params := by
        refine (hour.queue.advance_throughput_le _).trans_eq ?_
        rw [secondLoad, single.units_one, Quantity.ofNat_rat, Nat.cast_one, mul_one]
      have next : (hour.second params (secondRate params) record).scaler.Single params.rule
          (secondRate params) _ :=
        single.observe alone.full (secondRate_nonneg alone) within
      exact ih next

theorem Beside.hourAfter_single (alone : params.SingleUnit)
    (beside : Beside params model fixed log) (volume : ℚ) (second : Nat) :
    ∃ later, (model.hourAfter volume second).scaler.Single params.rule
      (secondRate params) later := by
  have begun : (Hour.start model).scaler.Single params.rule (secondRate params) log :=
    beside.single
  unfold hourAfter
  rw [beside.params_eq]
  exact Hour.pass_single alone begun _

/-- No second of the hour changes the count of units. -/
theorem Beside.units_one (alone : params.SingleUnit) (beside : Beside params model fixed log)
    (volume : ℚ) (second : Nat) : (model.hourAfter volume second).scaler.units = 1 := by
  obtain ⟨_, single⟩ := beside.hourAfter_single alone volume second
  exact single.units_one

theorem Beside.steady (alone : params.SingleUnit) (beside : Beside params model fixed log)
    (volume : ℚ) : model.Steady volume := by
  intro second _
  rw [beside.units_one alone, beside.units_one alone]

theorem Beside.step_queue (alone : params.SingleUnit) (beside : Beside params model fixed log)
    (nonneg : 0 ≤ volume) (bounded : volume < 2 ^ 64) :
    (model.step volume).2.queue = (fixed.step ⌊volume⌋).2.queue := by
  rw [(beside.steady alone volume).queue_eq beside.waiting, wholeRecords_floor nonneg bounded,
    beside.single.units_one, Nat.cast_one, mul_one, beside.params_eq, ← beside.base_eq,
    ← beside.queue_eq]
  rfl

theorem Beside.report (alone : params.SingleUnit) (beside : Beside params model fixed log)
    (nonneg : 0 ≤ volume) (bounded : volume < 2 ^ 64) :
    (model.step volume).1.SameButFifo (params.priced (fixed.step ⌊volume⌋).1) := by
  have queue := beside.step_queue alone nonneg bounded
  refine ⟨?_, ?_, ?_, ?_, ?_⟩
  · -- Both hours start from one queue, let the same records in and end with one queue.
    have seconds := (model.step_chain volume).balance
    rw [← step_throughput, updates_total, wholeRecords_floor nonneg bounded, queue,
      ← beside.queue_eq] at seconds
    have hourly := fixed.queue.advance_balance
      (fixed.params.hourLoad ⌊volume⌋ fixed.params.maxRate)
    exact add_right_cancel (seconds.trans hourly.symm)
  · rw [step_latencyLifo, queue, beside.params_eq, ← beside.base_eq]
    rfl
  · exact (model.step_backlog volume).trans (congrArg Queue.backlog queue)
  · rw [(beside.steady alone volume).cost_eq, beside.single.units_one, Nat.cast_one, mul_one,
      beside.params_eq]
    rfl
  · rw [step_units, step_scaler]
    exact beside.units_one alone volume secondsPerHour

theorem Beside.step (alone : params.SingleUnit) (beside : Beside params model fixed log)
    (nonneg : 0 ≤ volume) (bounded : volume < 2 ^ 64) :
    ∃ later, Beside params (model.step volume).2 (fixed.step ⌊volume⌋).2 later := by
  obtain ⟨later, single⟩ := beside.hourAfter_single alone volume secondsPerHour
  rw [← step_scaler] at single
  exact ⟨later, (model.step_params volume).trans beside.params_eq, beside.base_eq,
    (beside.step_queue alone nonneg bounded).symm,
    (model.step_chain volume).backlog_nonneg beside.waiting, single⟩

/-- A volume that is not negative and whose records can be counted. -/
def Countable (volume : ℚ) : Prop := 0 ≤ volume ∧ volume < 2 ^ 64

theorem Beside.reports (alone : params.SingleUnit) (beside : Beside params model fixed log)
    {volumes : List ℚ} (countable : ∀ volume ∈ volumes, Countable volume) :
    List.Forall₂ StepMetrics.SameButFifo ((Pipeline.autoscalingFine model).reports volumes)
      (((Pipeline.fixed fixed).reports (volumes.map fun volume => (⌊volume⌋ : ℚ))).map
        params.priced) := by
  induction volumes generalizing model fixed log with
  | nil => exact .nil
  | cons volume rest ih =>
      obtain ⟨⟨nonneg, bounded⟩, others⟩ := List.forall_mem_cons.mp countable
      obtain ⟨_, next⟩ := beside.step alone nonneg bounded
      have stepped := Pipeline.step_autoscalingFine model volume
      rw [Pipeline.reports, stepped.1, stepped.2]
      exact .cons (beside.report alone nonneg bounded) (ih next others)

theorem Beside.after (alone : params.SingleUnit) (beside : Beside params model fixed log)
    {volumes : List ℚ} (countable : ∀ volume ∈ volumes, Countable volume) :
    ∃ later slower recorded,
      (Pipeline.autoscalingFine model).after volumes = .autoscalingFine later ∧
        Beside params later slower recorded := by
  induction volumes generalizing model fixed log with
  | nil => exact ⟨model, fixed, log, rfl, beside⟩
  | cons volume rest ih =>
      obtain ⟨⟨nonneg, bounded⟩, others⟩ := List.forall_mem_cons.mp countable
      obtain ⟨_, next⟩ := beside.step alone nonneg bounded
      rw [Pipeline.after_cons, (Pipeline.step_autoscalingFine model volume).2]
      exact ih next others

end FineModel

/-- With a rule that goes up only above all of the capacity, the pipelines that
scale are the fixed one at the price of one unit: hour by hour the hourly one
reports the same, the fine one the same but for the first-in latency, and none of
its seconds has another count of units. -/
theorem AutoscalingParams.fixed_of_full_trigger {params : AutoscalingParams ℚ}
    (valid : params.validate = .ok ()) (full : 100 ≤ params.rule.upPercent) :
    ∃ fixed hourly fine,
      Pipeline.ofParams (.simple params.base) = .ok fixed ∧
      Pipeline.ofParams (.autoscaling params) = .ok hourly ∧
      Pipeline.ofParams (.autoscalingFine params) = .ok fine ∧
      (∀ used, Pipeline.Reached (.simple params.base) used → used.reset = fixed) ∧
      (∀ used, Pipeline.Reached (.autoscaling params) used → used.reset = hourly) ∧
      (∀ used, Pipeline.Reached (.autoscalingFine params) used → used.reset = fine) ∧
      (∀ volumes,
        hourly.reports volumes = (fixed.reports volumes).map params.priced ∧
        (hourly.after volumes).units = 1) ∧
      ∀ volumes, (∀ volume ∈ volumes, FineModel.Countable volume) →
        List.Forall₂ StepMetrics.SameButFifo (fine.reports volumes)
          ((fixed.reports (volumes.map fun volume => (⌊volume⌋ : ℚ))).map params.priced) ∧
        ∀ done, done <+: volumes → ∃ model, fine.after done = .autoscalingFine model ∧
          ∀ volume second, (model.hourAfter volume second).scaler.units = 1 := by
  have base := (validate_eq_ok_iff.mp valid).1
  have alone : params.SingleUnit := ⟨(SimpleParams.validate_eq_ok_iff.mp base).1, full⟩
  let still : FixedModel ℚ := ⟨params.base, .empty, Quantity.zero⟩
  have hourly : AutoscalingModel.Beside params
      ⟨params, .empty, .ofRule params.rule, Quantity.zero⟩ still [] :=
    ⟨rfl, rfl, rfl, Scaler.single_ofRule params.rule params.base.maxRate⟩
  have fine : FineModel.Beside params
      ⟨params, .empty, .ofRule params.rule, Quantity.zero⟩ still [] :=
    ⟨rfl, rfl, rfl, Quantity.zero_rat.ge,
      Scaler.single_ofRule params.rule (FineModel.secondRate params)⟩
  refine ⟨_, _, _, Pipeline.ofParams_of_valid base, Pipeline.ofParams_of_valid valid,
    Pipeline.ofParams_of_valid valid, fun used reached => reached.reset_eq,
    fun used reached => reached.reset_eq, fun used reached => reached.reset_eq,
    hourly.reports alone, ?_⟩
  intro volumes countable
  refine ⟨fine.reports alone countable, ?_⟩
  intro done early
  obtain ⟨later, _, _, ended, beside⟩ :=
    fine.after alone fun volume member => countable volume (early.subset member)
  exact ⟨later, ended, fun volume second => beside.units_one alone volume second⟩

/-- Goes up only above all of the capacity, after one step. -/
def AutoscalingParams.content : AutoscalingParams ℚ :=
  { eager with rule := { upPercent := 100, upDelay := 1, downPercent := 40, downDelay := 1 } }

/-- Two hours of rush, one hour idle and one with half a record: a hundred percent
is reached and not exceeded. -/
theorem AutoscalingParams.fixed_of_full_trigger_rush :
    (content.validate = .ok () ∧ (100 : ℚ) ≤ content.rule.upPercent ∧
      ∀ volume ∈ [(7200 : ℚ), 3600, 0, 1001 / 2], FineModel.Countable volume) ∧
    ∃ hourly fine,
      Pipeline.ofParams (.autoscaling content) = .ok hourly ∧
      Pipeline.ofParams (.autoscalingFine content) = .ok fine ∧
      (hourly.reports [7200, 3600, 0, 1001 / 2]).map (·.throughput) =
        [3600, 3600, 3600, 1001 / 2] ∧
      (fine.reports [7200, 3600, 0, 1001 / 2]).map (·.throughput) = [3600, 3600, 3600, 500] ∧
      (fine.reports [7200, 3600, 0, 1001 / 2]).map (·.units) = [1, 1, 1, 1] := by
  have valid : content.validate = .ok () := by
    rw [validate_eq_ok_iff, SimpleParams.validate_eq_ok_iff]
    norm_num [content, eager, patient]
  have full : (100 : ℚ) ≤ content.rule.upPercent := by
    norm_num [content]
  have countable : ∀ volume ∈ [(7200 : ℚ), 3600, 0, 1001 / 2], FineModel.Countable volume := by
    norm_num [FineModel.Countable]
  obtain ⟨fixed, hourly, fine, created, hourlyCreated, fineCreated, _, _, _, hours, seconds⟩ :=
    fixed_of_full_trigger valid full
  cases Pipeline.eq_fresh_of_ofParams created
  obtain ⟨alike, _⟩ := seconds _ countable
  refine ⟨⟨valid, full, countable⟩, hourly, fine, hourlyCreated, fineCreated, ?_, ?_, ?_⟩
  · rw [(hours _).1]
    decide +kernel
  · rw [StepMetrics.column_eq (alike.imp fun _ _ same => same.throughput)]
    decide +kernel
  · rw [StepMetrics.column_eq (alike.imp fun _ _ same => same.units)]
    decide +kernel

end PipelineCapacity
