import PipelineCapacity.Pipeline.Preset
import PipelineCapacity.Proofs.Failure
import PipelineCapacity.Proofs.Pipeline.Params
import PipelineCapacity.Proofs.Pipeline.Steps
import PipelineCapacity.Proofs.Queue.Service

/-!
Parameters measured in an experiment, and the experiment repeated with them, in
exact arithmetic. A fixed pipeline works at its full rate as long as no hour runs
out of work. What waits after an hour is then all that has arrived less the rate
for every hour so far, so an experiment that was never short of work ends when
its span does, and at its cost.
-/

set_option autoImplicit false

namespace PipelineCapacity

theorem Policy.parse_eq_ok_iff {α : Type} {token : String} {policy : Policy} :
    parse token = (.ok policy : Except (Failure α) Policy) ↔ ofName? token = some policy := by
  unfold parse
  cases ofName? token <;> simp

namespace Experiment

/-- The rate and the hourly cost of the span, which is in seconds. -/
def measured (experiment : Experiment ℚ) (policy : Policy) : SimpleParams ℚ :=
  { maxRate := experiment.records / (experiment.span / secondsPerHour)
    unitCost := experiment.cost / (experiment.span / secondsPerHour)
    baseLatency := experiment.latency
    policy }

variable {experiment : Experiment ℚ} {token : String} {params : SimpleParams ℚ} {policy : Policy}

theorem validate_measured (lasting : 0 < experiment.span) (cost : 0 ≤ experiment.cost) :
    (experiment.measured policy).validate = .ok () ↔
      0 < experiment.records ∧ 0 ≤ experiment.latency := by
  have hours : 0 < experiment.span / secondsPerHour := div_pos lasting (by decide)
  rw [SimpleParams.validate_eq_ok_iff]
  unfold measured
  dsimp only
  rw [div_pos_iff_of_pos_right hours]
  exact and_congr_right fun _ => and_iff_right (div_nonneg cost hours.le)

/-- Nothing but a positive span and count of records, a cost and a latency that
are not negative, and a known policy is accepted. -/
theorem calibrate_eq_ok_iff :
    experiment.calibrate token = .ok params ↔
      (0 < experiment.span ∧ 0 < experiment.records ∧ 0 ≤ experiment.cost ∧
        0 ≤ experiment.latency) ∧
      ∃ policy, Policy.ofName? token = some policy ∧ params = experiment.measured policy := by
  constructor
  · intro accepted
    obtain ⟨_, span, accepted⟩ := bind_eq_ok_iff.mp accepted
    obtain ⟨_, _, accepted⟩ := bind_eq_ok_iff.mp accepted
    obtain ⟨_, cost, accepted⟩ := bind_eq_ok_iff.mp accepted
    obtain ⟨policy, named, accepted⟩ := bind_eq_ok_iff.mp accepted
    obtain ⟨_, valid, accepted⟩ := bind_eq_ok_iff.mp accepted
    have lasting := requirePositive_rat.mp (refuse_eq_ok_iff.mp span)
    have paid := requireNonNegative_rat.mp (refuse_eq_ok_iff.mp cost)
    obtain ⟨records, latency⟩ :=
      (validate_measured lasting paid).mp (refuse_eq_ok_iff.mp valid)
    exact ⟨⟨lasting, records, paid, latency⟩, policy, Policy.parse_eq_ok_iff.mp named,
      (Except.ok.inj accepted).symm⟩
  · rintro ⟨⟨lasting, records, paid, latency⟩, policy, named, rfl⟩
    have valid : (experiment.measured policy).validate = .ok () :=
      (validate_measured lasting paid).mpr ⟨records, latency⟩
    refine bind_eq_ok_iff.mpr ⟨(), refuse_eq_ok_iff.mpr (requirePositive_rat.mpr lasting), ?_⟩
    refine bind_eq_ok_iff.mpr
      ⟨(), refuse_eq_ok_iff.mpr (requireNonNegative_rat.mpr records.le), ?_⟩
    refine bind_eq_ok_iff.mpr ⟨(), refuse_eq_ok_iff.mpr (requireNonNegative_rat.mpr paid), ?_⟩
    refine bind_eq_ok_iff.mpr ⟨policy, Policy.parse_eq_ok_iff.mpr named, ?_⟩
    exact bind_eq_ok_iff.mpr ⟨(), refuse_eq_ok_iff.mpr valid, rfl⟩

end Experiment

theorem Queue.eq_empty_of_drained {queue : Queue ℚ} {load : Load ℚ}
    (drained : (queue.advance load).2.backlog = 0) : (queue.advance load).2 = .empty := by
  apply Queue.ext
  · exact drained.trans Quantity.zero_rat.symm
  · rw [advance_oldestAge, if_pos drained]
    exact Quantity.zero_rat.symm

/-- With what waits at first, the arrivals up to any hour are enough for every
hour so far to be worked at the rate. -/
def Sustained (rate waiting : ℚ) (arrivals : List ℚ) : Prop :=
  ∀ hours ≤ arrivals.length, hours * rate ≤ waiting + (arrivals.take hours).sum

theorem Sustained.first {rate waiting arrival : ℚ} {rest : List ℚ}
    (sustained : Sustained rate waiting (arrival :: rest)) : rate ≤ waiting + arrival := by
  simpa using sustained 1 (by simp)

theorem Sustained.later {rate waiting arrival : ℚ} {rest : List ℚ}
    (sustained : Sustained rate waiting (arrival :: rest)) :
    Sustained rate (waiting + arrival - rate) rest := by
  intro hours within
  have enough := sustained (hours + 1) (Nat.succ_le_succ within)
  rw [List.take_succ_cons, List.sum_cons, Nat.cast_add, Nat.cast_one] at enough
  linarith

namespace FixedModel

variable {model : FixedModel ℚ}

theorem step_throughput (model : FixedModel ℚ) (volume : ℚ) :
    (model.step volume).1.throughput =
      Min.min (model.queue.backlog + volume) model.params.maxRate :=
  model.queue.advance_throughput (model.params.hourLoad volume model.params.maxRate)

theorem step_backlog (model : FixedModel ℚ) (volume : ℚ) :
    (model.step volume).2.queue.backlog =
      Max.max (model.queue.backlog + volume - model.params.maxRate) 0 :=
  model.queue.advance_backlog (model.params.hourLoad volume model.params.maxRate)

/-- An hour that does not run out of work leaves what is beyond the rate. -/
theorem step_backlog_of_enough {volume : ℚ}
    (enough : model.params.maxRate ≤ model.queue.backlog + volume) :
    (model.step volume).2.queue.backlog =
      model.queue.backlog + volume - model.params.maxRate := by
  rw [step_backlog, max_eq_left (sub_nonneg.mpr enough)]

theorem reports_of_sustained {arrivals : List ℚ}
    (sustained : Sustained model.params.maxRate model.queue.backlog arrivals) :
    ((Pipeline.fixed model).reports arrivals).map (·.throughput) =
      List.replicate arrivals.length model.params.maxRate := by
  induction arrivals generalizing model with
  | nil => rfl
  | cons arrival rest ih =>
      have enough := sustained.first
      have later := sustained.later
      rw [← step_backlog_of_enough enough] at later
      have hour : (model.step arrival).1.throughput = model.params.maxRate := by
        rw [step_throughput, min_eq_right enough]
      rw [List.length_cons, List.replicate_succ]
      exact List.cons_eq_cons.mpr ⟨hour, @ih (model.step arrival).2 later⟩

/-- What has arrived and was not worked off waits. -/
theorem backlog_after_of_sustained {arrivals : List ℚ}
    (sustained : Sustained model.params.maxRate model.queue.backlog arrivals) :
    ((Pipeline.fixed model).after arrivals).queue.backlog =
      model.queue.backlog + arrivals.sum - arrivals.length * model.params.maxRate := by
  induction arrivals generalizing model with
  | nil => simp [Pipeline.after, Pipeline.queue]
  | cons arrival rest ih =>
      have enough := sustained.first
      have later := sustained.later
      rw [← step_backlog_of_enough enough] at later
      have rested := @ih (model.step arrival).2 later
      rw [step_backlog_of_enough enough] at rested
      rw [List.sum_cons, List.length_cons, Nat.cast_add, Nat.cast_one]
      refine rested.trans ?_
      change _ - _ * model.params.maxRate = _
      ring

/-- A backlog that is worked off leaves no age behind. -/
theorem queue_after_of_drained {arrivals : List ℚ} (present : arrivals ≠ [])
    (drained : ((Pipeline.fixed model).after arrivals).queue.backlog = 0) :
    ((Pipeline.fixed model).after arrivals).queue = .empty := by
  induction arrivals generalizing model with
  | nil => exact absurd rfl present
  | cons arrival rest ih =>
      cases rest with
      | nil => exact Queue.eq_empty_of_drained drained
      | cons next others => exact @ih (model.step arrival).2 (List.cons_ne_nil _ _) drained

theorem totalCost_after (model : FixedModel ℚ) (arrivals : List ℚ) :
    ((Pipeline.fixed model).after arrivals).totalCost =
      model.totalCost + arrivals.length * model.params.unitCost := by
  induction arrivals generalizing model with
  | nil => simp [Pipeline.after, Pipeline.totalCost]
  | cons arrival rest ih =>
      refine (ih (model.step arrival).2).trans ?_
      change model.totalCost + model.params.unitCost + _ * model.params.unitCost = _
      rw [List.length_cons, Nat.cast_add, Nat.cast_one]
      ring

end FixedModel

namespace Experiment

/-- Hourly arrivals of an experiment that no hour of which ran out of work. -/
structure Busy (hours : Nat) (records : ℚ) (arrivals : List ℚ) : Prop where
  length_eq : arrivals.length = hours
  sum_eq : arrivals.sum = records
  enough : ∀ count ≤ hours, count * records / hours ≤ (arrivals.take count).sum

theorem Busy.sustained {hours : Nat} {records : ℚ} {arrivals : List ℚ}
    (busy : Busy hours records arrivals) : Sustained (records / hours) 0 arrivals := by
  intro count within
  rw [zero_add, ← mul_div_assoc]
  exact busy.enough count (within.trans_eq busy.length_eq)

/-- All records at once, in the first hour. -/
theorem busy_at_once {hours : Nat} {records : ℚ} (lasting : 1 ≤ hours) (injected : 0 < records) :
    Busy hours records (records :: List.replicate (hours - 1) 0) where
  length_eq := by
    rw [List.length_cons, List.length_replicate]
    omega
  sum_eq := by simp
  enough := by
    intro count within
    cases count with
    | zero => simp
    | succ count =>
        have part : ((count + 1 : Nat) : ℚ) ≤ hours := Nat.cast_le.mpr within
        have span : (0 : ℚ) < hours := Nat.cast_pos.mpr lasting
        rw [List.take_succ_cons, List.take_replicate, List.sum_cons, List.sum_replicate,
          nsmul_zero, add_zero, div_le_iff₀ span, mul_comm records]
        exact mul_le_mul_of_nonneg_right part injected.le

theorem measured_of_hours {hours : Nat} (records cost latency : ℚ) (policy : Policy) :
    (Experiment.mk records (3600 * hours) cost latency).measured policy =
      ⟨records / hours, cost / hours, latency, policy⟩ := by
  have span : (3600 * hours : ℚ) / secondsPerHour = hours :=
    mul_div_cancel_left₀ _ (by norm_num)
  unfold measured
  rw [span]

/-- What a fixed pipeline at the rate of the experiment makes of its arrivals. -/
theorem Busy.repeats {hours : Nat} {records cost : ℚ} {arrivals : List ℚ} {model : FixedModel ℚ}
    (busy : Busy hours records arrivals) (lasting : 1 ≤ hours)
    (rate : model.params.maxRate = records / hours)
    (price : model.params.unitCost = cost / hours) (vacant : model.queue = .empty)
    (unpaid : model.totalCost = 0) :
    ((Pipeline.fixed model).reports arrivals).map (·.throughput) =
        List.replicate hours (records / hours) ∧
      ((Pipeline.fixed model).after arrivals).queue = .empty ∧
      ((Pipeline.fixed model).after arrivals).totalCost = cost := by
  have span : (hours : ℚ) ≠ 0 := Nat.cast_ne_zero.mpr (by omega)
  have waiting : model.queue.backlog = 0 := by
    rw [vacant]
    exact Quantity.zero_rat
  have sustained : Sustained model.params.maxRate model.queue.backlog arrivals := by
    rw [rate, waiting]
    exact busy.sustained
  have present : arrivals ≠ [] := by
    rintro rfl
    exact absurd busy.length_eq (by rw [List.length_nil]; omega)
  refine ⟨?_, FixedModel.queue_after_of_drained present ?_, ?_⟩
  · rw [FixedModel.reports_of_sustained sustained, busy.length_eq, rate]
  · rw [FixedModel.backlog_after_of_sustained sustained, waiting, busy.sum_eq, busy.length_eq,
      rate, mul_div_cancel₀ _ span, zero_add, sub_self]
  · rw [FixedModel.totalCost_after, unpaid, busy.length_eq, price, mul_div_cancel₀ _ span,
      zero_add]

/-- Parameters measured in an experiment of whole hours repeat it. A fixed
pipeline made of them, under any arrivals of that experiment that leave no hour
short of work, serves the mean of the records in every hour, is empty after the
last one, and has the cost of the experiment. All records in the first hour are
such arrivals. -/
theorem calibrate_repeats {hours : Nat} {records cost latency : ℚ} {token : String}
    {policy : Policy} (lasting : 1 ≤ hours) (injected : 0 < records) (paid : 0 ≤ cost)
    (delayed : 0 ≤ latency) (named : Policy.ofName? token = some policy) :
    (∃ params model,
      (Experiment.mk records (3600 * hours) cost latency).calibrate token = .ok params ∧
      FixedModel.create params = .ok model ∧
      ∀ arrivals, Busy hours records arrivals →
        ((Pipeline.fixed model).reports arrivals).map (·.throughput) =
            List.replicate hours (records / hours) ∧
          ((Pipeline.fixed model).after arrivals).queue = .empty ∧
          ((Pipeline.fixed model).after arrivals).totalCost = cost) ∧
    Busy hours records (records :: List.replicate (hours - 1) 0) := by
  have span : (0 : ℚ) < hours := Nat.cast_pos.mpr lasting
  let params : SimpleParams ℚ := ⟨records / hours, cost / hours, latency, policy⟩
  have calibrated :
      (Experiment.mk records (3600 * hours) cost latency).calibrate token = .ok params :=
    calibrate_eq_ok_iff.mpr ⟨⟨by positivity, injected, paid, delayed⟩, policy, named,
      (measured_of_hours records cost latency policy).symm⟩
  have valid : params.validate = .ok () :=
    SimpleParams.validate_eq_ok_iff.mpr
      ⟨div_pos injected span, div_nonneg paid span.le, delayed⟩
  have created : FixedModel.create params = .ok ⟨params, .empty, Quantity.zero⟩ :=
    bind_eq_ok_iff.mpr ⟨(), valid, rfl⟩
  refine ⟨⟨params, _, calibrated, created, fun arrivals busy => ?_⟩,
    busy_at_once lasting injected⟩
  exact busy.repeats lasting rfl rfl rfl Quantity.zero_rat

/-- Four hours, of which the second and the last bring nothing. -/
theorem calibrate_repeats_bursts :
    (1 ≤ 4 ∧ (0 : ℚ) < 1200 ∧ (0 : ℚ) ≤ 10 ∧ (0 : ℚ) ≤ 5 ∧
      Policy.ofName? "lifo" = some .lifo ∧ Busy 4 1200 [700, 0, 500, 0]) ∧
    ∃ params model,
      (Experiment.mk (1200 : ℚ) (3600 * (4 : Nat)) 10 5).calibrate "lifo" = .ok params ∧
      FixedModel.create params = .ok model ∧
      ((Pipeline.fixed model).reports [700, 0, 500, 0]).map (·.throughput) =
        [300, 300, 300, 300] ∧
      ((Pipeline.fixed model).after [700, 0, 500, 0]).queue = .empty ∧
      ((Pipeline.fixed model).after [700, 0, 500, 0]).totalCost = 10 := by
  have named : Policy.ofName? "lifo" = some .lifo := by decide
  have busy : Busy 4 1200 [700, 0, 500, 0] := ⟨rfl, by norm_num, by decide +kernel⟩
  obtain ⟨⟨params, model, calibrated, created, repeats⟩, _⟩ :=
    calibrate_repeats (by omega : 1 ≤ 4) (by norm_num : (0 : ℚ) < 1200)
      (by norm_num : (0 : ℚ) ≤ 10) (by norm_num : (0 : ℚ) ≤ 5) named
  obtain ⟨served, vacant, paid⟩ := repeats _ busy
  have mean : (1200 : ℚ) / (4 : Nat) = 300 := by norm_num
  rw [mean] at served
  exact ⟨⟨by omega, by norm_num, by norm_num, by norm_num, named, busy⟩, params, model,
    calibrated, created, served, vacant, paid⟩

end Experiment

end PipelineCapacity
