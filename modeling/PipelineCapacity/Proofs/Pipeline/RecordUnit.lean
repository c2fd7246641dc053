import PipelineCapacity.Proofs.Pipeline.Params
import PipelineCapacity.Proofs.Pipeline.Steps

/-!
Pipelines whose records are counted in another unit, in exact arithmetic.

Converting multiplies every count of records by one positive factor: rates,
backlogs, samples and what arrives. Counts of units, amounts of money, times and
percentages stay as they are. Every operation of an hourly pipeline commutes with
this, since it only adds counts, compares them with each other and divides one by
another. The fine pipeline is left out: whole records depend on the unit.
-/

set_option autoImplicit false

namespace PipelineCapacity

section Conversion

variable (factor : ℚ)

def Samples.convert (samples : Samples ℚ) : Samples ℚ :=
  { samples with
    front := samples.front.map (factor * ·)
    back := samples.back.map (factor * ·) }

def Window.convert (window : Window ℚ) : Window ℚ :=
  { window with
    samples := window.samples.convert factor
    sum := factor * window.sum }

def Scaler.convert (scaler : Scaler ℚ) : Scaler ℚ :=
  { scaler with
    upWindow := scaler.upWindow.convert factor
    downWindow := scaler.downWindow.convert factor }

def Queue.convert (queue : Queue ℚ) : Queue ℚ :=
  { queue with backlog := factor * queue.backlog }

def Queue.Load.convert (load : Queue.Load ℚ) : Queue.Load ℚ :=
  { load with
    incoming := factor * load.incoming
    capacity := factor * load.capacity }

def Queue.Service.convert (service : Queue.Service ℚ) : Queue.Service ℚ :=
  { service with
    throughput := factor * service.throughput
    backlog := factor * service.backlog }

def StepMetrics.convert (metrics : StepMetrics ℚ) : StepMetrics ℚ :=
  { metrics with
    throughput := factor * metrics.throughput
    backlog := factor * metrics.backlog }

def SimpleParams.convert (params : SimpleParams ℚ) : SimpleParams ℚ :=
  { params with maxRate := factor * params.maxRate }

def ModelParams.convert : ModelParams ℚ → ModelParams ℚ
  | .simple params => .simple (params.convert factor)
  | .quickScaling params => .quickScaling { params with base := params.base.convert factor }
  | .autoscaling params => .autoscaling { params with base := params.base.convert factor }
  | .autoscalingFine params => .autoscalingFine { params with base := params.base.convert factor }

def FixedModel.convert (model : FixedModel ℚ) : FixedModel ℚ :=
  { model with
    params := model.params.convert factor
    queue := model.queue.convert factor }

def QuickScalingModel.convert (model : QuickScalingModel ℚ) : QuickScalingModel ℚ :=
  { model with
    params := { model.params with base := model.params.base.convert factor }
    queue := model.queue.convert factor }

def AutoscalingModel.convert (model : AutoscalingModel ℚ) : AutoscalingModel ℚ :=
  { model with
    params := { model.params with base := model.params.base.convert factor }
    queue := model.queue.convert factor
    scaler := model.scaler.convert factor }

def FineModel.convert (model : FineModel ℚ) : FineModel ℚ :=
  { model with
    params := { model.params with base := model.params.base.convert factor }
    queue := model.queue.convert factor
    scaler := model.scaler.convert factor }

def Pipeline.convert : Pipeline ℚ → Pipeline ℚ
  | fixed model => fixed (model.convert factor)
  | quickScaling model => quickScaling (model.convert factor)
  | autoscaling model => autoscaling (model.convert factor)
  | autoscalingFine model => autoscalingFine (model.convert factor)

end Conversion

variable {factor : ℚ}

/-! ### Windows -/

theorem Samples.toList_convert (samples : Samples ℚ) :
    (samples.convert factor).toList = samples.toList.map (factor * ·) := by
  unfold convert toList
  rw [List.map_append, List.map_reverse]

theorem Samples.add_convert (samples : Samples ℚ) (sample : ℚ) :
    (samples.convert factor).add (factor * sample) = (samples.add sample).convert factor := rfl

theorem Samples.takeOldest?_convert (samples : Samples ℚ) :
    (samples.convert factor).takeOldest? =
      samples.takeOldest?.map fun taken => (factor * taken.1, taken.2.convert factor) := by
  obtain ⟨front, back, size⟩ := samples
  cases front with
  | cons oldest front => rfl
  | nil =>
      unfold convert takeOldest?
      dsimp only [List.map_nil]
      rw [← List.map_reverse]
      cases back.reverse <;> rfl

namespace Window

theorem evict_convert (window : Window ℚ) :
    (window.convert factor).evict = window.evict.convert factor := by
  unfold evict
  change (if (window.size == window.capacity) = true then _ else _) = _
  by_cases full : (window.size == window.capacity) = true
  · have taken : (window.convert factor).samples.takeOldest? = _ :=
      window.samples.takeOldest?_convert
    rw [if_pos full, if_pos full, taken]
    cases window.samples.takeOldest? with
    | none => rfl
    | some taken =>
        unfold convert
        dsimp only [Option.map_some]
        rw [mul_sub]
  · rw [if_neg full, if_neg full]

theorem push_convert (window : Window ℚ) (sample : ℚ) :
    (window.convert factor).push (factor * sample) = (window.push sample).convert factor := by
  unfold push
  rw [evict_convert]
  change (if window.evict.turned + 1 ≥ window.evict.capacity then _ else _) = _
  by_cases turned : window.evict.turned + 1 ≥ window.evict.capacity
  · rw [if_pos turned, if_pos turned]
    unfold convert
    dsimp only
    rw [Samples.add_convert, Samples.toList_convert, Quantity.sum_rat, Quantity.sum_rat,
      List.sum_map_mul_left, List.map_id']
  · rw [if_neg turned, if_neg turned]
    unfold convert
    dsimp only
    rw [Samples.add_convert, mul_add]

theorem mean?_convert (window : Window ℚ) :
    (window.convert factor).mean? = window.mean?.map (factor * ·) := by
  unfold mean?
  change (if window.isEmpty = true then none else some (factor * window.sum / _)) = _
  split
  · rfl
  · rw [Option.map_some, ← mul_div_assoc]
    rfl

end Window

namespace Scaler

theorem record_convert (scaler : Scaler ℚ) (throughput : ℚ) :
    (scaler.convert factor).record (factor * throughput) =
      (scaler.record throughput).convert factor := by
  unfold record convert
  dsimp only
  rw [Window.push_convert, Window.push_convert]

theorem mean_convert (window : Window ℚ) :
    (window.convert factor).mean?.getD Quantity.zero =
      factor * window.mean?.getD Quantity.zero := by
  rw [Window.mean?_convert]
  cases window.mean? with
  | none => exact Quantity.zero_rat.trans (mul_zero factor).symm
  | some mean => rfl

theorem threshold_convert (scaler : Scaler ℚ) (unitCapacity percent : ℚ) :
    (scaler.convert factor).capacity (factor * unitCapacity) * percent / Quantity.ofNat 100 =
      factor * (scaler.capacity unitCapacity * percent / Quantity.ofNat 100) := by
  change factor * unitCapacity * (scaler.units : ℚ) * percent / 100 =
    factor * (unitCapacity * (scaler.units : ℚ) * percent / 100)
  ring

variable (positive : 0 < factor) (scaler : Scaler ℚ) (throughput unitCapacity : ℚ)

include positive

theorem wantsUp_convert :
    (scaler.convert factor).wantsUp (factor * unitCapacity) = scaler.wantsUp unitCapacity := by
  unfold wantsUp
  rw [threshold_convert]
  change (_ && decide (_ < (scaler.upWindow.convert factor).mean?.getD Quantity.zero)) = _
  rw [mean_convert, decide_eq_decide.mpr (mul_lt_mul_iff_of_pos_left positive)]
  rfl

theorem wantsDown_convert :
    (scaler.convert factor).wantsDown (factor * unitCapacity) =
      scaler.wantsDown unitCapacity := by
  unfold wantsDown
  rw [threshold_convert]
  change (_ && decide ((scaler.downWindow.convert factor).mean?.getD Quantity.zero < _) && _) = _
  rw [mean_convert, decide_eq_decide.mpr (mul_lt_mul_iff_of_pos_left positive)]
  rfl

/-- The controller compares capacities with means of throughputs, and no count of
records with anything else. -/
theorem observe_convert :
    (scaler.convert factor).observe (factor * throughput) (factor * unitCapacity) =
      (scaler.observe throughput unitCapacity).map id (·.convert factor) := by
  unfold observe
  dsimp only
  rw [record_convert, wantsUp_convert positive, wantsDown_convert positive]
  split
  · rfl
  · split <;> rfl

end Scaler

/-! ### Queues and demand -/

section

variable (positive : 0 < factor)

include positive

namespace Queue

theorem min_convert (left right : ℚ) :
    Quantity.min (factor * left) (factor * right) = factor * Quantity.min left right := by
  rw [Quantity.min_rat, Quantity.min_rat, mul_min_of_nonneg _ _ positive.le]

theorem surplus_convert (amount : ℚ) :
    Quantity.max (factor * amount) Quantity.zero = factor * Quantity.max amount Quantity.zero := by
  rw [Quantity.max_rat, Quantity.max_rat, Quantity.zero_rat, mul_max_of_nonneg _ _ positive.le,
    mul_zero]

theorem drained_convert (amount : ℚ) :
    (factor * amount == Quantity.zero) = (amount == Quantity.zero) := by
  rw [Quantity.zero_rat, Bool.eq_iff_iff, beq_iff_eq, beq_iff_eq, mul_eq_zero,
    or_iff_right positive.ne']

/-- Latencies count time-steps: a backlog in units of a capacity. -/
theorem advance_convert (queue : Queue ℚ) (load : Queue.Load ℚ) :
    (queue.convert factor).advance (load.convert factor) =
      (queue.advance load).map (·.convert factor) (·.convert factor) := by
  unfold advance
  dsimp only [Queue.convert, Load.convert]
  rw [← mul_add, min_convert positive, ← mul_sub, surplus_convert positive,
    drained_convert positive, mul_div_mul_left _ _ positive.ne']
  rfl

end Queue

theorem raiseUnits_convert (incoming unitCapacity : ℚ) (units : Nat) :
    raiseUnits (factor * incoming) (factor * unitCapacity) units =
      raiseUnits incoming unitCapacity units := by
  have short (units : Nat) :
      Quantity.ofNat units * (factor * unitCapacity) < factor * incoming ∧ units < maxUnits ↔
        Quantity.ofNat units * unitCapacity < incoming ∧ units < maxUnits := by
    rw [mul_left_comm]
    exact and_congr_left' (mul_lt_mul_iff_of_pos_left positive)
  induction units using raiseUnits.induct incoming unitCapacity with
  | case1 units less ih =>
      rw [raiseUnits, dif_pos ((short units).mpr less), ih, eq_comm, raiseUnits, dif_pos less]
  | case2 units enough =>
      rw [raiseUnits, dif_neg fun less => enough ((short units).mp less), raiseUnits,
        dif_neg enough]

theorem unitsFor_convert (incoming unitCapacity : ℚ) :
    unitsFor (factor * incoming) (factor * unitCapacity) = unitsFor incoming unitCapacity := by
  unfold unitsFor
  rw [raiseUnits_convert positive, mul_div_mul_left _ _ positive.ne']

end

/-! ### Pipelines -/

namespace SimpleParams

theorem validate_convert (positive : 0 < factor) (params : SimpleParams ℚ) :
    (params.convert factor).validate = .ok () ↔ params.validate = .ok () := by
  rw [validate_eq_ok_iff, validate_eq_ok_iff]
  exact and_congr_left' (mul_pos_iff_of_pos_left positive)

end SimpleParams

namespace ModelParams

theorem kind_convert (params : ModelParams ℚ) : (params.convert factor).kind = params.kind := by
  cases params <;> rfl

theorem validate_convert (positive : 0 < factor) (params : ModelParams ℚ) :
    (params.convert factor).validate = .ok () ↔ params.validate = .ok () := by
  cases params with
  | simple params => exact params.validate_convert positive
  | quickScaling params =>
      refine QuickScalingParams.validate_eq_ok_iff.trans ?_
      refine Iff.trans ?_ QuickScalingParams.validate_eq_ok_iff.symm
      exact and_congr_left' (params.base.validate_convert positive)
  | autoscaling params | autoscalingFine params =>
      refine AutoscalingParams.validate_eq_ok_iff.trans ?_
      refine Iff.trans ?_ AutoscalingParams.validate_eq_ok_iff.symm
      exact and_congr_left' (params.base.validate_convert positive)

end ModelParams

section

variable (positive : 0 < factor) (volume : ℚ)

include positive

theorem SimpleParams.advance_convert (params : SimpleParams ℚ) (queue : Queue ℚ) (units : Nat) :
    (queue.convert factor).advance ((params.convert factor).hourLoad (factor * volume)
        ((params.convert factor).maxRate * Quantity.ofNat units)) =
      (queue.advance (params.hourLoad volume (params.maxRate * Quantity.ofNat units))).map
        (·.convert factor) (·.convert factor) := by
  have capacity : (params.convert factor).maxRate * Quantity.ofNat units =
      factor * (params.maxRate * Quantity.ofNat units) := mul_assoc _ _ _
  rw [capacity]
  exact queue.advance_convert positive (params.hourLoad volume _)

theorem FixedModel.step_convert (model : FixedModel ℚ) :
    (model.convert factor).step (factor * volume) =
      (model.step volume).map (·.convert factor) (·.convert factor) := by
  have served : (model.convert factor).queue.advance ((model.convert factor).params.hourLoad
      (factor * volume) (model.convert factor).params.maxRate) = _ :=
    model.queue.advance_convert positive (model.params.hourLoad volume model.params.maxRate)
  unfold step
  dsimp only
  rw [served]
  rfl

theorem QuickScalingModel.step_convert (model : QuickScalingModel ℚ) :
    (model.convert factor).step (factor * volume) =
      (model.step volume).map (·.convert factor) (·.convert factor) := by
  have units : unitsFor (factor * volume) (model.convert factor).params.base.maxRate = _ :=
    unitsFor_convert positive volume model.params.base.maxRate
  have served : (model.convert factor).queue.advance ((model.convert factor).params.base.hourLoad
      (factor * volume) ((model.convert factor).params.base.maxRate * _)) = _ :=
    model.params.base.advance_convert positive volume model.queue
      (unitsFor volume model.params.base.maxRate)
  unfold step
  dsimp only
  rw [units, served]
  rfl

/-- The hour is served with the units found and observed with what it served. -/
theorem AutoscalingModel.step_convert (model : AutoscalingModel ℚ) :
    (model.convert factor).step (factor * volume) =
      (model.step volume).map (·.convert factor) (·.convert factor) := by
  have served : (model.convert factor).queue.advance ((model.convert factor).params.base.hourLoad
      (factor * volume) ((model.convert factor).params.base.maxRate *
        Quantity.ofNat (model.convert factor).scaler.units)) = _ :=
    model.params.base.advance_convert positive volume model.queue model.scaler.units
  have observed (service : Queue.Service ℚ) :
      (model.convert factor).scaler.observe (service.convert factor).throughput
        (model.convert factor).params.base.maxRate = _ :=
    model.scaler.observe_convert positive service.throughput model.params.base.maxRate
  unfold step
  dsimp only
  rw [served, Prod.map_fst, Prod.map_snd, observed]
  rfl

end

namespace Pipeline

theorem fresh_convert (params : ModelParams ℚ) :
    (params.convert factor).fresh = params.fresh.convert factor := by
  have queue : (Queue.empty : Queue ℚ).convert factor = .empty := by
    unfold Queue.convert Queue.empty
    rw [Quantity.zero_rat, mul_zero]
  have scaler (rule : ScalingRule ℚ) : (Scaler.ofRule rule).convert factor = .ofRule rule := by
    unfold Scaler.convert Scaler.ofRule Window.convert Window.ofCapacity
    dsimp only
    rw [Quantity.zero_rat, mul_zero]
    rfl
  cases params <;>
    simp only [ModelParams.convert, ModelParams.fresh, convert, FixedModel.convert,
      QuickScalingModel.convert, AutoscalingModel.convert, FineModel.convert, queue, scaler]

/-- One step lemma for the three pipelines with hourly steps. -/
theorem step_convert (positive : 0 < factor) {pipeline : Pipeline ℚ}
    (hourly : pipeline.params.kind ≠ .autoscalingFine) (volume : ℚ) :
    (pipeline.convert factor).step (factor * volume) =
      (pipeline.step volume).map (·.convert factor) (·.convert factor) := by
  cases pipeline with
  | fixed model => exact congrArg (Prod.map id fixed) (model.step_convert positive volume)
  | quickScaling model =>
      exact congrArg (Prod.map id quickScaling) (model.step_convert positive volume)
  | autoscaling model =>
      exact congrArg (Prod.map id autoscaling) (model.step_convert positive volume)
  | autoscalingFine model => exact absurd rfl hourly

end Pipeline

end PipelineCapacity
