import Mathlib.Algebra.Order.Floor.Semiring
import PipelineCapacity.Proofs.Pipeline.Conservation

/-!
The pipeline that scales to every hour's demand, in exact arithmetic.

The units it runs are the fewest that serve the hour, as long as so many can be
counted at all. They leave nothing waiting, so every hour finds the queue of a
new pipeline and what an hour reports depends on its own volume alone.
-/

set_option autoImplicit false

namespace PipelineCapacity

open Quantity (ofNat)

section AnyArithmetic

variable {α : Type} [Quantity α] {incoming unitCapacity : α} {units : Nat}

theorem raiseUnits_of_enough (enough : ¬ofNat units * unitCapacity < incoming) :
    raiseUnits incoming unitCapacity units = units := by
  rw [raiseUnits, dif_neg fun short => enough short.1]

theorem raiseUnits_le (counted : units ≤ maxUnits) :
    raiseUnits incoming unitCapacity units ≤ maxUnits := by
  induction units using raiseUnits.induct incoming unitCapacity with
  | case1 units short ih =>
      rw [raiseUnits, dif_pos short]
      exact ih short.2
  | case2 units enough =>
      rw [raiseUnits, dif_neg enough]
      exact counted

/-- The count is raised until it is enough or cannot be raised. -/
theorem raiseUnits_enough (counted : units ≤ maxUnits) :
    ¬ofNat (raiseUnits incoming unitCapacity units) * unitCapacity < incoming ∨
      raiseUnits incoming unitCapacity units = maxUnits := by
  induction units using raiseUnits.induct incoming unitCapacity with
  | case1 units short ih =>
      rw [raiseUnits, dif_pos short]
      exact ih short.2
  | case2 units enough =>
      rw [raiseUnits, dif_neg enough]
      by_cases room : units < maxUnits
      · exact .inl fun short => enough ⟨short, room⟩
      · exact .inr (Nat.le_antisymm counted (Nat.le_of_not_lt room))

theorem toUnits_le (amount : α) : Quantity.toUnits amount ≤ maxUnits := Nat.min_le_right _ _

theorem unitsFor_le (incoming unitCapacity : α) : unitsFor incoming unitCapacity ≤ maxUnits :=
  raiseUnits_le (toUnits_le _)

/-- Whatever the demand, the units are not short of it or as many as can be counted. -/
theorem unitsFor_enough (incoming unitCapacity : α) :
    ¬ofNat (unitsFor incoming unitCapacity) * unitCapacity < incoming ∨
      unitsFor incoming unitCapacity = maxUnits :=
  raiseUnits_enough (toUnits_le _)

end AnyArithmetic

/-- The fewest units, at least one, that serve a volume in one hour. -/
def fewestUnits (volume rate : ℚ) : Nat := Max.max 1 ⌈volume / rate⌉₊

theorem fewestUnits_isLeast {volume rate : ℚ} (rate_pos : 0 < rate) :
    IsLeast {units : Nat | 1 ≤ units ∧ volume ≤ units * rate} (fewestUnits volume rate) := by
  constructor
  · refine ⟨Nat.le_max_left _ _, (div_le_iff₀ rate_pos).mp ?_⟩
    exact Nat.ceil_le.mp (Nat.le_max_right _ _)
  · rintro units ⟨several, enough⟩
    exact Nat.max_le.mpr ⟨several, Nat.ceil_le.mpr ((div_le_iff₀ rate_pos).mpr enough)⟩

theorem fewestUnits_le {volume rate : ℚ} (rate_pos : 0 < rate)
    (servable : volume ≤ rate * maxUnits) : fewestUnits volume rate ≤ maxUnits := by
  refine (fewestUnits_isLeast rate_pos).2 ⟨by decide, ?_⟩
  rwa [mul_comm]

/-- In exact arithmetic the quotient rounded up is already enough. -/
theorem unitsFor_eq_fewestUnits {volume rate : ℚ} (rate_pos : 0 < rate) (nonneg : 0 ≤ volume)
    (servable : volume ≤ rate * maxUnits) :
    unitsFor volume rate = fewestUnits volume rate := by
  have counted := fewestUnits_le rate_pos servable
  have whole : ⌊Max.max (Quantity.ceil (volume / rate)) (1 : ℚ)⌋.toNat =
      fewestUnits volume rate := by
    have ceil_nonneg : 0 ≤ ⌈volume / rate⌉ := Int.ceil_nonneg (div_nonneg nonneg rate_pos.le)
    have rounded : Max.max (Quantity.ceil (volume / rate)) (1 : ℚ) =
        ((fewestUnits volume rate : ℤ) : ℚ) := by
      rw [Quantity.ceil_rat, fewestUnits, Nat.cast_max, Nat.cast_one, Int.cast_max, Int.cast_one,
        max_comm, ← Int.ceil_toNat, Int.toNat_of_nonneg ceil_nonneg]
    rw [rounded, Int.floor_intCast, Int.toNat_natCast]
  have guess : Quantity.toUnits (Quantity.max (Quantity.ceil (volume / rate)) Quantity.one) =
      fewestUnits volume rate := by
    rw [Quantity.max_rat, Quantity.one_rat, Quantity.toUnits, Quantity.truncate_rat, whole]
    change min (min _ maxWhole) maxUnits = _
    rw [min_eq_left (counted.trans (by decide)), min_eq_left counted]
  unfold unitsFor
  rw [guess]
  exact raiseUnits_of_enough (not_lt.mpr (fewestUnits_isLeast rate_pos).1.2)

theorem Queue.advance_empty (load : Queue.Load ℚ) (servable : load.incoming ≤ load.capacity) :
    Queue.empty.advance load =
      (⟨load.incoming, load.baseLatency, load.baseLatency, 0⟩, Queue.empty) := by
  have vacant : (Queue.empty : Queue ℚ).backlog = 0 := Quantity.zero_rat
  have backlog : (Queue.empty.advance load).2.backlog = 0 := by
    rw [advance_backlog, vacant, zero_add]
    exact max_eq_right (sub_nonpos.mpr servable)
  have age : (Queue.empty.advance load).2.oldestAge = 0 := by
    rw [advance_oldestAge, if_pos backlog]
  have throughput : (Queue.empty.advance load).1.throughput = load.incoming := by
    rw [advance_throughput, vacant, zero_add]
    exact min_eq_left servable
  have latencyFifo : (Queue.empty.advance load).1.latencyFifo = load.baseLatency := by
    change load.baseLatency + (Queue.empty : Queue ℚ).backlog / load.capacity = _
    rw [vacant, zero_div, add_zero]
  have latencyLifo : (Queue.empty.advance load).1.latencyLifo = load.baseLatency := by
    change load.baseLatency + (Queue.empty.advance load).2.oldestAge = _
    rw [age, add_zero]
  refine Prod.ext ?_ (Queue.ext (backlog.trans vacant.symm) (age.trans Quantity.zero_rat.symm))
  change Queue.Service.mk _ _ _ (Queue.empty.advance load).2.backlog = _
  rw [backlog]
  exact congr (congr (congr (congrArg Queue.Service.mk throughput) latencyFifo) latencyLifo) rfl

namespace QuickScalingParams

variable {params : QuickScalingParams ℚ}

/-- What an hour reports that serves its volume on the fewest units. -/
def demandReport (params : QuickScalingParams ℚ) (volume : ℚ) : StepMetrics ℚ :=
  let units := fewestUnits volume params.base.maxRate
  { throughput := volume
    latencyFifo := params.base.baseLatency
    latencyLifo := params.base.baseLatency
    backlog := 0
    cost := params.fixedCost + params.base.unitCost * units
    units }

def Servable (params : QuickScalingParams ℚ) (volume : ℚ) : Prop :=
  0 ≤ volume ∧ volume ≤ params.base.maxRate * (2 ^ 32 - 1)

theorem step_of_vacant (rate_pos : 0 < params.base.maxRate) {model : QuickScalingModel ℚ}
    (sameParams : model.params = params) (vacant : model.queue = .empty) {volume : ℚ}
    (servable : params.Servable volume) :
    (model.step volume).1 = params.demandReport volume ∧ (model.step volume).2.queue = .empty := by
  obtain ⟨nonneg, bounded⟩ := servable
  have counted : volume ≤ params.base.maxRate * maxUnits := by
    rw [maxUnits]
    norm_num at bounded ⊢
    exact bounded
  have units := unitsFor_eq_fewestUnits rate_pos nonneg counted
  have enough : volume ≤ params.base.maxRate * (fewestUnits volume params.base.maxRate : ℚ) := by
    rw [mul_comm]
    exact (fewestUnits_isLeast rate_pos).1.2
  have served := Queue.advance_empty (params.base.hourLoad volume
    (params.base.maxRate * (fewestUnits volume params.base.maxRate : ℚ))) enough
  unfold QuickScalingModel.step
  dsimp only
  rw [sameParams, vacant, units, Quantity.ofNat_rat, served]
  exact ⟨rfl, rfl⟩

/-- A vacant queue is what every hour finds and leaves. -/
theorem reports_of_vacant (rate_pos : 0 < params.base.maxRate) {model : QuickScalingModel ℚ}
    (sameParams : model.params = params) (vacant : model.queue = .empty) {volumes : List ℚ}
    (servable : ∀ volume ∈ volumes, params.Servable volume) :
    (Pipeline.quickScaling model).reports volumes = volumes.map params.demandReport ∧
      ((Pipeline.quickScaling model).after volumes).queue = .empty := by
  induction volumes generalizing model with
  | nil => exact ⟨rfl, vacant⟩
  | cons volume rest ih =>
      obtain ⟨report, left⟩ :=
        step_of_vacant rate_pos sameParams vacant (servable volume List.mem_cons_self)
      have kept : (model.step volume).2.params = params := sameParams
      obtain ⟨reports, ended⟩ :=
        ih kept left fun other member => servable other (List.mem_cons_of_mem _ member)
      refine ⟨?_, ended⟩
      change (model.step volume).1 :: (Pipeline.quickScaling (model.step volume).2).reports rest = _
      rw [report, reports, List.map_cons]

/-- Validated parameters make a pipeline, which every reset restores. Over
volumes that can be served each of its hours reports what the volume of that
hour alone demands, on the fewest units that serve it, and leaves nothing
waiting. The units for any demand serve it or are as many as can be counted. -/
theorem never_backlogs :
    (∀ params : QuickScalingParams ℚ, params.validate = .ok () →
      ∃ start, Pipeline.ofParams (.quickScaling params) = .ok start ∧
        (∀ used, Pipeline.Reached (.quickScaling params) used → used.reset = start) ∧
        ∀ volumes : List ℚ, (∀ volume ∈ volumes, params.Servable volume) →
          start.reports volumes = volumes.map params.demandReport ∧
          (∀ done, done <+: volumes → (start.after done).queue = .empty) ∧
          ∀ volume ∈ volumes,
            IsLeast {units : Nat | 1 ≤ units ∧ volume ≤ units * params.base.maxRate}
              (params.demandReport volume).units) ∧
      ∀ incoming unitCapacity : ℚ, 0 ≤ incoming → 0 < unitCapacity →
        1 ≤ unitsFor incoming unitCapacity ∧ unitsFor incoming unitCapacity ≤ maxUnits ∧
          (incoming ≤ unitsFor incoming unitCapacity * unitCapacity ∨
            unitsFor incoming unitCapacity = maxUnits) := by
  constructor
  · intro params valid
    have rate_pos : 0 < params.base.maxRate :=
      (SimpleParams.validate_eq_ok_iff.mp (validate_eq_ok_iff.mp valid).1).1
    refine ⟨_, Pipeline.ofParams_of_valid valid, fun used reached => reached.reset_eq, ?_⟩
    intro volumes servable
    refine ⟨(reports_of_vacant rate_pos rfl rfl servable).1, ?_, ?_⟩
    · intro done early
      exact (reports_of_vacant rate_pos rfl rfl fun volume member =>
        servable volume (early.subset member)).2
    · intro volume _
      exact fewestUnits_isLeast rate_pos
  · intro incoming unitCapacity _ _
    exact ⟨one_le_unitsFor incoming unitCapacity, unitsFor_le incoming unitCapacity,
      (unitsFor_enough incoming unitCapacity).imp_left not_lt.mp⟩

/-- As many units of one record a second as every hour needs. -/
def brisk : QuickScalingParams ℚ := { fixedCost := 1 / 2, base := AutoscalingParams.patient.base }

/-- No demand, a demand that two units serve exactly, and one record more. -/
theorem never_backlogs_brisk :
    brisk.validate = .ok () ∧ (∀ volume ∈ [(0 : ℚ), 7200, 7201], brisk.Servable volume) ∧
      (∃ start, Pipeline.ofParams (.quickScaling brisk) = .ok start ∧
        (start.reports [0, 7200, 7201]).map (·.units) = [1, 2, 3] ∧
        (start.reports [0, 7200, 7201]).map (·.backlog) = [0, 0, 0] ∧
        (start.after [0, 7200, 7201]).queue = .empty) ∧
      unitsFor (7201 : ℚ) 3600 ≤ maxUnits := by
  have valid : brisk.validate = .ok () := by
    rw [validate_eq_ok_iff, SimpleParams.validate_eq_ok_iff]
    norm_num [brisk, AutoscalingParams.patient]
  have servable : ∀ volume ∈ [(0 : ℚ), 7200, 7201], brisk.Servable volume := by
    norm_num [Servable, brisk, AutoscalingParams.patient]
  obtain ⟨runs, counts⟩ := never_backlogs
  obtain ⟨start, created, _, hours⟩ := runs brisk valid
  obtain ⟨reports, vacant, _⟩ := hours _ servable
  refine ⟨valid, servable, ⟨start, created, ?_, ?_, vacant _ List.prefix_rfl⟩,
    (counts 7201 3600 (by norm_num) (by norm_num)).2.1⟩
  · rw [reports]
    have last : ⌈(7201 / 3600 : ℚ)⌉₊ = 3 := (Nat.ceil_eq_iff (by decide)).mpr (by norm_num)
    norm_num [demandReport, fewestUnits, brisk, AutoscalingParams.patient, last]
  · rw [reports]
    rfl

end QuickScalingParams

end PipelineCapacity
