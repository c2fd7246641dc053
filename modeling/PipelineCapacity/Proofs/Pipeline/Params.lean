import Mathlib.Tactic.NormNum
import PipelineCapacity.Pipeline.Params
import PipelineCapacity.Proofs.Exact

/-!
What validated parameters are, in exact arithmetic: the checks of every kind of
pipeline as plain conditions.
-/

set_option autoImplicit false

namespace PipelineCapacity

private theorem checks_eq_ok_iff {ε : Type} {first second : Except ε Unit} :
    (first >>= fun _ => second) = .ok () ↔ first = .ok () ∧ second = .ok () := by
  cases first with
  | ok => exact ⟨fun passed => ⟨rfl, passed⟩, And.right⟩
  | error fault => exact iff_of_false nofun (fun both => nomatch both.1)

theorem SimpleParams.validate_eq_ok_iff {params : SimpleParams ℚ} :
    params.validate = .ok () ↔
      0 < params.maxRate ∧ 0 ≤ params.unitCost ∧ 0 ≤ params.baseLatency := by
  unfold validate
  rw [checks_eq_ok_iff, checks_eq_ok_iff, requirePositive_rat, requireNonNegative_rat,
    requireNonNegative_rat]

theorem QuickScalingParams.validate_eq_ok_iff {params : QuickScalingParams ℚ} :
    params.validate = .ok () ↔ params.base.validate = .ok () ∧ 0 ≤ params.fixedCost := by
  unfold validate
  rw [checks_eq_ok_iff, requireNonNegative_rat]

theorem AutoscalingParams.validate_eq_ok_iff {params : AutoscalingParams ℚ} :
    params.validate = .ok () ↔
      params.base.validate = .ok () ∧ 0 ≤ params.fixedCost ∧ 0 < params.rule.upPercent ∧
        0 ≤ params.rule.downPercent ∧
        ¬(params.rule.upDelay = 0 ∨ params.rule.downDelay = 0) := by
  unfold validate
  rw [checks_eq_ok_iff, checks_eq_ok_iff, checks_eq_ok_iff, checks_eq_ok_iff,
    requireNonNegative_rat, requirePositive_rat, requireNonNegative_rat]
  by_cases idle : params.rule.upDelay = 0 ∨ params.rule.downDelay = 0
  · rw [if_pos idle]
    simp [idle, throw, throwThe, MonadExceptOf.throw]
  · rw [if_neg idle]
    simp [idle, pure, Except.pure]

theorem ModelParams.maxRate_pos {params : ModelParams ℚ} (valid : params.validate = .ok ()) :
    0 < params.base.maxRate := by
  cases params with
  | simple params => exact (SimpleParams.validate_eq_ok_iff.mp valid).1
  | quickScaling params =>
      have base := (QuickScalingParams.validate_eq_ok_iff.mp valid).1
      exact (SimpleParams.validate_eq_ok_iff.mp base).1
  | autoscaling params =>
      have base := (AutoscalingParams.validate_eq_ok_iff.mp valid).1
      exact (SimpleParams.validate_eq_ok_iff.mp base).1
  | autoscalingFine params =>
      have base := (AutoscalingParams.validate_eq_ok_iff.mp valid).1
      exact (SimpleParams.validate_eq_ok_iff.mp base).1

/-- A unit of one record a second under delays of two hours of seconds. -/
def AutoscalingParams.patient : AutoscalingParams ℚ :=
  { fixedCost := 1 / 2
    rule := { upPercent := 80, upDelay := 7200, downPercent := 20, downDelay := 7200 }
    base := { maxRate := 3600, unitCost := 2, baseLatency := 1, policy := .fifo } }

theorem AutoscalingParams.patient_valid : patient.validate = .ok () := by
  rw [validate_eq_ok_iff, SimpleParams.validate_eq_ok_iff]
  unfold patient
  norm_num

/-- The same unit under delays of one step. -/
def AutoscalingParams.eager : AutoscalingParams ℚ :=
  { patient with rule := { upPercent := 80, upDelay := 1, downPercent := 40, downDelay := 1 } }

theorem AutoscalingParams.eager_valid : eager.validate = .ok () := by
  rw [validate_eq_ok_iff, SimpleParams.validate_eq_ok_iff]
  unfold eager patient
  norm_num

end PipelineCapacity
