import PipelineCapacity.Proofs.Pipeline.Hour
import PipelineCapacity.Proofs.Scaling.Decision

/-!
Pipelines step after step, in any arithmetic. No step touches the parameters or
what the scaler was built with, so wherever steps and resets have led a
pipeline, one more reset leads it back to the new pipeline of its parameters.
-/

set_option autoImplicit false

namespace PipelineCapacity

open Quantity (zero)

variable {α : Type} [Quantity α]

/-- The new pipeline of some parameters: empty queue, one unit, no cost. -/
def ModelParams.fresh : ModelParams α → Pipeline α
  | .simple params => .fixed { params, queue := .empty, totalCost := zero }
  | .quickScaling params =>
      .quickScaling { params, queue := .empty, units := 1, totalCost := zero }
  | .autoscaling params =>
      .autoscaling { params, queue := .empty, scaler := .ofRule params.rule, totalCost := zero }
  | .autoscalingFine params =>
      .autoscalingFine
        { params, queue := .empty, scaler := .ofRule params.rule, totalCost := zero }

theorem FineModel.Hour.pass_fits {params : AutoscalingParams α} {rate : α}
    {rule : ScalingRule α} {hour : Hour α} (fits : hour.scaler.Fits rule) (records : List α) :
    (hour.pass params rate records).scaler.Fits rule := by
  induction records generalizing hour with
  | nil => exact fits
  | cons record rest ih => exact @ih (hour.second params rate record) (fits.observe _ rate)

theorem FineModel.step_fits {model : FineModel α} {rule : ScalingRule α}
    (fits : model.scaler.Fits rule) (incoming : α) :
    (model.step incoming).2.scaler.Fits rule := by
  have begun : (Hour.start model).scaler.Fits rule := fits
  rw [step_scaler, hourAfter_end]
  exact Hour.pass_fits begun (spreadOverSeconds incoming)

namespace Pipeline

def after (pipeline : Pipeline α) (volumes : List α) : Pipeline α :=
  volumes.foldl (fun pipeline volume => (pipeline.step volume).2) pipeline

def reports (pipeline : Pipeline α) : List α → List (StepMetrics α)
  | [] => []
  | volume :: rest => (pipeline.step volume).1 :: (pipeline.step volume).2.reports rest

theorem after_cons (pipeline : Pipeline α) (volume : α) (rest : List α) :
    pipeline.after (volume :: rest) = (pipeline.step volume).2.after rest := rfl

theorem step_autoscalingFine (model : FineModel α) (volume : α) :
    ((autoscalingFine model).step volume).1 = (model.step volume).1 ∧
      ((autoscalingFine model).step volume).2 = autoscalingFine (model.step volume).2 :=
  ⟨rfl, rfl⟩

omit [Quantity α] in
theorem units_autoscalingFine (model : FineModel α) :
    (autoscalingFine model).units = model.scaler.units := rfl

omit [Quantity α] in
theorem queue_autoscalingFine (model : FineModel α) :
    (autoscalingFine model).queue = model.queue := rfl

omit [Quantity α] in
theorem totalCost_autoscalingFine (model : FineModel α) :
    (autoscalingFine model).totalCost = model.totalCost := rfl

theorem step_params (pipeline : Pipeline α) (volume : α) :
    (pipeline.step volume).2.params = pipeline.params := by
  cases pipeline with
  | fixed model => rfl
  | quickScaling model => rfl
  | autoscaling model => rfl
  | autoscalingFine model =>
      rw [(step_autoscalingFine model volume).2]
      exact congrArg ModelParams.autoscalingFine (model.step_params volume)

theorem reset_params (pipeline : Pipeline α) : pipeline.reset.params = pipeline.params := by
  cases pipeline <;> rfl

theorem reset_queue (pipeline : Pipeline α) : pipeline.reset.queue = .empty := by
  cases pipeline <;> rfl

theorem reset_units (pipeline : Pipeline α) : pipeline.reset.units = 1 := by
  cases pipeline <;> rfl

theorem reset_totalCost (pipeline : Pipeline α) : pipeline.reset.totalCost = zero := by
  cases pipeline <;> rfl

theorem ofParams_eq (params : ModelParams α) :
    ofParams params = params.validate.map fun _ => params.fresh := by
  cases params with
  | simple params =>
      change (FixedModel.create params).map fixed = params.validate.map _
      unfold FixedModel.create
      cases params.validate <;> rfl
  | quickScaling params =>
      change (QuickScalingModel.create params).map quickScaling = params.validate.map _
      unfold QuickScalingModel.create
      cases params.validate <;> rfl
  | autoscaling params =>
      change (AutoscalingModel.create params).map autoscaling = params.validate.map _
      unfold AutoscalingModel.create
      cases params.validate <;> rfl
  | autoscalingFine params =>
      change (FineModel.create params).map autoscalingFine = params.validate.map _
      unfold FineModel.create
      cases params.validate <;> rfl

theorem ofParams_eq_ok_iff {params : ModelParams α} {pipeline : Pipeline α} :
    ofParams params = .ok pipeline ↔ params.validate = .ok () ∧ pipeline = params.fresh := by
  rw [ofParams_eq]
  cases params.validate with
  | ok =>
      constructor
      · intro created
        exact ⟨rfl, (Except.ok.inj created).symm⟩
      · rintro ⟨_, rfl⟩
        rfl
  | error fault => exact iff_of_false nofun nofun

theorem ofParams_of_valid {params : ModelParams α} (valid : params.validate = .ok ()) :
    ofParams params = .ok params.fresh :=
  ofParams_eq_ok_iff.mpr ⟨valid, rfl⟩

theorem eq_fresh_of_ofParams {params : ModelParams α} {pipeline : Pipeline α}
    (created : ofParams params = .ok pipeline) : pipeline = params.fresh :=
  (ofParams_eq_ok_iff.mp created).2

theorem fresh_params (params : ModelParams α) : params.fresh.params = params := by
  cases params <;> rfl

/-- Pipelines that steps and resets make of the new pipeline of the parameters. -/
inductive Reached (params : ModelParams α) : Pipeline α → Prop
  | new {pipeline : Pipeline α} (created : ofParams params = .ok pipeline) :
      Reached params pipeline
  | step {pipeline : Pipeline α} (reached : Reached params pipeline) (volume : α) :
      Reached params (pipeline.step volume).2
  | reset {pipeline : Pipeline α} (reached : Reached params pipeline) :
      Reached params pipeline.reset

def Fits : Pipeline α → Prop
  | fixed _ | quickScaling _ => True
  | autoscaling model => model.scaler.Fits model.params.rule
  | autoscalingFine model => model.scaler.Fits model.params.rule

theorem fits_fresh (params : ModelParams α) : params.fresh.Fits := by
  cases params with
  | simple params => trivial
  | quickScaling params => trivial
  | autoscaling params => exact Scaler.fits_ofRule params.rule
  | autoscalingFine params => exact Scaler.fits_ofRule params.rule

theorem Fits.step {pipeline : Pipeline α} (fits : pipeline.Fits) (volume : α) :
    (pipeline.step volume).2.Fits := by
  cases pipeline with
  | fixed model => trivial
  | quickScaling model => trivial
  | autoscaling model =>
      exact Scaler.Fits.observe fits (model.queue.advance _).1.throughput _
  | autoscalingFine model =>
      have kept : (model.step volume).2.scaler.Fits (model.step volume).2.params.rule := by
        rw [FineModel.step_params]
        exact FineModel.step_fits fits volume
      rw [(step_autoscalingFine model volume).2]
      exact kept

theorem Fits.reset_eq {pipeline : Pipeline α} (fits : pipeline.Fits) :
    pipeline.reset = pipeline.params.fresh := by
  cases pipeline with
  | fixed model => rfl
  | quickScaling model => rfl
  | autoscaling model =>
      change autoscaling ⟨model.params, .empty, model.scaler.reset, zero⟩ = _
      rw [Scaler.Fits.reset_eq fits]
      rfl
  | autoscalingFine model =>
      change autoscalingFine ⟨model.params, .empty, model.scaler.reset, zero⟩ = _
      rw [Scaler.Fits.reset_eq fits]
      rfl

theorem Reached.fits {params : ModelParams α} {pipeline : Pipeline α}
    (reached : Reached params pipeline) : pipeline.params = params ∧ pipeline.Fits := by
  induction reached with
  | new created =>
      rw [eq_fresh_of_ofParams created]
      exact ⟨fresh_params params, fits_fresh params⟩
  | step _ volume ih => exact ⟨(step_params _ volume).trans ih.1, ih.2.step volume⟩
  | reset _ ih =>
      refine ⟨(reset_params _).trans ih.1, ?_⟩
      rw [ih.2.reset_eq]
      exact fits_fresh _

/-- A reset leads back to the new pipeline, whatever came before. -/
theorem Reached.reset_eq {params : ModelParams α} {pipeline : Pipeline α}
    (reached : Reached params pipeline) : pipeline.reset = params.fresh := by
  rw [reached.fits.2.reset_eq, reached.fits.1]

end Pipeline

end PipelineCapacity
