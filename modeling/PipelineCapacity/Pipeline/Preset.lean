import PipelineCapacity.Pipeline.Params

/-!
Ready-made parameters of common pipelines, and parameters measured in one
experiment.
-/

set_option autoImplicit false

namespace PipelineCapacity

open Quantity

variable {α : Type} [Quantity α]

namespace ModelParams

/-- Parameters that passed their validation. -/
def validated (params : ModelParams α) : Except (Failure α) (ModelParams α) := do
  refuse params.validate
  return params

def fixedSize (maxRate unitCost baseLatency : α) (token : String) :
    Except (Failure α) (ModelParams α) :=
  (SimpleParams.create maxRate unitCost baseLatency token).map simple

def instantScaling (fixedCost : α) (base : SimpleParams α) :
    Except (Failure α) (ModelParams α) :=
  validated (quickScaling { fixedCost, base })

/-- Up after two hours above 80 %, down after two hours below 20 %. -/
def usualRule : ScalingRule α :=
  { upPercent := ofNat 80, upDelay := 2, downPercent := ofNat 20, downDelay := 2 }

def hourlyScaling (fixedCost : α) (base : SimpleParams α) :
    Except (Failure α) (ModelParams α) :=
  validated (autoscaling { fixedCost, rule := usualRule, base })

def secondlyScaling (fixedCost : α) (base : SimpleParams α) (rule : ScalingRule α) :
    Except (Failure α) (ModelParams α) :=
  validated (autoscalingFine { fixedCost, rule, base })

end ModelParams

/-- One measured experiment: the records injected, how long it took, what it
cost and the mean latency. -/
structure Experiment (α : Type) where
  records : α
  span : α
  cost : α
  latency : α

/-- The rate is what the pipeline sustained, and the hourly cost is the cost of
the experiment spread over its duration. -/
def Experiment.calibrate (experiment : Experiment α) (token : String) :
    Except (Failure α) (SimpleParams α) := do
  refuse (requirePositive "experiment span" experiment.span)
  refuse (requireNonNegative "records injected" experiment.records)
  refuse (requireNonNegative "experiment cost" experiment.cost)
  let hours := experiment.span / ofNat secondsPerHour
  let policy ← Policy.parse token
  let params : SimpleParams α :=
    { maxRate := experiment.records / hours
      unitCost := experiment.cost / hours
      baseLatency := experiment.latency
      policy }
  refuse params.validate
  return params

end PipelineCapacity
