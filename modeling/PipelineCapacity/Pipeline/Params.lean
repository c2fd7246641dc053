import PipelineCapacity.Failure
import PipelineCapacity.Scaling.Hysteresis

/-!
Parameters of the four kinds of pipeline and the conditions they have to meet,
with the queueing disciplines they may declare.
-/

set_option autoImplicit false

namespace PipelineCapacity

open Quantity

/-- Queueing discipline a pipeline may declare. It is only recorded; both
latencies are always reported. -/
inductive Policy where
  | fifo
  | lifo
  | random
  deriving DecidableEq, Repr

namespace Policy

def all : List Policy := [fifo, lifo, random]

def default : Policy := fifo

def name : Policy → String
  | fifo => "fifo"
  | lifo => "lifo"
  | random => "random"

/-- Exact names only. -/
def ofName? (name : String) : Option Policy := all.find? fun policy => policy.name == name

theorem ofName?_name (policy : Policy) : ofName? policy.name = some policy := by
  cases policy <;> decide

end Policy

/-- One pipeline unit: records per hour it can process, its cost per hour and
its latency without queueing. -/
structure SimpleParams (α : Type) where
  maxRate : α
  unitCost : α
  baseLatency : α
  policy : Policy

/-- Units that match the demand of every hour. -/
structure QuickScalingParams (α : Type) where
  fixedCost : α
  base : SimpleParams α

/-- Units under the hysteresis controller. Delays count the time-steps of the
pipeline: hours, or seconds for the fine one. -/
structure AutoscalingParams (α : Type) where
  fixedCost : α
  rule : ScalingRule α
  base : SimpleParams α

inductive ModelParams (α : Type) where
  | simple (params : SimpleParams α)
  | quickScaling (params : QuickScalingParams α)
  | autoscaling (params : AutoscalingParams α)
  | autoscalingFine (params : AutoscalingParams α)

/-- The kinds of pipeline, apart from their parameters. -/
inductive ModelType where
  | simple
  | quickScaling
  | autoscaling
  | autoscalingFine
  deriving DecidableEq, Repr

namespace ModelType

def all : List ModelType := [simple, quickScaling, autoscaling, autoscalingFine]

def tag : ModelType → String
  | simple => "simple"
  | quickScaling => "quickscaling"
  | autoscaling => "autoscaling"
  | autoscalingFine => "autoscaling_fine"

def ofTag? (tag : String) : Option ModelType := all.find? fun kind => kind.tag == tag

end ModelType

def Policy.parse {α : Type} (token : String) : Except (Failure α) Policy :=
  match Policy.ofName? token with
  | some policy => .ok policy
  | none => .error (.invalidPolicy token)

variable {α : Type} [Quantity α]

namespace SimpleParams

def validate (params : SimpleParams α) : Except (InvalidParameter α) Unit := do
  requirePositive "maxrate_rph" params.maxRate
  requireNonNegative "per_vm_hourcost" params.unitCost
  requireNonNegative "avg_latency_s" params.baseLatency

/-- Validated parameters with the policy given by name. -/
def create (maxRate unitCost baseLatency : α) (token : String) :
    Except (Failure α) (SimpleParams α) := do
  let policy ← Policy.parse token
  let params : SimpleParams α := { maxRate, unitCost, baseLatency, policy }
  refuse params.validate
  return params

end SimpleParams

def QuickScalingParams.validate (params : QuickScalingParams α) :
    Except (InvalidParameter α) Unit := do
  params.base.validate
  requireNonNegative "fixed_hourcost" params.fixedCost

def AutoscalingParams.validate (params : AutoscalingParams α) :
    Except (InvalidParameter α) Unit := do
  params.base.validate
  requireNonNegative "fixed_hourcost" params.fixedCost
  requirePositive "up_pct_trigger" params.rule.upPercent
  requireNonNegative "down_pct_trigger" params.rule.downPercent
  if params.rule.upDelay = 0 ∨ params.rule.downDelay = 0 then
    throw (.scalingDelays params.rule.upDelay params.rule.downDelay)

namespace ModelParams

omit [Quantity α] in
def kind : ModelParams α → ModelType
  | simple _ => .simple
  | quickScaling _ => .quickScaling
  | autoscaling _ => .autoscaling
  | autoscalingFine _ => .autoscalingFine

omit [Quantity α] in
def base : ModelParams α → SimpleParams α
  | simple params => params
  | quickScaling params => params.base
  | autoscaling params | autoscalingFine params => params.base

def validate : ModelParams α → Except (InvalidParameter α) Unit
  | simple params => params.validate
  | quickScaling params => params.validate
  | autoscaling params | autoscalingFine params => params.validate

end ModelParams

end PipelineCapacity
