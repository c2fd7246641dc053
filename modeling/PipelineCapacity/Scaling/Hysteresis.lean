import PipelineCapacity.Scaling.Window

/-!
The hysteresis controller that sizes a pipeline.

It keeps one window of recent throughput for each direction. Going up needs
the mean of the up window above a percentage of the present capacity and
enough steps since the last action; going down needs the mean of the down
window below a percentage and at least two units. Up is tried first, and a
step takes at most one action.
-/

set_option autoImplicit false

namespace PipelineCapacity

open Quantity

inductive Direction where
  | up
  | down
  | maintain
  deriving DecidableEq, Repr

namespace Direction

/-- Direction of a change in the count of units. -/
def between (before after : Nat) : Direction :=
  if before < after then up else if after < before then down else maintain

def label : Direction → String
  | up => "Up"
  | down => "Down"
  | maintain => "Maintain"

def all : List Direction := [up, down, maintain]

end Direction

/-- Percentages of capacity that trigger an action, and how many steps each
direction waits and averages over. -/
structure ScalingRule (α : Type) where
  upPercent : α
  upDelay : Nat
  downPercent : α
  downDelay : Nat

structure Scaler (α : Type) where
  rule : ScalingRule α
  upWindow : Window α
  downWindow : Window α
  units : Nat
  /-- Steps since the last action. -/
  since : Nat

namespace Scaler

variable {α : Type} [Quantity α]

def ofRule (rule : ScalingRule α) : Scaler α :=
  { rule
    upWindow := .ofCapacity rule.upDelay
    downWindow := .ofCapacity rule.downDelay
    units := 1
    since := 0 }

def reset (scaler : Scaler α) : Scaler α :=
  { scaler with
    upWindow := scaler.upWindow.clear
    downWindow := scaler.downWindow.clear
    units := 1
    since := 0 }

/-- Records the throughput of a step in both windows. -/
def record (scaler : Scaler α) (throughput : α) : Scaler α :=
  { scaler with
    upWindow := scaler.upWindow.push throughput
    downWindow := scaler.downWindow.push throughput
    since := scaler.since + 1 }

def upMean (scaler : Scaler α) : α := scaler.upWindow.mean?.getD zero

def downMean (scaler : Scaler α) : α := scaler.downWindow.mean?.getD zero

/-- What one unit serves per step, times the units in force. -/
def capacity (scaler : Scaler α) (unitCapacity : α) : α :=
  unitCapacity * ofNat scaler.units

def wantsUp (scaler : Scaler α) (unitCapacity : α) : Bool :=
  scaler.since ≥ scaler.rule.upDelay
    && scaler.capacity unitCapacity * scaler.rule.upPercent / ofNat 100 < scaler.upMean

def wantsDown (scaler : Scaler α) (unitCapacity : α) : Bool :=
  scaler.since ≥ scaler.rule.downDelay
    && scaler.downMean < scaler.capacity unitCapacity * scaler.rule.downPercent / ofNat 100
    && scaler.units > 1

/-- Records one step's throughput and takes at most one action. -/
def observe (scaler : Scaler α) (throughput unitCapacity : α) : Direction × Scaler α :=
  let scaler := scaler.record throughput
  if scaler.wantsUp unitCapacity then
    (.up, { scaler with units := Nat.min (scaler.units + 1) maxUnits, since := 0 })
  else if scaler.wantsDown unitCapacity then
    (.down, { scaler with units := scaler.units - 1, since := 0 })
  else
    (.maintain, scaler)

end Scaler

end PipelineCapacity
