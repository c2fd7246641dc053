import PipelineCapacity.Failure
import PipelineCapacity.Forecast.Corrections
import PipelineCapacity.Forecast.Series

/-!
Traffic models: a base volume, a yearly growth rate and two correction tables,
from which a forecast over a range of days is generated. The growth of one
month is applied to every hour of the range.
-/

set_option autoImplicit false

namespace PipelineCapacity

open Quantity

/-- The growth of one month at a yearly growth rate. -/
class MonthlyGrowth (α : Type) where
  monthlyGrowth : α → α

/-- The twelfth root. -/
instance : MonthlyGrowth Float where
  monthlyGrowth rate := rate.pow (1.0 / 12.0)

structure TrafficModel (α : Type) where
  name : String
  baseVolume : α
  yearlyGrowth : α
  monthly : MonthlyCorrections α
  hourly : HourlyCorrections α

namespace TrafficModel

variable {α : Type} [Quantity α]

omit [Quantity α] in
/-- A model without corrections. -/
def plain (name : String) (baseVolume yearlyGrowth : α) : TrafficModel α :=
  { name, baseVolume, yearlyGrowth, monthly := .empty, hourly := .empty }

def validate (model : TrafficModel α) : Except (InvalidParameter α) Unit := do
  requireNonNegative "base_volume" model.baseVolume
  requireNonNegative "yearly_growth_rate" model.yearlyGrowth

/-- The row of one hour, given the growth of one month. -/
def row (model : TrafficModel α) (growth : α) (slot : Slot) : ForecastRow α :=
  let monthlyVolume := model.baseVolume * model.monthly.factor slot.month * growth
  { slot
    baseVolume := model.baseVolume
    monthlyVolume
    hourlyVolume := monthlyVolume * model.hourly.factor slot.weekday slot.hour }

/-- The forecast of every hour from one day to another, both included. -/
def generate [MonthlyGrowth α] (model : TrafficModel α) (first last : Date) :
    Except (Failure α) (Forecast α) := do
  refuse model.validate
  if last < first then throw (.ofDates first last)
  let growth := MonthlyGrowth.monthlyGrowth model.yearlyGrowth
  return ⟨(Slot.timeline first last).map (model.row growth)⟩

end TrafficModel

/-- Every hour from one day to another, refused when they are out of order. -/
def hourlyTimeline {α : Type} (first last : Date) : Except (Failure α) (List Slot) :=
  if last < first then .error (.ofDates first last) else .ok (Slot.timeline first last)

end PipelineCapacity
