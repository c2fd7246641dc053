import PipelineCapacity.Proofs.Forecast.Entries
import PipelineCapacity.Proofs.Forecast.Volumes

/-!
Generated forecasts hour by hour. An hour takes its volumes from its own date
and from nothing before it, so a range of dates may be cut after any day. Its
two correction factors are looked up under its month and under its hour of the
week, so a factor tells on the hours of its key alone.
-/

set_option autoImplicit false

namespace PipelineCapacity

open Quantity (one zero)

namespace Date

end Date

namespace Slot

/-- A timeline has a date every twenty-four hours, under the date's true month
and weekday. -/
theorem ofDate_of_getElem?_timeline {first last : Date} (ordered : first ≤ last)
    {position : Nat} {slot : Slot} (there : (timeline first last)[position]? = some slot) :
    ∃ date : Date, date.dayNumber = first.dayNumber + position / 24 ∧
      slot = .ofDate date (position % 24) := by
  obtain ⟨rest, hours⟩ := exists_timeline_cons ordered
  have chain := timeline_isChain first last
  rw [hours] at chain there
  obtain ⟨date, hour, inDay, found, number⟩ := number_of_isChain chain (Nat.zero_le 23) there
  refine ⟨date, by omega, ?_⟩
  rw [found, show hour = position % 24 by omega]

end Slot

/-- What a correction factor is entered under, in either table. -/
inductive CorrectionKey where
  | month (number : Nat)
  | hour (weekday : Weekday) (hourOfDay : Nat)

/-- The hours of the calendar that a key is meant for. -/
def CorrectionKey.Covers : CorrectionKey → Date → Nat → Prop
  | .month number, date, _ => date.month = number
  | .hour weekday expected, date, actual => date.weekday = weekday ∧ actual = expected

namespace TrafficModel

variable {α : Type} [Quantity α] {left right : TrafficModel α} {key : CorrectionKey}
  {date : Date} {hour : Nat}

omit [Quantity α] in
/-- The factor entered under a key. -/
def correction? (model : TrafficModel α) : CorrectionKey → Option α
  | .month number => model.monthly.factors.find? number
  | .hour weekday hourOfDay => model.hourly.factors.find? ⟨weekday, hourOfDay⟩

/-- A missing factor counts as one. -/
def correction (model : TrafficModel α) (key : CorrectionKey) : α :=
  (model.correction? key).getD one

/-- Same volume, same growth and same factors but for those under one key. -/
structure AgreeBut (key : CorrectionKey) (left right : TrafficModel α) : Prop where
  baseVolume : left.baseVolume = right.baseVolume
  yearlyGrowth : left.yearlyGrowth = right.yearlyGrowth
  correction : ∀ other, other ≠ key → left.correction other = right.correction other

/-- Entering a factor changes a model under the key of the entry alone. -/
theorem agreeBut_insertMonth {model : TrafficModel α} {entry : MonthFactor α}
    {monthly : MonthlyCorrections α} (entered : model.monthly.insert entry = .ok monthly) :
    AgreeBut (.month entry.month) { model with monthly } model := by
  obtain ⟨_, rfl⟩ := MonthlyCorrections.insert_eq_ok_iff.mp entered
  refine ⟨rfl, rfl, ?_⟩
  rintro (number | ⟨weekday, hourOfDay⟩) different
  · have other : entry.month ≠ number := fun same => different (congrArg _ same.symm)
    unfold correction correction?
    dsimp only
    rw [Table.find?_insert, if_neg other]
  · rfl

section Exact

variable {left right : TrafficModel ℚ}

end Exact

variable [MonthlyGrowth α] {model : TrafficModel α} {first last : Date}

/-- The row at a position is that of the hour there. -/
theorem generate_row {forecast : Forecast α} (made : model.generate first last = .ok forecast)
    {position : Nat} {row : ForecastRow α} (there : forecast.rows[position]? = some row) :
    ∃ date : Date, date.dayNumber = first.dayNumber + position / 24 ∧
      row = model.row (MonthlyGrowth.monthlyGrowth model.yearlyGrowth)
        (.ofDate date (position % 24)) := by
  obtain ⟨_, ordered, rfl⟩ := generate_eq_ok_iff.mp made
  dsimp only at there
  rw [List.getElem?_map, Option.map_eq_some_iff] at there
  obtain ⟨slot, placed, rfl⟩ := there
  obtain ⟨date, number, rfl⟩ := Slot.ofDate_of_getElem?_timeline ordered placed
  exact ⟨date, number, rfl⟩

/-- Rows that stand at one position are of the same hour. -/
theorem AgreeBut.rows (agree : left.AgreeBut key right) {leftForecast rightForecast : Forecast α}
    (leftMade : left.generate first last = .ok leftForecast)
    (rightMade : right.generate first last = .ok rightForecast) {position : Nat}
    {leftRow rightRow : ForecastRow α} (leftThere : leftForecast.rows[position]? = some leftRow)
    (rightThere : rightForecast.rows[position]? = some rightRow) :
    ∃ (growth : α) (date : Date), date.dayNumber = first.dayNumber + position / 24 ∧
      leftRow = left.row growth (.ofDate date (position % 24)) ∧
      rightRow = right.row growth (.ofDate date (position % 24)) := by
  obtain ⟨date, number, rfl⟩ := generate_row leftMade leftThere
  obtain ⟨rightDate, rightNumber, rfl⟩ := generate_row rightMade rightThere
  obtain rfl := Date.eq_of_dayNumber_eq (number.trans rightNumber.symm)
  exact ⟨_, date, number, rfl, by rw [agree.yearlyGrowth]⟩

end TrafficModel

section

/-- Agrees with the twelfth root at the rate one. -/
local instance steadied : MonthlyGrowth ℚ := ⟨fun rate => rate⟩

end

end PipelineCapacity
