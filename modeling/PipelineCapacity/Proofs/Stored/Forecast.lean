import PipelineCapacity.Proofs.Calendar.Text
import PipelineCapacity.Proofs.Forecast.Entries
import PipelineCapacity.Proofs.Forecast.Positions
import PipelineCapacity.Proofs.Sign
import PipelineCapacity.Proofs.Stored.Record

/-!
Traffic models and forecasts read back from their documents. A correction table
comes back through the checks on its entries, a forecast through the checks on
its rows, and whatever could be made passes them again.
-/

set_option autoImplicit false

namespace PipelineCapacity

open Document
open Quantity (isFinite)

variable {dialect : Dialect} {depth : Nat}

theorem Weekday.ofDocument_toDocument (weekday : Weekday) :
    ofDocument dialect weekday.toDocument = .ok weekday := by
  cases weekday <;> rfl

namespace Slot

/-- The year is an integer of 32 binary places, all else are counts of as many. -/
structure Storable (slot : Slot) : Prop where
  year : -2147483648 ≤ slot.year ∧ slot.year ≤ 2147483647
  month : slot.month ≤ maxDelay
  day : slot.day ≤ maxDelay
  hour : slot.hour ≤ maxDelay

variable {slot : Slot}

theorem Real.storable (real : slot.Real) : slot.Storable := by
  obtain ⟨date, ⟨year, month, day⟩, _, hour⟩ := real
  have calendar := date.year_mem
  have months := date.month_mem
  have days := date.day_mem
  have monthEnd := Date.daysInMonth_le date.year date.month
  unfold firstYear lastYear at calendar
  constructor
  · omega
  · unfold maxDelay
    omega
  · unfold maxDelay
    omega
  · unfold maxDelay
    omega

theorem ofDocument_toDocument (storable : slot.Storable) :
    ofDocument dialect slot.toDocument = .ok slot := by
  refine Shape.read_own (by simp) fun holds => ?_
  unfold gather Fields.get
  rw [holds.get_done "year" (by simp) (dialect.readYear_of_mem storable.year),
    holds.get_done "month" (by simp) (dialect.readCount_of_le storable.month),
    holds.get_done "day" (by simp) (dialect.readCount_of_le storable.day),
    holds.get_done "day_of_week" (by simp) (Weekday.ofDocument_toDocument slot.weekday),
    holds.get_done "hour" (by simp) (dialect.readCount_of_le storable.hour)]
  rfl

theorem legible_toDocument (storable : slot.Storable) :
    Json.Legible (depth + 1) slot.toDocument := by
  have year := storable.year
  refine .record ?_
  simp only [List.forall_mem_cons]
  exact ⟨.integer (by omega) (by omega), .count storable.month, .count storable.day, .text _,
    .count storable.hour, List.forall_mem_nil _⟩

end Slot

section Amounts

variable {α : Type}

def ForecastRow.amounts (row : ForecastRow α) : List α :=
  [row.baseVolume, row.monthlyVolume, row.hourlyVolume]

def Forecast.amounts (forecast : Forecast α) : List α := forecast.rows.flatMap ForecastRow.amounts

end Amounts

theorem finite_of_isPositive {amount : Float} (positive : isPositive amount = true) :
    amount.isFinite = true := (Bool.and_eq_true_iff.mp positive).1

namespace MonthFactor

variable {entry : MonthFactor Float}

theorem Admissible.month_le (admissible : entry.Admissible) : entry.month ≤ maxDelay :=
  admissible.1.2.trans (by decide)

theorem ofDocument_toDocument (admissible : entry.Admissible) :
    ofDocument dialect entry.toDocument = .ok entry := by
  refine Shape.read_own (by simp) fun holds => ?_
  unfold gather Fields.get
  rw [holds.get_done "month" (by simp) (dialect.readCount_of_le admissible.month_le),
    holds.get_done "factor" (by simp)
      (dialect.readReal_of_finite (finite_of_isPositive admissible.2))]
  rfl

theorem legible_toDocument (admissible : entry.Admissible) :
    Json.Legible (depth + 1) entry.toDocument := by
  refine .record ?_
  simp only [List.forall_mem_cons]
  exact ⟨.count admissible.month_le, .real _, List.forall_mem_nil _⟩

end MonthFactor

namespace HourFactor

variable {entry : HourFactor Float}

theorem Admissible.hour_le (admissible : entry.Admissible) : entry.hour ≤ maxDelay :=
  admissible.1.trans (by decide)

theorem ofDocument_toDocument (admissible : entry.Admissible) :
    ofDocument dialect entry.toDocument = .ok entry := by
  refine Shape.read_own (by simp) fun holds => ?_
  unfold gather Fields.get
  rw [holds.get_done "day_of_week" (by simp) (Weekday.ofDocument_toDocument entry.weekday),
    holds.get_done "hour" (by simp) (dialect.readCount_of_le admissible.hour_le),
    holds.get_done "factor" (by simp)
      (dialect.readReal_of_finite (finite_of_isPositive admissible.2))]
  rfl

theorem legible_toDocument (admissible : entry.Admissible) :
    Json.Legible (depth + 1) entry.toDocument := by
  refine .record ?_
  simp only [List.forall_mem_cons]
  exact ⟨.text _, .count admissible.hour_le, .real _, List.forall_mem_nil _⟩

end HourFactor

namespace MonthlyCorrections

variable {table : MonthlyCorrections Float} (sound : table.Sound)

include sound

theorem ofDocument_toDocument : ofDocument dialect table.toDocument = .ok table := by
  have entries : dialect.readList (MonthFactor.ofDocument dialect) table.toDocument = .ok table.toList :=
    dialect.readList_map fun entry member =>
      MonthFactor.ofDocument_toDocument (sound.admissible entry member)
  exact bind_eq_ok_iff.mpr ⟨_, entries, mapError_eq_ok_iff.mpr sound.ofList_toList⟩

theorem legible_toDocument : Json.Legible (depth + 2) table.toDocument :=
  .list (List.forall_mem_map.mpr fun entry member =>
    MonthFactor.legible_toDocument (sound.admissible entry member))

end MonthlyCorrections

namespace HourlyCorrections

variable {table : HourlyCorrections Float} (sound : table.Sound)

include sound

theorem ofDocument_toDocument : ofDocument dialect table.toDocument = .ok table := by
  have entries : dialect.readList (HourFactor.ofDocument dialect) table.toDocument = .ok table.toList :=
    dialect.readList_map fun entry member =>
      HourFactor.ofDocument_toDocument (sound.admissible entry member)
  exact bind_eq_ok_iff.mpr ⟨_, entries, mapError_eq_ok_iff.mpr sound.ofList_toList⟩

theorem legible_toDocument : Json.Legible (depth + 2) table.toDocument :=
  .list (List.forall_mem_map.mpr fun entry member =>
    HourFactor.legible_toDocument (sound.admissible entry member))

end HourlyCorrections

namespace TrafficModel

variable {model : TrafficModel Float}

theorem ofDocument_toDocument (valid : model.validate = .ok ()) (monthly : model.monthly.Sound)
    (hourly : model.hourly.Sound) : ofDocument dialect model.toDocument = .ok model := by
  obtain ⟨⟨base, _⟩, growth, _⟩ := validate_eq_ok_iff.mp valid
  refine Shape.read_own (by simp) fun holds => ?_
  unfold gather Fields.get
  rw [holds.get_done "model_name" (by simp) (dialect.readText_text model.name),
    holds.get_done "base_volume" (by simp) (dialect.readReal_of_finite base),
    holds.get_done "yearly_growth_rate" (by simp) (dialect.readReal_of_finite growth),
    holds.get_done "monthly_corrections" (by simp)
      (MonthlyCorrections.ofDocument_toDocument monthly),
    holds.get_done "hourly_corrections" (by simp)
      (HourlyCorrections.ofDocument_toDocument hourly)]
  rfl

theorem legible_toDocument (monthly : model.monthly.Sound) (hourly : model.hourly.Sound) :
    Json.Legible (depth + 3) model.toDocument := by
  refine .record ?_
  simp only [List.forall_mem_cons]
  exact ⟨.text _, .real _, .real _, MonthlyCorrections.legible_toDocument monthly,
    HourlyCorrections.legible_toDocument hourly, List.forall_mem_nil _⟩

end TrafficModel

namespace ForecastRow

variable {row : ForecastRow Float}

/-- The slot is one that can be written, and every volume has a numeral. -/
structure Storable (row : ForecastRow Float) : Prop where
  slot : row.slot.Storable
  finite : ∀ amount ∈ row.amounts, amount.isFinite = true

theorem ofDocument_toDocument (storable : row.Storable) :
    ofDocument dialect row.toDocument = .ok row := by
  have finite := storable.finite
  simp only [amounts, List.forall_mem_cons] at finite
  refine Shape.read_own (by simp) fun holds => ?_
  unfold gather Fields.get
  rw [holds.get_done "index" (by simp) (Slot.ofDocument_toDocument storable.slot),
    holds.get_done "base_volume" (by simp) (dialect.readReal_of_finite finite.1),
    holds.get_done "monthly_adjusted_volume" (by simp)
      (dialect.readReal_of_finite finite.2.1),
    holds.get_done "hourly_adjusted_volume" (by simp)
      (dialect.readReal_of_finite finite.2.2.1)]
  rfl

theorem legible_toDocument (storable : row.Storable) :
    Json.Legible (depth + 2) row.toDocument := by
  refine .record ?_
  simp only [List.forall_mem_cons]
  exact ⟨Slot.legible_toDocument storable.slot, .real _, .real _, .real _,
    List.forall_mem_nil _⟩

end ForecastRow

namespace Forecast

variable {forecast : Forecast Float}

theorem ofDocument_toDocument (storable : ∀ row ∈ forecast.rows, row.Storable)
    (made : ofRows forecast.rows = .ok forecast) :
    ofDocument dialect forecast.toDocument = .ok forecast := by
  have rows : dialect.readList (ForecastRow.ofDocument dialect) forecast.toDocument =
      .ok forecast.rows :=
    dialect.readList_map fun row member =>
      ForecastRow.ofDocument_toDocument (storable row member)
  exact bind_eq_ok_iff.mpr ⟨_, rows, mapError_eq_ok_iff.mpr made⟩

theorem legible_toDocument (storable : ∀ row ∈ forecast.rows, row.Storable) :
    Json.Legible (depth + 3) forecast.toDocument :=
  .list (List.forall_mem_map.mpr fun row member =>
    ForecastRow.legible_toDocument (storable row member))

variable [MonthlyGrowth Float] (made : forecast.Made)
  (finite : ∀ amount ∈ forecast.amounts, amount.isFinite = true)

include made finite

/-- The slots of a forecast are real hours. -/
theorem Made.storable : ∀ row ∈ forecast.rows, row.Storable := by
  intro row member
  have real := (Slot.isInfix_calendar_iff.mp made.stretch).1 row.slot (List.mem_map_of_mem member)
  exact ⟨real.storable, fun amount inside => finite amount (List.mem_flatMap_of_mem member inside)⟩

theorem Made.ofRows_rows
    (growing : ∀ rate : Float, isNonNegative rate = true →
      ¬MonthlyGrowth.monthlyGrowth rate < Quantity.zero) :
    Forecast.ofRows forecast.rows = .ok forecast := by
  refine ofRows_eq_ok_iff.mpr ⟨⟨fun row member => ?_, made.stretch⟩, rfl⟩
  have volume : row.hourlyVolume ∈ row.amounts := by simp [ForecastRow.amounts]
  exact ⟨finite _ (List.mem_flatMap_of_mem member volume), made.not_neg growing row member⟩

end Forecast

end PipelineCapacity
