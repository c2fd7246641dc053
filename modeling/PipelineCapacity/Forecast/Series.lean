import PipelineCapacity.InvalidParameter

/-!
Forecasts: the volume of every hour of a stretch of the calendar.
-/

set_option autoImplicit false

namespace PipelineCapacity

open Quantity

/-- One forecast hour: the volume before any correction, after the monthly one
and after the hourly one. -/
structure ForecastRow (α : Type) where
  slot : Slot
  baseVolume : α
  monthlyVolume : α
  hourlyVolume : α

structure Forecast (α : Type) where
  rows : List (ForecastRow α)

namespace Forecast

variable {α : Type}

def length (forecast : Forecast α) : Nat := forecast.rows.length

/-- The final volumes, hour by hour. -/
def volumes (forecast : Forecast α) : List α := forecast.rows.map (·.hourlyVolume)

/-- Where a slot stands in the forecast. Rows are entered in order, each in the
place of any earlier one with its slot. -/
def position? (forecast : Forecast α) (slot : Slot) : Option Nat :=
  forecast.rows.zipIdx.foldl
    (fun found entry => if entry.1.slot = slot then some entry.2 else found) none

def get? (forecast : Forecast α) (slot : Slot) : Option (ForecastRow α) :=
  (forecast.position? slot).bind fun position => forecast.rows[position]?

variable [Quantity α]

def totalVolume (forecast : Forecast α) : α := sum forecast.volumes

/-- The hour after one of a day, on the same day or the next. -/
def nextHour (date : Date) (hour : Nat) : Option Date × Nat :=
  if hour < 23 then (some date, hour + 1) else (date.succ?, 0)

/-- Gives volumes consecutive hours from an hour of a day on. The day is absent
past the end of the calendar; rows before come in reverse. -/
def place (before : List (ForecastRow α)) (hour : Option Date × Nat) :
    List α → Except (InvalidParameter α) (List (ForecastRow α))
  | [] => .ok before.reverse
  | volume :: rest =>
      match requireNonNegative "forecast volume" volume, hour with
      | .error cause, _ => .error cause
      | .ok (), (none, _) => .error (.slot .pastCalendar)
      | .ok (), (some date, hour) =>
          place (⟨.ofDate date hour, volume, volume, volume⟩ :: before) (nextHour date hour) rest

/-- Hourly volumes from the start of a day on, without corrections. -/
def ofVolumes (start : Date) (volumes : List α) :
    Except (InvalidParameter α) (Forecast α) :=
  (place [] (some start, 0) volumes).map fun rows => ⟨rows⟩

/-- The same volume every hour. -/
def constant (start : Date) (hours : Nat) (volume : α) :
    Except (InvalidParameter α) (Forecast α) :=
  ofVolumes start (List.replicate hours volume)

/-- The same pattern, usually of 24 hours, again and again. -/
def repeating (start : Date) (times : Nat) (pattern : List α) :
    Except (InvalidParameter α) (Forecast α) :=
  ofVolumes start (List.replicate times pattern).flatten

/-- A row must name a real hour, follow the row before it and hold an acceptable
volume. -/
def checkRow (previous : Option Slot) (row : ForecastRow α) :
    Except (InvalidParameter α) Unit := do
  let _ ← row.slot.check.mapError .slot
  (row.slot.checkAfter previous).mapError .slot
  requireNonNegative "forecast volume" row.hourlyVolume

/-- Every row in turn; the first fault counts. -/
def checkRows (previous : Option Slot) :
    List (ForecastRow α) → Except (InvalidParameter α) Unit
  | [] => .ok ()
  | row :: rest => do
      checkRow previous row
      checkRows (some row.slot) rest

/-- A forecast of rows that form a stretch of the calendar. -/
def ofRows (rows : List (ForecastRow α)) : Except (InvalidParameter α) (Forecast α) := do
  checkRows none rows
  return ⟨rows⟩

end Forecast

end PipelineCapacity
