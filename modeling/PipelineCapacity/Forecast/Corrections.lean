import PipelineCapacity.InvalidParameter
import PipelineCapacity.Table

/-!
Correction tables of a traffic model: a factor for a month of the year, and a
factor for an hour of a weekday. A refused entry leaves the table as it was,
and a key without an entry has the factor one.
-/

set_option autoImplicit false

namespace PipelineCapacity

open Quantity

structure MonthFactor (α : Type) where
  month : Nat
  factor : α

structure HourFactor (α : Type) where
  weekday : Weekday
  hour : Nat
  factor : α

/-- An hour of a weekday, ordered by the day and then by the hour. -/
structure WeekHour where
  weekday : Weekday
  hour : Nat
  deriving DecidableEq, Repr

instance : Ord WeekHour where
  compare left right :=
    (compare left.weekday.position right.weekday.position).then (compare left.hour right.hour)

structure MonthlyCorrections (α : Type) where
  factors : Table Nat α

structure HourlyCorrections (α : Type) where
  factors : Table WeekHour α

variable {α : Type} [Quantity α]

namespace MonthlyCorrections

omit [Quantity α] in
def empty : MonthlyCorrections α := ⟨.empty⟩

def insert (table : MonthlyCorrections α) (entry : MonthFactor α) :
    Except (InvalidParameter α) (MonthlyCorrections α) := do
  if entry.month < 1 ∨ 12 < entry.month then throw (.monthKey entry.month)
  requirePositive "monthly correction factor" entry.factor
  return ⟨table.factors.insert entry.month entry.factor⟩

def factor (table : MonthlyCorrections α) (month : Nat) : α :=
  (table.factors.find? month).getD one

omit [Quantity α] in
/-- One entry for every key, months ascending. -/
def toList (table : MonthlyCorrections α) : List (MonthFactor α) :=
  table.factors.entries.map fun entry => ⟨entry.1, entry.2⟩

/-- Of entries with one key the last one stays. -/
def ofList (entries : List (MonthFactor α)) :
    Except (InvalidParameter α) (MonthlyCorrections α) :=
  entries.foldlM insert empty

end MonthlyCorrections

namespace HourlyCorrections

omit [Quantity α] in
def empty : HourlyCorrections α := ⟨.empty⟩

def insert (table : HourlyCorrections α) (entry : HourFactor α) :
    Except (InvalidParameter α) (HourlyCorrections α) := do
  if 23 < entry.hour then throw (.hourKey entry.hour)
  requirePositive "hourly correction factor" entry.factor
  return ⟨table.factors.insert ⟨entry.weekday, entry.hour⟩ entry.factor⟩

/-- The same factor on every day of the week. -/
def insertEveryDay (table : HourlyCorrections α) (hour : Nat) (factor : α) :
    Except (InvalidParameter α) (HourlyCorrections α) :=
  Weekday.all.foldlM (fun table weekday => table.insert ⟨weekday, hour, factor⟩) table

def factor (table : HourlyCorrections α) (weekday : Weekday) (hour : Nat) : α :=
  (table.factors.find? ⟨weekday, hour⟩).getD one

omit [Quantity α] in
/-- One entry for every key, weekdays and then hours ascending. -/
def toList (table : HourlyCorrections α) : List (HourFactor α) :=
  table.factors.entries.map fun entry => ⟨entry.1.weekday, entry.1.hour, entry.2⟩

/-- Of entries with one key the last one stays. -/
def ofList (entries : List (HourFactor α)) :
    Except (InvalidParameter α) (HourlyCorrections α) :=
  entries.foldlM insert empty

end HourlyCorrections

end PipelineCapacity
