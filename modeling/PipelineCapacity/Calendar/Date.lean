/-!
Calendar dates: the proleptic Gregorian calendar with a year zero, over a
bounded span of years. A date is valid by construction. The day number counts
days from 1 January of the year 1, which was a Monday and has number one. Days of
the week have three-letter abbreviations.
-/

set_option autoImplicit false

namespace PipelineCapacity

inductive Weekday where
  | mon
  | tue
  | wed
  | thu
  | fri
  | sat
  | sun
  deriving DecidableEq, Repr

namespace Weekday

def all : List Weekday := [mon, tue, wed, thu, fri, sat, sun]

/-- Place in the week, Monday first. -/
def position : Weekday → Nat
  | mon => 0
  | tue => 1
  | wed => 2
  | thu => 3
  | fri => 4
  | sat => 5
  | sun => 6

/-- The day at a place in the week, counted around it. -/
def ofPosition (position : Nat) : Weekday :=
  match position % 7 with
  | 0 => mon
  | 1 => tue
  | 2 => wed
  | 3 => thu
  | 4 => fri
  | 5 => sat
  | _ => sun

def abbreviation : Weekday → String
  | mon => "MON"
  | tue => "TUE"
  | wed => "WED"
  | thu => "THU"
  | fri => "FRI"
  | sat => "SAT"
  | sun => "SUN"

/-- Reads an abbreviation in any mixture of ASCII cases. -/
def ofName? (name : String) : Option Weekday :=
  all.find? fun day =>
    name.toList.map Char.toUpper == day.abbreviation.toList

theorem ofPosition_position (day : Weekday) : ofPosition day.position = day := by
  cases day <;> rfl

end Weekday

def firstYear : Int := -262143

def lastYear : Int := 262142

def isLeapYear (year : Int) : Bool :=
  year % 4 == 0 && (year % 100 != 0 || year % 400 == 0)

def daysInMonth (year : Int) (month : Nat) : Nat :=
  match month with
  | 2 => if isLeapYear year then 29 else 28
  | 4 | 6 | 9 | 11 => 30
  | _ => 31

theorem daysInMonth_pos (year : Int) (month : Nat) : 1 ≤ daysInMonth year month := by
  unfold daysInMonth
  split <;> try split
  all_goals decide

structure Date where
  year : Int
  month : Nat
  day : Nat
  year_mem : firstYear ≤ year ∧ year ≤ lastYear
  month_mem : 1 ≤ month ∧ month ≤ 12
  day_mem : 1 ≤ day ∧ day ≤ daysInMonth year month
  deriving DecidableEq

namespace Date

/-- The date with these parts, if the calendar has it. -/
def of? (year : Int) (month day : Nat) : Option Date :=
  if valid : (firstYear ≤ year ∧ year ≤ lastYear) ∧ (1 ≤ month ∧ month ≤ 12) ∧
      (1 ≤ day ∧ day ≤ daysInMonth year month) then
    some ⟨year, month, day, valid.1, valid.2.1, valid.2.2⟩
  else none

/-- The next day, absent after the last day of the calendar. -/
def succ? (date : Date) : Option Date :=
  if sameMonth : date.day < daysInMonth date.year date.month then
    some ⟨date.year, date.month, date.day + 1, date.year_mem, date.month_mem, by omega⟩
  else if sameYear : date.month < 12 then
    some ⟨date.year, date.month + 1, 1, date.year_mem, by omega,
      ⟨Nat.le_refl 1, daysInMonth_pos _ _⟩⟩
  else if nextYear : date.year < lastYear then
    some ⟨date.year + 1, 1, 1, by have := date.year_mem; omega, by omega,
      ⟨Nat.le_refl 1, daysInMonth_pos _ _⟩⟩
  else none

def daysBeforeYear (year : Int) : Int :=
  365 * (year - 1) + (year - 1) / 4 - (year - 1) / 100 + (year - 1) / 400

/-- Days of the year before the first of a month. -/
def daysBeforeMonth (year : Int) : Nat → Nat
  | 0 => 0
  | 1 => 0
  | month + 2 => daysBeforeMonth year (month + 1) + daysInMonth year (month + 1)

def dayNumber (date : Date) : Int :=
  daysBeforeYear date.year + daysBeforeMonth date.year date.month + date.day

def weekday (date : Date) : Weekday := Weekday.ofPosition ((date.dayNumber + 6) % 7).toNat

instance : LT Date where
  lt earlier later :=
    earlier.year < later.year ∨
      earlier.year = later.year ∧
        (earlier.month < later.month ∨ earlier.month = later.month ∧ earlier.day < later.day)

instance (earlier later : Date) : Decidable (earlier < later) :=
  inferInstanceAs (Decidable (_ ∨ _ ∧ (_ ∨ _ ∧ _)))

instance : LE Date where
  le earlier later := ¬ later < earlier

instance (earlier later : Date) : Decidable (earlier ≤ later) :=
  inferInstanceAs (Decidable (¬ _))

/-- Adds consecutive days from a date on to those before, given in reverse. -/
def collect (before : List Date) (date : Date) : Nat → List Date
  | 0 => before.reverse
  | count + 1 =>
      match date.succ? with
      | some next => collect (date :: before) next count
      | none => (date :: before).reverse

/-- Consecutive days from a date on, fewer than `count` at the calendar's end. -/
def following (date : Date) (count : Nat) : List Date := collect [] date count

/-- Days from one date to another, both counted. -/
def daysThrough (first last : Date) : Nat := (last.dayNumber - first.dayNumber + 1).toNat

/-- Every day from one date to another, both included. -/
def days (first last : Date) : List Date := first.following (first.daysThrough last)

theorem of?_eq_some_iff {year : Int} {month day : Nat} {date : Date} :
    of? year month day = some date ↔
      date.year = year ∧ date.month = month ∧ date.day = day := by
  unfold of?
  split
  · constructor
    · rintro ⟨rfl⟩
      exact ⟨rfl, rfl, rfl⟩
    · obtain ⟨_, _, _, _, _, _⟩ := date
      rintro ⟨rfl, rfl, rfl⟩
      rfl
  · rename_i invalid
    constructor
    · intro impossible
      cases impossible
    · rintro ⟨rfl, rfl, rfl⟩
      exact absurd ⟨date.year_mem, date.month_mem, date.day_mem⟩ invalid

theorem of?_self (date : Date) : of? date.year date.month date.day = some date :=
  of?_eq_some_iff.2 ⟨rfl, rfl, rfl⟩

end Date

end PipelineCapacity
