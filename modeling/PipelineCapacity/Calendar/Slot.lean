import PipelineCapacity.Calendar.Date.Text

/-!
Hourly slots of the calendar.

A slot names a day and an hour and repeats the weekday of the day. It is raw
data and may name no real hour; `check` finds its date or says what is wrong.
Slots are ordered by year, month, day, weekday and hour.
-/

set_option autoImplicit false

namespace PipelineCapacity

open Text

structure Slot where
  year : Int
  month : Nat
  day : Nat
  weekday : Weekday
  hour : Nat
  deriving DecidableEq, Repr

inductive SlotFault where
  | notADate (year : Int) (month day : Nat)
  | hourOutside (date : Date) (hour : Nat)
  | wrongWeekday (date : Date) (labelled actual : Weekday)
  | notConsecutive (previous next expected : Slot)
  | pastCalendar

namespace Slot

/-- The slot of an hour of a date. -/
def ofDate (date : Date) (hour : Nat) : Slot :=
  { year := date.year, month := date.month, day := date.day, weekday := date.weekday, hour }

instance : Ord Slot where
  compare left right :=
    (compare left.year right.year).then <|
      (compare left.month right.month).then <|
        (compare left.day right.day).then <|
          (compare left.weekday.position right.weekday.position).then <|
            compare left.hour right.hour

instance : LT Slot := ltOfOrd

instance : LE Slot := leOfOrd

/-- Ascending; equal slots keep their places. -/
def sort (slots : List Slot) : List Slot :=
  slots.mergeSort fun left right => (compare left right).isLE

def text (slot : Slot) : String :=
  String.ofList (zeroPaddedInt 4 slot.year ++ '-' :: zeroPadded 2 slot.month ++
    '-' :: zeroPadded 2 slot.day ++ ' ' :: slot.weekday.abbreviation.toList ++
    ' ' :: zeroPadded 2 slot.hour ++ ":00".toList)

/-- The date of a slot that names a real hour under its true weekday. -/
def check (slot : Slot) : Except SlotFault Date :=
  match Date.of? slot.year slot.month slot.day with
  | none => .error (.notADate slot.year slot.month slot.day)
  | some date =>
      if slot.hour > 23 then .error (.hourOutside date slot.hour)
      else if slot.weekday ≠ date.weekday then
        .error (.wrongWeekday date slot.weekday date.weekday)
      else .ok date

/-- The hour after a slot. -/
def next (slot : Slot) : Except SlotFault Slot := do
  let date ← slot.check
  if slot.hour < 23 then return ofDate date (slot.hour + 1)
  match date.succ? with
  | some date => return ofDate date 0
  | none => throw .pastCalendar

/-- A slot must be the hour after the one before it, if there is one. -/
def checkAfter (slot : Slot) : Option Slot → Except SlotFault Unit
  | none => .ok ()
  | some previous => do
      let expected ← previous.next
      if slot = expected then return () else throw (.notConsecutive previous slot expected)

/-- The hours of one day. -/
def ofDay (date : Date) : List Slot := (List.range 24).map (ofDate date)

/-- Every hour from the first of one date to the last of another. -/
def timeline (first last : Date) : List Slot := (first.days last).flatMap ofDay

end Slot

namespace SlotFault

def message : SlotFault → String
  | notADate year month day =>
      String.ofList ("Forecast slot ".toList ++ integer year ++ '-' :: zeroPadded 2 month ++
        '-' :: zeroPadded 2 day ++ " is not a calendar date".toList)
  | hourOutside date hour => s!"Forecast slot {date.text} has hour {hour} outside 0-23"
  | wrongWeekday date labelled actual =>
      s!"Forecast slot {date.text} is labelled {labelled.abbreviation} but falls on " ++
        actual.abbreviation
  | notConsecutive previous next expected =>
      s!"Forecast rows must be consecutive hours: {previous.text} is followed by {next.text}" ++
        s!", expected {expected.text}"
  | pastCalendar => "Forecast runs past the end of the calendar"

end SlotFault

end PipelineCapacity
