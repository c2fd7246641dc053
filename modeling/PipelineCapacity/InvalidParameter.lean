import PipelineCapacity.Calendar.Slot
import PipelineCapacity.Decimal
import PipelineCapacity.Quantity

/-!
Values a caller may not pass, and the two checks on amounts. A refused value is
kept as it is; its wording is produced only when the message is asked for.
-/

set_option autoImplicit false

namespace PipelineCapacity

open Quantity

/-- Amounts that a message can show. -/
class Shown (α : Type) where
  shown : α → String

instance : Shown Float where
  shown amount := String.ofList (Decimal.Layout.plain.render amount)

inductive InvalidParameter (α : Type) where
  | notNonNegative (name : String) (amount : α)
  | notPositive (name : String) (amount : α)
  | scalingDelays (up down : Nat)
  | unknownWeekday (name : String)
  | monthKey (month : Nat)
  | hourKey (hour : Nat)
  | slot (fault : SlotFault)
  | volumeAt (slot : Slot) (amount : α)
  /-- Words of the caller. -/
  | note (text : String)

namespace InvalidParameter

variable {α : Type}

def message [Shown α] : InvalidParameter α → String
  | .notNonNegative name amount =>
      s!"{name} must be a finite non-negative number, got {Shown.shown amount}"
  | .notPositive name amount =>
      s!"{name} must be a finite positive number, got {Shown.shown amount}"
  | .scalingDelays up down =>
      s!"Scaling delays must be at least one step (up_delay={up}, down_delay={down})"
  | .unknownWeekday name => s!"Unknown day of week '{name}'"
  | .monthKey month => s!"Monthly correction key must be 1-12, got {month}"
  | .hourKey hour => s!"Hourly correction hour must be 0-23, got {hour}"
  | .slot fault => fault.message
  | .volumeAt hour amount =>
      s!"Forecast volume at {hour.text} must be a finite non-negative number, got " ++
        Shown.shown amount
  | .note text => text

end InvalidParameter

variable {α : Type} [Quantity α]

def isNonNegative (amount : α) : Bool := isFinite amount && !decide (amount < zero)

def isPositive (amount : α) : Bool := isFinite amount && !decide (amount ≤ zero)

def requireNonNegative (name : String) (amount : α) : Except (InvalidParameter α) Unit :=
  if isNonNegative amount then .ok () else .error (.notNonNegative name amount)

def requirePositive (name : String) (amount : α) : Except (InvalidParameter α) Unit :=
  if isPositive amount then .ok () else .error (.notPositive name amount)

end PipelineCapacity
