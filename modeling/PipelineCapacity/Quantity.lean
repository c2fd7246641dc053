/-!
Amounts a simulation computes with: records, seconds and money.

Every rule of the simulation is written once, over any type with these
operations. Running programs use binary floating point; statements about exact
arithmetic use the rational numbers. No law is assumed of the operations, so a
rule may rely only on the order in which they are applied.
-/

set_option autoImplicit false

namespace PipelineCapacity

/-- Largest count of processing units. Counts past it stay at it. -/
def maxUnits : Nat := 4294967295

/-- Largest whole number of records an amount is truncated to. -/
def maxWhole : Nat := 18446744073709551615

/-- Seconds in one hourly time-step. -/
def secondsPerHour : Nat := 3600

class Quantity (α : Type) extends Add α, Sub α, Mul α, Div α, LT α, LE α, BEq α where
  ltDecidable : DecidableLT α
  leDecidable : DecidableLE α
  ofNat : Nat → α
  /-- Where a sum starts: adding any amount to it gives that amount. -/
  sumSeed : α
  /-- The greatest of no comparable amounts. -/
  lowest : α
  isFinite : α → Bool
  ceil : α → α
  /-- Whole part, zero below one or when not a number, at most `maxWhole`. -/
  truncate : α → Nat

namespace Quantity

variable {α : Type} [Quantity α]

instance (left right : α) : Decidable (left < right) := ltDecidable left right

instance (left right : α) : Decidable (left ≤ right) := leDecidable left right

def zero : α := ofNat 0

def one : α := ofNat 1

/-- False for anything that does not even equal itself. -/
def isComparable (amount : α) : Bool := amount == amount

/-- The smaller amount, of equal ones the right; an incomparable one gives way to the other. -/
@[inline] def min (left right : α) : α :=
  if isComparable right then (if left < right then left else right) else left

/-- The larger amount, of equal ones the right; an incomparable one gives way to the other. -/
@[inline] def max (left right : α) : α :=
  if isComparable right then (if right < left then left else right) else left

@[inline] def abs (amount : α) : α :=
  if amount < zero then zero - amount else amount

/-- Left to right. -/
def sum (amounts : List α) : α := amounts.foldl (· + ·) sumSeed

/-- The greatest comparable amount, of equal ones the last. -/
def peak (amounts : List α) : α :=
  (amounts.foldl
    (fun best amount =>
      match best with
      | some greatest => some (max greatest amount)
      | none => if isComparable amount then some amount else none)
    none).getD lowest

/-- Mean and greatest amount, absent when there is none. -/
def meanAndPeak (amounts : List α) : Option (α × α) :=
  match amounts with
  | [] => none
  | _ =>
      some (amounts.foldl (· + ·) zero / ofNat amounts.length, peak amounts)

/-- Difference relative to the larger magnitude, zero when both are zero. -/
def relativeDifference (left right : α) : α :=
  let scale := max (abs left) (abs right)
  if scale == zero then zero else abs (left - right) / scale

/-- Whole units an amount stands for, at most `maxUnits`. -/
def toUnits (amount : α) : Nat := Nat.min (truncate amount) maxUnits

end Quantity

instance : Quantity Float where
  ltDecidable := fun left right => inferInstanceAs (Decidable (left < right))
  leDecidable := fun left right => inferInstanceAs (Decidable (left ≤ right))
  ofNat := Float.ofNat
  sumSeed := -0.0
  lowest := -1.0 / 0.0
  isFinite := Float.isFinite
  ceil := Float.ceil
  truncate := fun amount => amount.toUInt64.toNat

instance : Quantity Rat where
  ltDecidable := fun left right => inferInstanceAs (Decidable (left < right))
  leDecidable := fun left right => inferInstanceAs (Decidable (left ≤ right))
  ofNat := fun count => (count : Rat)
  sumSeed := 0
  lowest := 0
  isFinite := fun _ => true
  ceil := fun amount => (amount.ceil : Rat)
  truncate := fun amount => Nat.min amount.floor.toNat maxWhole

end PipelineCapacity
