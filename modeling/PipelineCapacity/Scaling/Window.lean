import PipelineCapacity.Quantity

/-!
A window over the most recent samples with their running sum.

Samples are kept in two lists, oldest first in `front` and newest first in
`back`, so that dropping the oldest and adding the newest are both cheap. The
running sum is corrected by each sample that enters or leaves, and is taken
afresh over the whole window once per full turn, which bounds its drift.
-/

set_option autoImplicit false

namespace PipelineCapacity

open Quantity

structure Samples (α : Type) where
  front : List α
  back : List α
  size : Nat

namespace Samples

variable {α : Type}

def empty : Samples α := ⟨[], [], 0⟩

/-- Oldest first. -/
def toList (samples : Samples α) : List α := samples.front ++ samples.back.reverse

def add (samples : Samples α) (sample : α) : Samples α :=
  { samples with back := sample :: samples.back, size := samples.size + 1 }

/-- The oldest sample and the others. -/
def takeOldest? (samples : Samples α) : Option (α × Samples α) :=
  match samples.front with
  | oldest :: front => some (oldest, { samples with front, size := samples.size - 1 })
  | [] =>
      match samples.back.reverse with
      | oldest :: front => some (oldest, ⟨front, [], samples.size - 1⟩)
      | [] => none

theorem toList_add (samples : Samples α) (sample : α) :
    (samples.add sample).toList = samples.toList ++ [sample] := by
  simp [add, toList]

/-- Taking the oldest sample takes the head of the list of samples. -/
theorem toList_takeOldest? (samples : Samples α) :
    samples.takeOldest?.map (fun taken => (taken.1, taken.2.toList)) =
      match samples.toList with
      | [] => none
      | oldest :: rest => some (oldest, rest) := by
  obtain ⟨front, back, size⟩ := samples
  cases front with
  | cons oldest front => simp [takeOldest?, toList]
  | nil =>
      simp only [takeOldest?, toList, List.nil_append]
      cases back.reverse <;> simp

end Samples

structure Window (α : Type) where
  /-- How many samples the window may hold, at least one. -/
  capacity : Nat
  samples : Samples α
  sum : α
  /-- Pushes since the sum was last taken afresh. -/
  turned : Nat

namespace Window

variable {α : Type} [Quantity α]

def ofCapacity (capacity : Nat) : Window α :=
  { capacity := Nat.max capacity 1, samples := .empty, sum := zero, turned := 0 }

def clear (window : Window α) : Window α :=
  { window with samples := .empty, sum := zero, turned := 0 }

@[inline] def size (window : Window α) : Nat := window.samples.size

def isEmpty (window : Window α) : Bool := window.size == 0

/-- Drops the oldest sample when the window is full. -/
def evict (window : Window α) : Window α :=
  if window.size == window.capacity then
    match window.samples.takeOldest? with
    | some (oldest, samples) => { window with samples, sum := window.sum - oldest }
    | none => window
  else window

def push (window : Window α) (sample : α) : Window α :=
  let window := window.evict
  let samples := window.samples.add sample
  if window.turned + 1 ≥ window.capacity then
    { window with samples, sum := Quantity.sum samples.toList, turned := 0 }
  else
    { window with samples, sum := window.sum + sample, turned := window.turned + 1 }

def mean? (window : Window α) : Option α :=
  if window.isEmpty then none else some (window.sum / ofNat window.size)

end Window

end PipelineCapacity
