import PipelineCapacity.Quantity

/-!
The fluid queue every pipeline shares. Work arrives, is served up to a
capacity, and what is left over waits for the next time-step. Beside the
backlog the queue keeps how long it has not been empty.
-/

set_option autoImplicit false

namespace PipelineCapacity

open Quantity

structure Queue (α : Type) where
  backlog : α
  oldestAge : α

namespace Queue

variable {α : Type} [Quantity α]

def empty : Queue α := ⟨zero, zero⟩

@[inline] def isEmpty (queue : Queue α) : Bool := queue.backlog == zero

/-- What one time-step brings: how many records arrive, how many can be
served, the latency without queueing and the length of the step. -/
structure Load (α : Type) where
  incoming : α
  capacity : α
  baseLatency : α
  duration : α

/-- What one time-step reports. -/
structure Service (α : Type) where
  throughput : α
  latencyFifo : α
  latencyLifo : α
  backlog : α

/-- The first-in latency counts the backlog found at the start of the step, in
time-steps; the last-in latency is the age of the queue at its end. -/
def advance (queue : Queue α) (load : Load α) : Service α × Queue α :=
  let available := queue.backlog + load.incoming
  let throughput := min available load.capacity
  let latencyFifo := load.baseLatency + queue.backlog / load.capacity
  let backlog := max (available - throughput) zero
  let age := queue.oldestAge + load.duration
  let oldestAge := if backlog == zero then zero else age
  ({ throughput, latencyFifo, latencyLifo := load.baseLatency + oldestAge, backlog },
    { backlog, oldestAge })

end Queue

end PipelineCapacity
