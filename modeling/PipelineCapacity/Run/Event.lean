import PipelineCapacity.Result

/-!
What happens during a run, and who is told.

A watcher hears every event and is asked before every hour whether to stop. Its
answer may depend on what it heard and on the number of hours completed, so any
behaviour of a cancel flag is that of some watcher.
-/

set_option autoImplicit false

namespace PipelineCapacity

/-- A change of the count of units between two hours. -/
structure ScaleEvent where
  slot : Slot
  direction : Direction
  before : Nat
  after : Nat
  deriving DecidableEq, Repr

inductive Event (α : Type) where
  | started (name : String) (kind : ModelType) (hours : Nat)
  | month (slot : Slot)
  | scaling (change : ScaleEvent)
  | finished (series : ResultSeries α)

structure Watcher (α σ : Type) where
  hear : σ → Event α → σ
  stops : Nat → σ → Bool

namespace Watcher

variable {α : Type}

/-- Listens to nothing and never stops a run. -/
def idle : Watcher α Unit := ⟨fun state _ => state, fun _ _ => false⟩

end Watcher

/-- A flag that stops runs once it is set, with a count of the events of interest
heard so far. -/
structure CancelFlag where
  cancelled : Bool
  heard : Nat
  deriving DecidableEq, Repr

namespace CancelFlag

variable {α : Type}

/-- Sets the flag at an event of interest if it is the `limit`-th one. -/
def hear (interesting : Event α → Bool) (limit : Nat) (flag : CancelFlag) (event : Event α) :
    CancelFlag :=
  if interesting event then
    { heard := flag.heard + 1, cancelled := flag.cancelled || flag.heard + 1 == limit }
  else flag

/-- Stops a run as soon as the flag is set, which happens at the `limit`-th event
of interest. -/
def watcher (interesting : Event α → Bool) (limit : Nat) : Watcher α CancelFlag :=
  ⟨hear interesting limit, fun _ flag => flag.cancelled⟩

/-- Stops a run if the flag is set. -/
def plain : Watcher α CancelFlag := ⟨fun flag _ => flag, fun _ flag => flag.cancelled⟩

end CancelFlag

/-- Every observer in turn is told of each event, in order of registration. -/
def deliveries {α : Type} (observers : Nat) (events : List (Event α)) : List (Nat × Event α) :=
  events.flatMap fun event => (List.range observers).map fun observer => (observer, event)

end PipelineCapacity
