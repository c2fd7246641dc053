import PipelineCapacity.Forecast.Series
import PipelineCapacity.Run.Event

/-!
Running a pipeline over a forecast, one hour at a time.

A run first checks every volume; a forecast with an unacceptable one leaves the
pipeline untouched and tells nobody. Otherwise the pipeline starts from its zero
state. Before every hour the watcher may stop the run; a stopped run has no
series. A month is announced at its first hour, a change of units at the end of
the hour that brought it.
-/

set_option autoImplicit false

namespace PipelineCapacity

open Quantity

/-- A run under way. Rows and events are kept in reverse. -/
structure Progress (α σ : Type) where
  pipeline : Pipeline α
  /-- Units shown by the row before. -/
  units : Nat
  /-- Year and month of the row before. -/
  month : Option (Int × Nat)
  rows : List (ResultRow α)
  events : List (Event α)
  watching : σ

/-- A run that came to its end, one way or the other. -/
structure Report (α σ : Type) where
  outcome : Except (Failure α) (ResultSeries α)
  pipeline : Pipeline α
  /-- In order. -/
  events : List (Event α)
  watching : σ

namespace Progress

variable {α σ : Type}

def tell (progress : Progress α σ) (watcher : Watcher α σ) (event : Event α) : Progress α σ :=
  { progress with
    events := event :: progress.events
    watching := watcher.hear progress.watching event }

/-- Announces the month of an hour unless it is that of the hour before. -/
def enterMonth (progress : Progress α σ) (watcher : Watcher α σ) (slot : Slot) : Progress α σ :=
  if progress.month = some (slot.year, slot.month) then progress
  else { progress.tell watcher (.month slot) with month := some (slot.year, slot.month) }

/-- Announces the units of an hour unless they are those of the hour before. -/
def showUnits (progress : Progress α σ) (watcher : Watcher α σ) (slot : Slot) (units : Nat) :
    Progress α σ :=
  if units = progress.units then progress
  else
    { progress.tell watcher (.scaling ⟨slot, .between progress.units units, progress.units, units⟩)
      with units }

variable [Quantity α]

def hour (progress : Progress α σ) (watcher : Watcher α σ) (row : ForecastRow α) :
    Progress α σ :=
  let progress := progress.enterMonth watcher row.slot
  let (metrics, pipeline) := progress.pipeline.step row.hourlyVolume
  let progress := { progress with pipeline }.showUnits watcher row.slot metrics.units
  { progress with rows := .ofMetrics row.slot row.hourlyVolume metrics :: progress.rows }

/-- Goes on until the rows end or the watcher stops the run, which gives the
number of hours completed. -/
def drive (progress : Progress α σ) (watcher : Watcher α σ) (completed : Nat) :
    List (ForecastRow α) → Option Nat × Progress α σ
  | [] => (none, progress)
  | row :: rest =>
      if watcher.stops completed progress.watching then (some completed, progress)
      else drive (progress.hour watcher row) watcher (completed + 1) rest

omit [Quantity α] in
def report (progress : Progress α σ) (outcome : Except (Failure α) (ResultSeries α)) :
    Report α σ :=
  { outcome
    pipeline := progress.pipeline
    events := progress.events.reverse
    watching := progress.watching }

end Progress

namespace Pipeline

variable {α σ : Type} [Quantity α]

/-- The first row whose volume no pipeline can be given. -/
def unacceptable? (forecast : Forecast α) : Option (ForecastRow α) :=
  forecast.rows.find? fun row => !isNonNegative row.hourlyVolume

/-- A run just started: the pipeline in its zero state, the start announced. -/
def start (pipeline : Pipeline α) (watcher : Watcher α σ) (watching : σ) (name : Option String)
    (hours : Nat) : Progress α σ :=
  let pipeline := pipeline.reset
  let kind := pipeline.kind
  let progress : Progress α σ :=
    { pipeline, units := pipeline.units, month := none, rows := [], events := [], watching }
  progress.tell watcher (.started (name.getD kind.tag) kind hours)

/-- Runs over a forecast. A run without a name goes by the kind of its pipeline. -/
def run (pipeline : Pipeline α) (watcher : Watcher α σ) (watching : σ) (name : Option String)
    (forecast : Forecast α) : Report α σ :=
  match unacceptable? forecast with
  | some row =>
      { outcome := .error (.invalidParameter (.volumeAt row.slot row.hourlyVolume))
        pipeline
        events := []
        watching }
  | none =>
      match (pipeline.start watcher watching name forecast.length).drive watcher 0
          forecast.rows with
      | (some completed, progress) => progress.report (.error (.cancelled completed))
      | (none, progress) =>
          let series : ResultSeries α := ⟨progress.rows.reverse⟩
          (progress.tell watcher (.finished series)).report (.ok series)

end Pipeline

end PipelineCapacity
