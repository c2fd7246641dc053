import PipelineCapacity.Result
import PipelineCapacity.Run.Basic

/-!
Jobs: runs with a name and a service-level agreement, alone or in a batch.

The jobs of a batch are independent. A batch with a failing job fails; a
cancellation is reported only when no job failed for a reason of its own, since
one failing job cancels the others.
-/

set_option autoImplicit false

namespace PipelineCapacity

structure Job (α : Type) where
  name : String
  forecast : Forecast α
  pipeline : Pipeline α
  sla : Sla α

/-- Everything a finished job produced. -/
structure Outcome (α : Type) where
  name : String
  model : ModelParams α
  results : ResultSeries α
  summary : Summary α

namespace Job

variable {α σ : Type} [Quantity α]

/-- What a run of the job amounts to. -/
def outcome (job : Job α) (report : Report α σ) : Except (Failure α) (Outcome α) := do
  let results ← report.outcome
  let summary ← Summary.ofResults results job.sla
  return { name := job.name, model := report.pipeline.params, results, summary }

def runReport (job : Job α) (watcher : Watcher α σ) (watching : σ) : Report α σ :=
  job.pipeline.run watcher watching (some job.name) job.forecast

def run (job : Job α) (watcher : Watcher α σ) (watching : σ) : Except (Failure α) (Outcome α) :=
  job.outcome (job.runReport watcher watching)

/-- The job as a worker of a batch, which breaks down when the watcher does. -/
def work (job : Job α) (watcher : Watcher α σ) (watching : σ) (breaks : Event α → Bool) :
    Except (Failure α) (Outcome α) :=
  let report := job.runReport watcher watching
  if report.events.any breaks then .error (.unexpected "Simulation worker failed")
  else job.outcome report

end Job

namespace Batch

variable {α σ : Type}

/-- The results of all jobs, in their order, as one. -/
def settle (results : List (Except (Failure α) (Outcome α))) :
    Except (Failure α) (List (Outcome α)) :=
  let failures := results.filterMap fun result =>
    match result with
    | .error failure => some failure
    | .ok _ => none
  match failures.find? (fun failure => !failure.isCancelled), failures with
  | some failure, _ => .error failure
  | none, failure :: _ => .error failure
  | none, [] => .ok (results.filterMap Except.toOption)

variable [Quantity α]

/-- Runs the jobs under one watcher; `breaks` says at which events it breaks down. -/
def run (jobs : List (Job α)) (watcher : Watcher α σ) (watching : σ) (breaks : Event α → Bool) :
    Except (Failure α) (List (Outcome α)) :=
  settle (jobs.map fun job => job.work watcher watching breaks)

end Batch

end PipelineCapacity
