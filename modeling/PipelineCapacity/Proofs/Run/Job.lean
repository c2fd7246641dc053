import PipelineCapacity.Proofs.Failure
import PipelineCapacity.Proofs.Run.Course
import PipelineCapacity.Run.Job

/-!
Jobs alone and the answer of a batch. A job that nobody cancels fails only for
a reason of its own. Of the results of a batch the answer is the first failure
that is no cancellation, in the order of the jobs; a cancellation only when
there is no other failure; else everything.
-/

set_option autoImplicit false

namespace PipelineCapacity

variable {α : Type}

theorem Sla.evaluate_not_cancelled [Quantity α] {sla : Sla α} {series : ResultSeries α}
    {failure : Failure α} (failed : sla.evaluate series = .error failure) :
    failure.isCancelled = false := by
  rcases bind_eq_error_iff.mp failed with limit | ⟨_, _, failed⟩
  · exact refuse_not_cancelled limit
  · rcases bind_eq_error_iff.mp failed with percent | ⟨_, _, failed⟩
    · exact refuse_not_cancelled percent
    · split at failed
      · cases failed
        rfl
      · cases failed

theorem Summary.column_not_cancelled [Quantity α] {series : ResultSeries α}
    {value : ResultRow α → α} {failure : Failure α}
    (failed : Summary.column series value = .error failure) : failure.isCancelled = false := by
  unfold Summary.column at failed
  split at failed
  · cases failed
  · cases failed
    rfl

theorem Summary.ofResults_not_cancelled [Quantity α] {series : ResultSeries α} {sla : Sla α}
    {failure : Failure α} (failed : Summary.ofResults series sla = .error failure) :
    failure.isCancelled = false := by
  rcases bind_eq_error_iff.mp failed with checked | ⟨_, _, failed⟩
  · exact Sla.evaluate_not_cancelled checked
  · rcases bind_eq_error_iff.mp failed with latency | ⟨_, _, failed⟩
    · exact Summary.column_not_cancelled latency
    · rcases bind_eq_error_iff.mp failed with backlog | ⟨_, _, failed⟩
      · exact Summary.column_not_cancelled backlog
      · rcases bind_eq_error_iff.mp failed with throughput | ⟨_, _, failed⟩
        · exact Summary.column_not_cancelled throughput
        · cases failed

namespace Job

variable [Quantity α] {job : Job α}

def begun (job : Job α) : Progress α Unit :=
  job.pipeline.start .idle () (some job.name) job.forecast.length

theorem run_idle_of_unacceptable {row : ForecastRow α}
    (found : Pipeline.unacceptable? job.forecast = some row) :
    job.run .idle () = .error (.invalidParameter (.volumeAt row.slot row.hourlyVolume)) := by
  unfold run runReport Pipeline.run
  rw [found]
  rfl

theorem run_idle_of_acceptable (acceptable : Pipeline.unacceptable? job.forecast = none) :
    job.run .idle () =
      job.outcome ((job.begun.pass .idle job.forecast.rows).finish .idle) := by
  unfold run runReport
  rw [Pipeline.run_eq_finish (Pipeline.unacceptable?_eq_none_iff.mp acceptable)
    Pipeline.unstopped_idle]
  rfl

theorem run_idle_not_cancelled {failure : Failure α}
    (failed : job.run .idle () = .error failure) : failure.isCancelled = false := by
  cases found : Pipeline.unacceptable? job.forecast with
  | some row =>
      rw [run_idle_of_unacceptable found] at failed
      cases failed
      rfl
  | none =>
      rw [run_idle_of_acceptable found] at failed
      rcases bind_eq_error_iff.mp failed with missing | ⟨series, _, failed⟩
      · cases missing
      · rcases bind_eq_error_iff.mp failed with summary | ⟨_, _, failed⟩
        · exact Summary.ofResults_not_cancelled summary
        · cases failed

theorem work_unbroken {σ : Type} (job : Job α) (watcher : Watcher α σ) (watching : σ) :
    job.work watcher watching (fun _ => false) = job.run watcher watching := by
  simp [work, run]

end Job

namespace Batch

variable {results : List (Except (Failure α) (Outcome α))}

def failures (results : List (Except (Failure α) (Outcome α))) : List (Failure α) :=
  results.filterMap fun result =>
    match result with
    | .error failure => some failure
    | .ok _ => none

theorem mem_failures {failure : Failure α} :
    failure ∈ failures results ↔ .error failure ∈ results := by
  unfold failures
  rw [List.mem_filterMap]
  constructor
  · rintro ⟨result, member, failed⟩
    cases result with
    | error cause =>
        cases failed
        exact member
    | ok outcome => cases failed
  · intro member
    exact ⟨.error failure, member, rfl⟩

theorem eq_map_ok (succeeded : ∀ failure, .error failure ∉ results) :
    results = (results.filterMap Except.toOption).map .ok := by
  induction results with
  | nil => rfl
  | cons result rest ih =>
      cases result with
      | error failure => exact absurd List.mem_cons_self (succeeded failure)
      | ok outcome =>
          have later := ih fun failure member => succeeded failure (List.mem_cons_of_mem _ member)
          exact congrArg (Except.ok outcome :: ·) later

theorem settle_map_ok (outcomes : List (Outcome α)) :
    settle (outcomes.map .ok) = .ok outcomes := by
  simp [settle, List.filterMap_map, Function.comp_def, Except.toOption]

/-- The three answers a batch can give, and the results that call for each. -/
theorem settle_cases (results : List (Except (Failure α) (Outcome α))) :
    (∃ outcomes, results = outcomes.map .ok ∧ settle results = .ok outcomes) ∨
    (∃ failure before after, results = before ++ .error failure :: after ∧
      failure.isCancelled = false ∧
      (∀ other, .error other ∈ before → other.isCancelled = true) ∧
      settle results = .error failure) ∨
    (∃ failure, .error failure ∈ results ∧
      (∀ other, .error other ∈ results → other.isCancelled = true) ∧
      settle results = .error failure) := by
  unfold settle
  dsimp only
  split
  · rename_i failure first
    replace first : (failures results).find? (fun failure => !failure.isCancelled) =
      some failure := first
    obtain ⟨own, earlier, later, split, cancellations⟩ := List.find?_eq_some_iff_append.mp first
    obtain ⟨before, others, rfl, rfl, rest⟩ := List.filterMap_eq_append_iff.mp split
    obtain ⟨succeeded, result, after, rfl, fine, failed, _⟩ :=
      List.filterMap_eq_cons_iff.mp rest
    cases result with
    | ok outcome => cases failed
    | error cause =>
        cases failed
        refine .inr (.inl ⟨failure, before ++ succeeded, after, by simp, by simpa using own,
          ?_, rfl⟩)
        intro other member
        rcases List.mem_append.mp member with early | between
        · simpa using cancellations other (mem_failures.mpr early)
        · cases fine _ between
  · rename_i failure rest first all
    replace all : failures results = failure :: rest := all
    refine .inr (.inr ⟨failure, mem_failures.mp ?_, ?_, rfl⟩)
    · rw [all]
      exact List.mem_cons_self
    · intro other member
      simpa using List.find?_eq_none.mp first other (mem_failures.mpr member)
  · rename_i first all
    replace all : failures results = [] := all
    refine .inl ⟨_, eq_map_ok fun failure member => ?_, rfl⟩
    have listed := mem_failures.mpr member
    rw [all] at listed
    cases listed

end Batch

end PipelineCapacity
