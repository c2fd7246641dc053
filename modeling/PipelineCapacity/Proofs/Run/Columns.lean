import PipelineCapacity.Proofs.Queue.Service
import PipelineCapacity.Proofs.Run.Course

/-!
The rows of a series read beside each other, in exact arithmetic.

What an hour finds is what the rows before it show: the backlog and the units of
the last of them, and an age of as many hours as rows with a backlog stand at
their end. An hourly pipeline fills every column from these and from what
arrives, so each row is explained by the rows up to it. The costs add up to what
the pipeline has spent, whichever its time-step.
-/

set_option autoImplicit false

namespace PipelineCapacity

open Quantity (ofNat)

/-- What is left waiting after some rows. -/
def backlogAfter (rows : List (ResultRow ℚ)) : ℚ := (rows.getLast?.map (·.backlog)).getD 0

/-- The units shown by the last of some rows, one before the first. -/
def unitsShown (rows : List (ResultRow ℚ)) : Nat := (rows.getLast?.map (·.units)).getD 1

/-- Rows without a gap, up to the last, that leave records waiting. -/
def waitingHours (rows : List (ResultRow ℚ)) : Nat :=
  (rows.reverse.takeWhile fun row => decide (0 < row.backlog)).length

theorem backlogAfter_concat (rows : List (ResultRow ℚ)) (row : ResultRow ℚ) :
    backlogAfter (rows ++ [row]) = row.backlog := by
  simp [backlogAfter]

theorem unitsShown_concat (rows : List (ResultRow ℚ)) (row : ResultRow ℚ) :
    unitsShown (rows ++ [row]) = row.units := by
  simp [unitsShown]

theorem waitingHours_concat (rows : List (ResultRow ℚ)) (row : ResultRow ℚ) :
    waitingHours (rows ++ [row]) = if 0 < row.backlog then waitingHours rows + 1 else 0 := by
  unfold waitingHours
  rw [List.reverse_append, List.reverse_singleton, List.singleton_append, List.takeWhile_cons]
  by_cases waiting : 0 < row.backlog
  · rw [if_pos waiting, decide_eq_true waiting, if_pos rfl, List.length_cons]
  · rw [if_neg waiting, decide_eq_false waiting, if_neg Bool.false_ne_true, List.length_nil]

namespace ModelParams

/-- Cost of an hour whatever the units. -/
def fixedHourCost : ModelParams ℚ → ℚ
  | .simple _ => 0
  | .quickScaling params => params.fixedCost
  | .autoscaling params | .autoscalingFine params => params.fixedCost

/-- The units that serve an hour: those it asks for, or those found at its start. -/
def unitsInForce (params : ModelParams ℚ) (before : List (ResultRow ℚ)) (row : ResultRow ℚ) :
    Nat :=
  match params with
  | .simple _ => 1
  | .quickScaling _ => row.units
  | .autoscaling _ | .autoscalingFine _ => unitsShown before

end ModelParams

/-- Every column of a row follows from the rows before it and what arrives. -/
structure ResultRow.Explained (params : ModelParams ℚ) (before : List (ResultRow ℚ))
    (row : ResultRow ℚ) : Prop where
  throughput : row.throughput = Min.min (backlogAfter before + row.incoming)
    (params.base.maxRate * params.unitsInForce before row)
  backlog : row.backlog = backlogAfter before + row.incoming - row.throughput
  cost : row.cost = params.fixedHourCost + params.base.unitCost * params.unitsInForce before row
  latencyFifo : row.latencyFifo = params.base.baseLatency +
    backlogAfter before / (params.base.maxRate * params.unitsInForce before row)
  latencyLifo : row.latencyLifo =
    params.base.baseLatency + 3600 * waitingHours (before ++ [row])
  costPerRecord : row.costPerRecord =
    if 0 < row.throughput then some (row.cost / row.throughput) else none

namespace Pipeline

section AnyArithmetic

variable {α : Type} [Quantity α]

theorem step_units (pipeline : Pipeline α) (volume : α) :
    (pipeline.step volume).1.units = (pipeline.step volume).2.units := by
  cases pipeline with
  | fixed model => rfl
  | quickScaling model => rfl
  | autoscaling model => rfl
  | autoscalingFine model =>
      rw [(step_autoscalingFine model volume).1, (step_autoscalingFine model volume).2,
        units_autoscalingFine]
      exact model.step_units volume

theorem step_backlog (pipeline : Pipeline α) (volume : α) :
    (pipeline.step volume).1.backlog = (pipeline.step volume).2.queue.backlog := by
  cases pipeline with
  | fixed model => rfl
  | quickScaling model => rfl
  | autoscaling model => rfl
  | autoscalingFine model =>
      rw [(step_autoscalingFine model volume).1, (step_autoscalingFine model volume).2,
        queue_autoscalingFine]
      exact model.step_backlog volume

theorem step_totalCost (pipeline : Pipeline α) (volume : α) :
    (pipeline.step volume).2.totalCost = pipeline.totalCost + (pipeline.step volume).1.cost := by
  cases pipeline with
  | fixed model => rfl
  | quickScaling model => rfl
  | autoscaling model => rfl
  | autoscalingFine model =>
      rw [(step_autoscalingFine model volume).1, (step_autoscalingFine model volume).2,
        totalCost_autoscalingFine, totalCost_autoscalingFine]
      exact model.step_totalCost volume

/-- A row of a run and what the run has done before it. -/
theorem exists_hour_of_row {pipeline : Pipeline α} {rows : List (ForecastRow α)}
    {before after : List (ResultRow α)} {row : ResultRow α}
    (split : pipeline.resultRows rows = before ++ row :: after) :
    ∃ done here rest, rows = done ++ here :: rest ∧ before = pipeline.resultRows done ∧
      row = .ofMetrics here.slot here.hourlyVolume
        ((pipeline.after (done.map (·.hourlyVolume))).step here.hourlyVolume).1 := by
  induction rows generalizing pipeline before with
  | nil =>
      exact absurd split.symm (List.append_ne_nil_of_right_ne_nil before (List.cons_ne_nil row after))
  | cons first rest ih =>
      rw [resultRows_cons] at split
      cases before with
      | nil =>
          obtain ⟨same, _⟩ := List.cons.inj split
          exact ⟨[], first, rest, rfl, rfl, same.symm⟩
      | cons head before =>
          obtain ⟨same, split⟩ := List.cons.inj split
          obtain ⟨done, here, later, rows, earlier, row⟩ := ih split
          refine ⟨first :: done, here, later, by rw [rows]; rfl, ?_, row⟩
          rw [resultRows_cons, same, earlier]

end AnyArithmetic

/-- The pipeline is where its rows have led it. -/
structure Shows (pipeline : Pipeline ℚ) (rows : List (ResultRow ℚ)) : Prop where
  backlog : pipeline.queue.backlog = backlogAfter rows
  units : pipeline.units = unitsShown rows
  age : pipeline.params.kind ≠ .autoscalingFine →
    pipeline.queue.oldestAge = 3600 * waitingHours rows

/-- The units an hour is served with. -/
def unitsServing (pipeline : Pipeline ℚ) (volume : ℚ) : Nat :=
  match pipeline with
  | fixed _ => 1
  | quickScaling model => unitsFor volume model.params.base.maxRate
  | autoscaling model => model.scaler.units
  | autoscalingFine model => model.scaler.units

/-- The load of an hour on these units. -/
def hourLoad (pipeline : Pipeline ℚ) (volume : ℚ) : Queue.Load ℚ :=
  pipeline.params.base.hourLoad volume
    (pipeline.params.base.maxRate * pipeline.unitsServing volume)

/-- The pipelines with hourly steps share one step but for the units they choose. -/
theorem step_hourly {pipeline : Pipeline ℚ} (hourly : pipeline.params.kind ≠ .autoscalingFine)
    (volume : ℚ) :
    (pipeline.step volume).1 =
        .ofService (pipeline.queue.advance (pipeline.hourLoad volume)).1
          (pipeline.params.fixedHourCost +
            pipeline.params.base.unitCost * pipeline.unitsServing volume)
          (pipeline.step volume).2.units ∧
      (pipeline.step volume).2.queue = (pipeline.queue.advance (pipeline.hourLoad volume)).2 := by
  cases pipeline with
  | fixed model =>
      have load : (fixed model).hourLoad volume =
          model.params.hourLoad volume model.params.maxRate := by
        unfold hourLoad unitsServing
        rw [Nat.cast_one, mul_one]
        rfl
      have cost : (fixed model).params.fixedHourCost +
          (fixed model).params.base.unitCost * ((fixed model).unitsServing volume : ℚ) =
            model.params.unitCost := by
        unfold unitsServing
        rw [Nat.cast_one, mul_one]
        exact zero_add _
      rw [load, cost]
      exact ⟨rfl, rfl⟩
  | quickScaling model => exact ⟨rfl, rfl⟩
  | autoscaling model => exact ⟨rfl, rfl⟩
  | autoscalingFine model => exact absurd rfl hourly

theorem unitsInForce_row (pipeline : Pipeline ℚ) {rows : List (ResultRow ℚ)}
    (shows : pipeline.Shows rows) (slot : Slot) (volume : ℚ) :
    pipeline.params.unitsInForce rows (.ofMetrics slot volume (pipeline.step volume).1) =
      pipeline.unitsServing volume := by
  have units := shows.units
  cases pipeline with
  | fixed model => rfl
  | quickScaling model => rfl
  | autoscaling model => exact units.symm
  | autoscalingFine model => exact units.symm

variable {pipeline : Pipeline ℚ} {rows : List (ResultRow ℚ)}

theorem shows_reset (pipeline : Pipeline ℚ) : pipeline.reset.Shows [] := by
  have empty : (Queue.empty : Queue ℚ) = ⟨0, 0⟩ := Queue.ext Quantity.zero_rat Quantity.zero_rat
  refine ⟨?_, pipeline.reset_units, fun _ => ?_⟩
  · rw [reset_queue, empty]
    rfl
  · rw [reset_queue, empty]
    exact (mul_zero 3600).symm

theorem row_backlog (hourly : pipeline.params.kind ≠ .autoscalingFine) (slot : Slot)
    (volume : ℚ) :
    (ResultRow.ofMetrics slot volume (pipeline.step volume).1).backlog =
      (pipeline.queue.advance (pipeline.hourLoad volume)).2.backlog := by
  rw [← (step_hourly hourly volume).2]
  exact pipeline.step_backlog volume

theorem Shows.age_step (shows : pipeline.Shows rows)
    (hourly : pipeline.params.kind ≠ .autoscalingFine) (slot : Slot) (volume : ℚ) :
    (pipeline.step volume).2.queue.oldestAge =
      3600 * waitingHours (rows ++ [.ofMetrics slot volume (pipeline.step volume).1]) := by
  have nonneg := Queue.advance_backlog_nonneg pipeline.queue (pipeline.hourLoad volume)
  rw [waitingHours_concat, row_backlog hourly, (step_hourly hourly volume).2,
    Queue.advance_oldestAge, shows.age hourly]
  by_cases drained : (pipeline.queue.advance (pipeline.hourLoad volume)).2.backlog = 0
  · rw [if_pos drained, drained, if_neg (lt_irrefl 0), Nat.cast_zero, mul_zero]
  · rw [if_neg drained, if_pos (lt_of_le_of_ne nonneg (Ne.symm drained)), Nat.cast_succ,
      mul_add_one]
    rfl

theorem Shows.step (shows : pipeline.Shows rows) (slot : Slot) (volume : ℚ) :
    (pipeline.step volume).2.Shows
      (rows ++ [.ofMetrics slot volume (pipeline.step volume).1]) := by
  refine ⟨?_, ?_, ?_⟩
  · rw [backlogAfter_concat]
    exact (pipeline.step_backlog volume).symm
  · rw [unitsShown_concat]
    exact (pipeline.step_units volume).symm
  · intro hourly
    rw [step_params] at hourly
    exact shows.age_step hourly slot volume

theorem Shows.after (shows : pipeline.Shows rows) (hours : List (ForecastRow ℚ)) :
    (pipeline.after (hours.map (·.hourlyVolume))).Shows (rows ++ pipeline.resultRows hours) := by
  induction hours generalizing pipeline rows with
  | nil =>
      change pipeline.Shows (rows ++ [])
      rwa [List.append_nil]
  | cons hour rest ih =>
      have later := ih (shows.step hour.slot hour.hourlyVolume)
      rw [List.append_assoc] at later
      exact later

/-- What an hour finds and what arrives make up its row. -/
theorem Shows.explained (shows : pipeline.Shows rows)
    (hourly : pipeline.params.kind ≠ .autoscalingFine) (slot : Slot) (volume : ℚ) :
    (ResultRow.ofMetrics slot volume (pipeline.step volume).1).Explained pipeline.params rows := by
  have units := pipeline.unitsInForce_row shows slot volume
  have report := (step_hourly hourly volume).1
  have throughput := congrArg StepMetrics.throughput report
  refine ⟨?_, ?_, ?_, ?_, ?_, rfl⟩
  · rw [units, ← shows.backlog]
    exact throughput.trans (Queue.advance_throughput _ _)
  · have served := Queue.advance_balance pipeline.queue (pipeline.hourLoad volume)
    rw [row_backlog hourly, ← shows.backlog]
    exact (eq_sub_of_add_eq' served).trans (congrArg (_ - ·) throughput.symm)
  · rw [units]
    exact congrArg StepMetrics.cost report
  · rw [units, ← shows.backlog]
    exact congrArg StepMetrics.latencyFifo report
  · rw [← shows.age_step hourly slot volume, (step_hourly hourly volume).2]
    exact congrArg StepMetrics.latencyLifo report

theorem totalCost_after (pipeline : Pipeline ℚ) (hours : List (ForecastRow ℚ)) :
    (pipeline.after (hours.map (·.hourlyVolume))).totalCost =
      pipeline.totalCost + ((pipeline.resultRows hours).map (·.cost)).sum := by
  induction hours generalizing pipeline with
  | nil => exact (add_zero _).symm
  | cons hour rest ih =>
      rw [List.map_cons, after_cons, ih, step_totalCost, resultRows_cons, List.map_cons,
        List.sum_cons, add_assoc]
      rfl

section

variable {σ : Type} {params : ModelParams ℚ} {watcher : Watcher ℚ σ} {watching : σ}
  {name : Option String} {forecast : Forecast ℚ}

/-- An unstopped run gives a row for every hour with what arrived in it. With
hourly steps every row is explained by those before it; with either time-step
the costs add up to those of the pipeline. -/
theorem Used.rows_explained (used : Used params pipeline)
    (nonneg : ∀ row ∈ forecast.rows, 0 ≤ row.hourlyVolume)
    (unstopped : pipeline.Unstopped watcher watching name forecast) :
    ∃ series,
      (pipeline.run watcher watching name forecast).outcome = .ok series ∧
      series.rows.map (·.slot) = forecast.rows.map (·.slot) ∧
      series.rows.map (·.incoming) = forecast.volumes ∧
      (params.kind ≠ .autoscalingFine →
        ∀ before row after, series.rows = before ++ row :: after →
          row.Explained params before) ∧
      series.totalCost = (pipeline.run watcher watching name forecast).pipeline.totalCost := by
  have acceptable : ∀ row ∈ forecast.rows, isNonNegative row.hourlyVolume = true :=
    fun row member => (isNonNegative_rat _).mpr (nonneg row member)
  obtain ⟨outcome, ended⟩ := run_of_unstopped acceptable unstopped
  refine ⟨_, outcome, pipeline.reset.resultRows_slot _, pipeline.reset.resultRows_incoming _,
    ?_, ?_⟩
  · intro hourly before row after split
    obtain ⟨done, here, rest, _, rfl, rfl⟩ := exists_hour_of_row split
    have shows := pipeline.shows_reset.after done
    have kept := (used.reached.reset.after (done.map (·.hourlyVolume))).fits.1
    rw [← kept] at hourly ⊢
    exact shows.explained hourly here.slot here.hourlyVolume
  · rw [ended]
    change Quantity.sum _ = _
    have spent := pipeline.reset.totalCost_after forecast.rows
    rw [reset_totalCost, Quantity.zero_rat, zero_add] at spent
    rw [Quantity.sum_rat]
    exact spent.symm

/-- The second unit serves and is paid for only in the hour after the one that
brought it, which finds a backlog of half its capacity. -/
theorem Used.rows_explained_rush :
    (∀ row ∈ rush.rows, 0 ≤ row.hourlyVolume) ∧
      ∃ pipeline, Used (.autoscaling .eager) pipeline ∧
        pipeline.Unstopped Watcher.idle () none rush ∧
        ∃ report, report = pipeline.run Watcher.idle () none rush ∧
          ∃ first second, report.outcome = .ok ⟨[first, second]⟩ ∧
            first.units = 2 ∧ first.cost = 5 / 2 ∧
            second.Explained (.autoscaling .eager) [first] ∧ second.latencyFifo = 3 / 2 ∧
            report.pipeline.totalCost = 7 := by
  have nonneg : ∀ row ∈ rush.rows, 0 ≤ row.hourlyVolume := by decide
  have acceptable : ∀ row ∈ rush.rows, isNonNegative row.hourlyVolume = true := by decide
  have used : Used (.autoscaling .eager) _ := .new (ofParams_of_valid AutoscalingParams.eager_valid)
  have unstopped : (ModelParams.autoscaling .eager).fresh.Unstopped .idle () none rush :=
    unstopped_idle
  obtain ⟨series, outcome, _, _, explained, total⟩ := used.rows_explained nonneg unstopped
  have rows := (run_of_unstopped acceptable unstopped).1
  rw [outcome] at rows
  cases rows
  refine ⟨nonneg, _, used, unstopped, _, rfl, _, _, outcome, ?_, ?_, explained nofun [_] _ [] rfl,
    ?_, ?_⟩
  · decide +kernel
  · decide +kernel
  · decide +kernel
  · rw [← total]
    decide +kernel

end

end Pipeline

end PipelineCapacity
