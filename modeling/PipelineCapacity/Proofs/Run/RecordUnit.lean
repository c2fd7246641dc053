import PipelineCapacity.Proofs.Pipeline.RecordUnit
import PipelineCapacity.Proofs.Result.Sla
import PipelineCapacity.Proofs.Run.Announcements

/-!
Runs whose records are counted in another unit, in exact arithmetic. Converting
the parameters and the forecast converts the series and the events hour by hour,
and nothing of that shows in units, money, latencies or agreements.
-/

set_option autoImplicit false

namespace PipelineCapacity

section Conversion

variable (factor : ℚ)

def ForecastRow.convert (row : ForecastRow ℚ) : ForecastRow ℚ :=
  { row with
    baseVolume := factor * row.baseVolume
    monthlyVolume := factor * row.monthlyVolume
    hourlyVolume := factor * row.hourlyVolume }

def Forecast.convert (forecast : Forecast ℚ) : Forecast ℚ :=
  ⟨forecast.rows.map (·.convert factor)⟩

def ResultRow.convert (row : ResultRow ℚ) : ResultRow ℚ :=
  { row with
    incoming := factor * row.incoming
    throughput := factor * row.throughput
    backlog := factor * row.backlog
    costPerRecord := row.costPerRecord.map (· / factor) }

def ResultSeries.convert (series : ResultSeries ℚ) : ResultSeries ℚ :=
  ⟨series.rows.map (·.convert factor)⟩

/-- Only the finish tells of records. -/
def Event.convert : Event ℚ → Event ℚ
  | .finished series => .finished (series.convert factor)
  | event => event

end Conversion

variable {factor : ℚ}

theorem Forecast.convert_volumes (forecast : Forecast ℚ) :
    (forecast.convert factor).volumes = forecast.volumes.map (factor * ·) := by
  unfold volumes convert
  rw [List.map_map, List.map_map]
  rfl

theorem ResultRow.ofMetrics_convert (positive : 0 < factor) (slot : Slot) (volume : ℚ)
    (metrics : StepMetrics ℚ) :
    ResultRow.ofMetrics slot (factor * volume) (metrics.convert factor) =
      (ResultRow.ofMetrics slot volume metrics).convert factor := by
  have costPerRecord : costPerRecord? metrics.cost (factor * metrics.throughput) =
      (costPerRecord? metrics.cost metrics.throughput).map (· / factor) := by
    have processed : Quantity.zero < factor * metrics.throughput ↔
        Quantity.zero < metrics.throughput := by
      rw [Quantity.zero_rat]
      exact mul_pos_iff_of_pos_left positive
    unfold costPerRecord?
    by_cases some : Quantity.zero < metrics.throughput
    · rw [if_pos some, if_pos (processed.mpr some), Option.map_some, div_mul_eq_div_div_swap]
    · rw [if_neg some, if_neg fun more => some (processed.mp more), Option.map_none]
  unfold ofMetrics convert StepMetrics.convert
  dsimp only
  rw [costPerRecord]

theorem ResultRow.announcements_convert (before : Option (ResultRow ℚ)) (row : ResultRow ℚ) :
    (row.convert factor).announcements (before.map (·.convert factor)) =
      (row.announcements before).map (Event.convert factor) := by
  have months : (before.map (·.convert factor)).map month = before.map month := by
    cases before <;> rfl
  have units : (before.map (·.convert factor)).map (·.units) = before.map (·.units) := by
    cases before <;> rfl
  unfold announcements
  dsimp only
  rw [months, units, List.map_append, apply_ite (List.map _), apply_ite (List.map _)]
  rfl

theorem hourEvents_convert (before : Option (ResultRow ℚ)) (rows : List (ResultRow ℚ)) :
    hourEvents (before.map (·.convert factor)) (rows.map (·.convert factor)) =
      (hourEvents before rows).map (Event.convert factor) := by
  induction rows generalizing before with
  | nil => rfl
  | cons row rest ih =>
      rw [List.map_cons, hourEvents, hourEvents, List.map_append, ← ih (some row),
        ResultRow.announcements_convert]
      rfl

theorem Sla.evaluate_convert (sla : Sla ℚ) (series : ResultSeries ℚ) :
    sla.evaluate (series.convert factor) = sla.evaluate series := by
  have within : sla.countWithin (series.convert factor) = sla.countWithin series :=
    List.countP_map
  have hours : (series.convert factor).length = series.length := List.length_map _
  have vacant : (series.convert factor).rows.isEmpty = series.rows.isEmpty := List.isEmpty_map
  unfold evaluate percentWithin
  rw [within, hours, vacant]

namespace Pipeline

theorem after_convert (positive : 0 < factor) {pipeline : Pipeline ℚ}
    (hourly : pipeline.params.kind ≠ .autoscalingFine) (volumes : List ℚ) :
    (pipeline.convert factor).after (volumes.map (factor * ·)) =
      (pipeline.after volumes).convert factor := by
  induction volumes generalizing pipeline with
  | nil => rfl
  | cons volume rest ih =>
      have kept : (pipeline.step volume).2.params.kind ≠ .autoscalingFine := by
        rwa [step_params]
      rw [List.map_cons, after_cons, after_cons, step_convert positive hourly, Prod.map_snd,
        ih kept]

theorem resultRows_convert (positive : 0 < factor) {pipeline : Pipeline ℚ}
    (hourly : pipeline.params.kind ≠ .autoscalingFine) (rows : List (ForecastRow ℚ)) :
    (pipeline.convert factor).resultRows (rows.map (·.convert factor)) =
      (pipeline.resultRows rows).map (·.convert factor) := by
  induction rows generalizing pipeline with
  | nil => rfl
  | cons row rest ih =>
      have kept : (pipeline.step row.hourlyVolume).2.params.kind ≠ .autoscalingFine := by
        rwa [step_params]
      have stepped : (pipeline.convert factor).step (row.convert factor).hourlyVolume = _ :=
        step_convert positive hourly row.hourlyVolume
      rw [List.map_cons, resultRows_cons, resultRows_cons, stepped, Prod.map_fst, Prod.map_snd,
        ih kept, List.map_cons, ← ResultRow.ofMetrics_convert positive]
      rfl

theorem told_convert {pipeline converted : Pipeline ℚ} (sameKind : converted.kind = pipeline.kind)
    (name : Option String) (hours : Nat) (rows : List (ResultRow ℚ)) :
    converted.told name hours (rows.map (·.convert factor)) =
      (pipeline.told name hours rows).map (Event.convert factor) := by
  have events := @hourEvents_convert factor none rows
  unfold told
  rw [sameKind, List.map_cons, ← events]
  rfl

variable {σ : Type} {params : ModelParams ℚ} {pipeline : Pipeline ℚ} {watcher : Watcher ℚ σ}
  {watching : σ} {name : Option String} {forecast : Forecast ℚ}

/-- The converted parameters are valid, and their runs over the converted forecast
are the converted runs: row by row, event by event and in what the pipeline is left
with. Agreements take one series as the other. -/
theorem Used.run_convert (positive : 0 < factor) (hourly : params.kind ≠ .autoscalingFine)
    (used : Used params pipeline) (nonneg : ∀ row ∈ forecast.rows, 0 ≤ row.hourlyVolume)
    (unstopped : pipeline.Unstopped watcher watching name forecast) :
    ∃ start series,
      ofParams (params.convert factor) = .ok start ∧
      (pipeline.run watcher watching name forecast).outcome = .ok series ∧
      (∀ sla : Sla ℚ, sla.evaluate (series.convert factor) = sla.evaluate series) ∧
      ∀ converted, Used (params.convert factor) converted →
        ∀ {τ : Type} (listener : Watcher ℚ τ) (listening : τ),
          converted.Unstopped listener listening name (forecast.convert factor) →
            (converted.run listener listening name (forecast.convert factor)).outcome =
                .ok (series.convert factor) ∧
              (converted.run listener listening name (forecast.convert factor)).events =
                (pipeline.run watcher watching name forecast).events.map
                  (Event.convert factor) ∧
              (converted.run listener listening name (forecast.convert factor)).pipeline =
                (pipeline.run watcher watching name forecast).pipeline.convert factor := by
  have acceptable : ∀ row ∈ forecast.rows, isNonNegative row.hourlyVolume = true :=
    fun row member => (isNonNegative_rat _).mpr (nonneg row member)
  have acceptableConverted :
      ∀ row ∈ (forecast.convert factor).rows, isNonNegative row.hourlyVolume = true := by
    intro row member
    obtain ⟨original, inside, rfl⟩ := List.mem_map.mp member
    exact (isNonNegative_rat _).mpr (mul_nonneg positive.le (nonneg original inside))
  have valid : (params.convert factor).validate = .ok () :=
    (params.validate_convert positive).mpr (ofParams_eq_ok_iff.mp used.reached.created).1
  obtain ⟨outcome, ended⟩ := run_of_unstopped acceptable unstopped
  have events := run_told acceptable unstopped
  refine ⟨_, _, ofParams_of_valid valid, outcome, fun sla => sla.evaluate_convert _, ?_⟩
  intro converted usedConverted τ listener listening calm
  obtain ⟨convertedOutcome, convertedEnd⟩ := run_of_unstopped acceptableConverted calm
  have convertedEvents := run_told acceptableConverted calm
  -- Both runs start from new pipelines, whatever was done with either before.
  have restored : converted.reset = pipeline.reset.convert factor := by
    rw [usedConverted.reached.reset_eq, used.reached.reset_eq, fresh_convert]
  have hourlyReset : pipeline.reset.params.kind ≠ .autoscalingFine := by
    rwa [used.reached.reset.fits.1]
  have rows : converted.reset.resultRows (forecast.convert factor).rows =
      (pipeline.reset.resultRows forecast.rows).map (·.convert factor) := by
    rw [restored]
    exact resultRows_convert positive hourlyReset forecast.rows
  have sameKind : converted.kind = pipeline.kind := by
    unfold kind
    rw [usedConverted.reached.fits.1, used.reached.fits.1, ModelParams.kind_convert]
  refine ⟨?_, ?_, ?_⟩
  · rw [convertedOutcome, rows]
    rfl
  · have hours : (forecast.convert factor).length = forecast.length := List.length_map _
    rw [convertedEvents, events, rows, hours, told_convert sameKind, List.map_append]
    rfl
  · rw [convertedEnd, ended, restored, Forecast.convert_volumes,
      after_convert positive hourlyReset]

/-- Twice the records on twice the rate. -/
theorem Used.run_convert_rush :
    (0 : ℚ) < 2 ∧ (ModelParams.autoscaling .eager).kind ≠ .autoscalingFine ∧
      (∀ row ∈ rush.rows, 0 ≤ row.hourlyVolume) ∧
      ∃ pipeline, Used (.autoscaling .eager) pipeline ∧
        pipeline.Unstopped Watcher.idle () none rush ∧
        ∃ start first second,
          ofParams ((ModelParams.autoscaling .eager).convert 2) = .ok start ∧
          (pipeline.run Watcher.idle () none rush).outcome = .ok ⟨[first, second]⟩ ∧
          (start.run Watcher.idle () none (rush.convert 2)).outcome =
            .ok ⟨[first.convert 2, second.convert 2]⟩ ∧
          first.backlog = 3600 ∧ (first.convert 2).backlog = 7200 ∧
          second.latencyFifo = 3 / 2 ∧ (second.convert 2).latencyFifo = 3 / 2 := by
  have nonneg : ∀ row ∈ rush.rows, 0 ≤ row.hourlyVolume := by decide
  have acceptable : ∀ row ∈ rush.rows, isNonNegative row.hourlyVolume = true := by decide
  have used : Used (.autoscaling .eager) _ := .new (ofParams_of_valid AutoscalingParams.eager_valid)
  have unstopped : (ModelParams.autoscaling .eager).fresh.Unstopped .idle () none rush :=
    unstopped_idle
  have hourly : (ModelParams.autoscaling .eager : ModelParams ℚ).kind ≠ .autoscalingFine := nofun
  obtain ⟨start, series, created, outcome, _, runs⟩ :=
    used.run_convert (by norm_num : (0 : ℚ) < 2) hourly nonneg unstopped
  obtain ⟨converted, _⟩ := runs start (.new created) Watcher.idle () unstopped_idle
  have rows := (run_of_unstopped acceptable unstopped).1
  rw [outcome] at rows
  cases rows
  refine ⟨by norm_num, hourly, nonneg, _, used, unstopped, start, _, _, created, outcome, converted,
    ?_, ?_, ?_, ?_⟩
  · decide +kernel
  · decide +kernel
  · decide +kernel
  · decide +kernel

end Pipeline

end PipelineCapacity
