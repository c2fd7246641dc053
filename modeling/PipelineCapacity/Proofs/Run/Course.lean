import PipelineCapacity.Proofs.Pipeline.Params
import PipelineCapacity.Proofs.Pipeline.Steps
import PipelineCapacity.Run.Basic

/-!
The course of a run, in any arithmetic. An hour steps the pipeline and adds one
row whoever watches, so a run that no check stops folds the steps over the
volumes. It starts from a reset, which leads back to the new pipeline of the
parameters: nothing done to the pipeline before shows in the series.
-/

set_option autoImplicit false

namespace PipelineCapacity

variable {α σ : Type} [Quantity α]

namespace Pipeline

theorem length_reports (pipeline : Pipeline α) (volumes : List α) :
    (pipeline.reports volumes).length = volumes.length := by
  induction volumes generalizing pipeline with
  | nil => rfl
  | cons volume rest ih => rw [reports, List.length_cons, List.length_cons, ih]

def resultRows (pipeline : Pipeline α) (rows : List (ForecastRow α)) : List (ResultRow α) :=
  List.zipWith (fun row metrics => .ofMetrics row.slot row.hourlyVolume metrics) rows
    (pipeline.reports (rows.map (·.hourlyVolume)))

theorem resultRows_cons (pipeline : Pipeline α) (row : ForecastRow α)
    (rest : List (ForecastRow α)) :
    pipeline.resultRows (row :: rest) =
      .ofMetrics row.slot row.hourlyVolume (pipeline.step row.hourlyVolume).1 ::
        (pipeline.step row.hourlyVolume).2.resultRows rest := rfl

theorem length_resultRows (pipeline : Pipeline α) (rows : List (ForecastRow α)) :
    (pipeline.resultRows rows).length = rows.length := by
  simp [resultRows, length_reports]

theorem resultRows_take (pipeline : Pipeline α) (rows : List (ForecastRow α)) (hours : Nat) :
    (pipeline.resultRows rows).take hours = pipeline.resultRows (rows.take hours) := by
  induction rows generalizing pipeline hours with
  | nil => simp [resultRows]
  | cons row rest ih =>
      cases hours with
      | zero => rfl
      | succ hours =>
          rw [resultRows_cons, List.take_succ_cons, ih, List.take_succ_cons, resultRows_cons]

theorem resultRows_slot (pipeline : Pipeline α) (rows : List (ForecastRow α)) :
    (pipeline.resultRows rows).map (·.slot) = rows.map (·.slot) := by
  induction rows generalizing pipeline with
  | nil => rfl
  | cons row rest ih =>
      rw [resultRows_cons, List.map_cons, ih]
      rfl

theorem resultRows_incoming (pipeline : Pipeline α) (rows : List (ForecastRow α)) :
    (pipeline.resultRows rows).map (·.incoming) = rows.map (·.hourlyVolume) := by
  induction rows generalizing pipeline with
  | nil => rfl
  | cons row rest ih =>
      rw [resultRows_cons, List.map_cons, ih]
      rfl

theorem resultRows_throughput (pipeline : Pipeline α) (rows : List (ForecastRow α)) :
    (pipeline.resultRows rows).map (·.throughput) =
      (pipeline.reports (rows.map (·.hourlyVolume))).map (·.throughput) := by
  induction rows generalizing pipeline with
  | nil => rfl
  | cons row rest ih =>
      rw [resultRows_cons, List.map_cons, ih]
      rfl

theorem Reached.after {params : ModelParams α} {pipeline : Pipeline α}
    (reached : Reached params pipeline) (volumes : List α) :
    Reached params (pipeline.after volumes) := by
  induction volumes generalizing pipeline with
  | nil => exact reached
  | cons volume rest ih => exact ih (reached.step volume)

theorem Reached.created {params : ModelParams α} {pipeline : Pipeline α}
    (reached : Reached params pipeline) : ofParams params = .ok params.fresh := by
  induction reached with
  | new created => rw [← eq_fresh_of_ofParams created, created]
  | step _ _ ih => exact ih
  | reset _ ih => exact ih

end Pipeline

namespace Progress

/-- The hours of some rows one after the other, with no check between them. -/
def pass (progress : Progress α σ) (watcher : Watcher α σ) (rows : List (ForecastRow α)) :
    Progress α σ :=
  rows.foldl (fun progress row => progress.hour watcher row) progress

/-- No check before an hour stops the run. -/
def Unstopped (watcher : Watcher α σ) :
    Progress α σ → Nat → List (ForecastRow α) → Prop
  | _, _, [] => True
  | progress, completed, row :: rest =>
      watcher.stops completed progress.watching = false ∧
        Unstopped watcher (progress.hour watcher row) (completed + 1) rest

section

variable (progress : Progress α σ) (watcher : Watcher α σ)

omit [Quantity α] in
def finish : Report α σ :=
  let series : ResultSeries α := ⟨progress.rows.reverse⟩
  (progress.tell watcher (.finished series)).report (.ok series)

omit [Quantity α] in
@[simp]
theorem enterMonth_pipeline (slot : Slot) :
    (progress.enterMonth watcher slot).pipeline = progress.pipeline := by
  unfold enterMonth
  split <;> rfl

omit [Quantity α] in
@[simp]
theorem enterMonth_rows (slot : Slot) :
    (progress.enterMonth watcher slot).rows = progress.rows := by
  unfold enterMonth
  split <;> rfl

omit [Quantity α] in
@[simp]
theorem showUnits_pipeline (slot : Slot) (units : Nat) :
    (progress.showUnits watcher slot units).pipeline = progress.pipeline := by
  unfold showUnits
  split <;> rfl

omit [Quantity α] in
@[simp]
theorem showUnits_rows (slot : Slot) (units : Nat) :
    (progress.showUnits watcher slot units).rows = progress.rows := by
  unfold showUnits
  split <;> rfl

theorem hour_pipeline (row : ForecastRow α) :
    (progress.hour watcher row).pipeline =
      (progress.pipeline.step row.hourlyVolume).2 := by
  simp [hour]

theorem hour_rows (row : ForecastRow α) :
    (progress.hour watcher row).rows =
      .ofMetrics row.slot row.hourlyVolume (progress.pipeline.step row.hourlyVolume).1 ::
        progress.rows := by
  simp [hour]

theorem pass_pipeline (rows : List (ForecastRow α)) :
    (progress.pass watcher rows).pipeline =
      progress.pipeline.after (rows.map (·.hourlyVolume)) := by
  induction rows generalizing progress with
  | nil => rfl
  | cons row rest ih =>
      change ((progress.hour watcher row).pass watcher rest).pipeline = _
      rw [ih, hour_pipeline]
      rfl

theorem pass_rows (rows : List (ForecastRow α)) :
    (progress.pass watcher rows).rows =
      (progress.pipeline.resultRows rows).reverse ++ progress.rows := by
  induction rows generalizing progress with
  | nil => rfl
  | cons row rest ih =>
      change ((progress.hour watcher row).pass watcher rest).rows = _
      rw [ih, hour_pipeline, hour_rows, Pipeline.resultRows_cons, List.reverse_cons,
        List.append_assoc, List.singleton_append]

end

variable {progress : Progress α σ} {watcher : Watcher α σ} {completed : Nat}
  {rows : List (ForecastRow α)}

theorem drive_of_unstopped (unstopped : Unstopped watcher progress completed rows) :
    progress.drive watcher completed rows = (none, progress.pass watcher rows) := by
  induction rows generalizing progress completed with
  | nil => rfl
  | cons row rest ih =>
      obtain ⟨passed, later⟩ := unstopped
      rw [drive, passed, if_neg Bool.false_ne_true, ih later]
      rfl

theorem hour_watching (calm : σ → Prop)
    (hears : ∀ state event, calm state → calm (watcher.hear state event))
    (begun : calm progress.watching) (row : ForecastRow α) :
    calm (progress.hour watcher row).watching := by
  have entered : calm (progress.enterMonth watcher row.slot).watching := by
    unfold enterMonth
    split
    · exact begun
    · exact hears _ _ begun
  unfold hour showUnits
  dsimp only
  split
  · exact entered
  · exact hears _ _ entered

/-- A watcher that stays calm over everything it hears stops no run. -/
theorem unstopped_of_calm (calm : σ → Prop)
    (hears : ∀ state event, calm state → calm (watcher.hear state event))
    (lets : ∀ completed state, calm state → watcher.stops completed state = false)
    (begun : calm progress.watching) : Unstopped watcher progress completed rows := by
  induction rows generalizing progress completed with
  | nil => trivial
  | cons row rest ih => exact ⟨lets completed _ begun, ih (hour_watching calm hears begun row)⟩

/-- Stopped or not, a run has gone through the hours of a first part of the rows. -/
theorem exists_prefix_of_drive (progress : Progress α σ) (watcher : Watcher α σ)
    (completed : Nat) (rows : List (ForecastRow α)) :
    ∃ done, done <+: rows ∧
      (progress.drive watcher completed rows).2 = progress.pass watcher done := by
  induction rows generalizing progress completed with
  | nil => exact ⟨[], List.prefix_rfl, rfl⟩
  | cons row rest ih =>
      unfold drive
      split
      · exact ⟨[], List.nil_prefix, rfl⟩
      · obtain ⟨done, early, driven⟩ := ih (progress.hour watcher row) (completed + 1)
        exact ⟨row :: done, List.cons_prefix_cons.mpr ⟨rfl, early⟩, driven⟩

end Progress

namespace Pipeline

variable {pipeline : Pipeline α} {watcher : Watcher α σ} {watching : σ}
  {name : Option String} {forecast : Forecast α}

def Unstopped (pipeline : Pipeline α) (watcher : Watcher α σ) (watching : σ)
    (name : Option String) (forecast : Forecast α) : Prop :=
  Progress.Unstopped watcher (pipeline.start watcher watching name forecast.length) 0
    forecast.rows

theorem unstopped_of_calm (calm : σ → Prop)
    (hears : ∀ state event, calm state → calm (watcher.hear state event))
    (lets : ∀ completed state, calm state → watcher.stops completed state = false)
    (begun : calm watching) : pipeline.Unstopped watcher watching name forecast :=
  Progress.unstopped_of_calm calm hears lets (hears _ _ begun)

theorem unstopped_idle : pipeline.Unstopped Watcher.idle () name forecast :=
  unstopped_of_calm (fun _ => True) (fun _ _ => id) (fun _ _ _ => rfl) trivial

theorem unacceptable?_eq_none_iff :
    unacceptable? forecast = none ↔
      ∀ row ∈ forecast.rows, isNonNegative row.hourlyVolume = true := by
  simp [unacceptable?]

theorem run_eq_finish
    (acceptable : ∀ row ∈ forecast.rows, isNonNegative row.hourlyVolume = true)
    (unstopped : pipeline.Unstopped watcher watching name forecast) :
    pipeline.run watcher watching name forecast =
      ((pipeline.start watcher watching name forecast.length).pass watcher
        forecast.rows).finish watcher := by
  unfold run
  rw [unacceptable?_eq_none_iff.mpr acceptable]
  dsimp only
  rw [Progress.drive_of_unstopped unstopped]
  rfl

theorem run_of_unstopped
    (acceptable : ∀ row ∈ forecast.rows, isNonNegative row.hourlyVolume = true)
    (unstopped : pipeline.Unstopped watcher watching name forecast) :
    (pipeline.run watcher watching name forecast).outcome =
        .ok ⟨pipeline.reset.resultRows forecast.rows⟩ ∧
      (pipeline.run watcher watching name forecast).pipeline =
        pipeline.reset.after forecast.volumes := by
  rw [run_eq_finish acceptable unstopped]
  constructor
  · change Except.ok (ResultSeries.mk (Progress.pass _ watcher _).rows.reverse) = _
    rw [Progress.pass_rows]
    change Except.ok (ResultSeries.mk ((resultRows pipeline.reset _).reverse ++ []).reverse) = _
    rw [List.append_nil, List.reverse_reverse]
  · exact Progress.pass_pipeline _ _ _

/-- A run leaves the pipeline alone, or resets it and steps through some hours. -/
theorem run_pipeline (pipeline : Pipeline α) (watcher : Watcher α σ) (watching : σ)
    (name : Option String) (forecast : Forecast α) :
    (pipeline.run watcher watching name forecast).pipeline = pipeline ∨
      ∃ done, done <+: forecast.rows ∧
        (pipeline.run watcher watching name forecast).pipeline =
          pipeline.reset.after (done.map (·.hourlyVolume)) := by
  obtain ⟨done, early, driven⟩ := Progress.exists_prefix_of_drive
    (pipeline.start watcher watching name forecast.length) watcher 0 forecast.rows
  have ended := congrArg Progress.pipeline driven
  rw [Progress.pass_pipeline] at ended
  unfold run
  cases unacceptable? forecast with
  | some row => exact .inl rfl
  | none =>
      refine .inr ⟨done, early, Eq.trans ?_ ended⟩
      dsimp only
      rcases Progress.drive _ watcher 0 forecast.rows with ⟨stopped | completed, progress⟩ <;> rfl

/-- What steps, resets and runs of any kind, finished, refused or stopped, make
of the new pipeline of the parameters. -/
inductive Used (params : ModelParams α) : Pipeline α → Prop
  | new {pipeline : Pipeline α} (created : ofParams params = .ok pipeline) :
      Used params pipeline
  | step {pipeline : Pipeline α} (used : Used params pipeline) (volume : α) :
      Used params (pipeline.step volume).2
  | reset {pipeline : Pipeline α} (used : Used params pipeline) : Used params pipeline.reset
  | run {pipeline : Pipeline α} (used : Used params pipeline) {τ : Type}
      (watcher : Watcher α τ) (watching : τ) (name : Option String) (forecast : Forecast α) :
      Used params (pipeline.run watcher watching name forecast).pipeline

theorem Used.reached {params : ModelParams α} {pipeline : Pipeline α}
    (used : Used params pipeline) : Reached params pipeline := by
  induction used with
  | new created => exact .new created
  | step _ volume ih => exact ih.step volume
  | reset _ ih => exact ih.reset
  | @run pipeline _ τ watcher watching name forecast ih =>
      rcases pipeline.run_pipeline watcher watching name forecast with same | ⟨done, _, ended⟩
      · rw [same]
        exact ih
      · rw [ended]
        exact ih.reset.after _

/-- An unstopped run over acceptable volumes gives one row for every hour, from
the steps of the new pipeline of the parameters, and leaves what these steps
leave. So a second run gives the same series, and a run over the first hours
gives the first rows. -/
theorem Used.run_is_fold {params : ModelParams α} (used : Used params pipeline)
    (acceptable : ∀ row ∈ forecast.rows, isNonNegative row.hourlyVolume = true)
    (unstopped : pipeline.Unstopped watcher watching name forecast) :
    ∃ fresh series,
      ofParams pipeline.params = .ok fresh ∧
      (pipeline.run watcher watching name forecast).outcome = .ok series ∧
      series.length = forecast.length ∧
      series.rows =
        List.zipWith (fun row metrics => .ofMetrics row.slot row.hourlyVolume metrics)
          forecast.rows (fresh.reports forecast.volumes) ∧
      (pipeline.run watcher watching name forecast).pipeline = fresh.after forecast.volumes ∧
      (pipeline.run watcher watching name forecast).pipeline.params = pipeline.params ∧
      (∀ {τ : Type} (again : Watcher α τ) (listening : τ) (label : Option String),
        (pipeline.run watcher watching name forecast).pipeline.Unstopped again listening label
            forecast →
          ((pipeline.run watcher watching name forecast).pipeline.run again listening label
            forecast).outcome = .ok series) ∧
      ∀ early : Forecast α, early.rows <+: forecast.rows →
        ∀ {τ : Type} (again : Watcher α τ) (listening : τ) (label : Option String),
          pipeline.Unstopped again listening label early →
            (pipeline.run again listening label early).outcome =
              .ok ⟨series.rows.take early.length⟩ := by
  obtain ⟨outcome, ended⟩ := run_of_unstopped acceptable unstopped
  have later := used.run watcher watching name forecast
  have sameParams := used.reached.fits.1
  rw [used.reached.reset_eq] at outcome ended
  refine ⟨params.fresh, _, sameParams ▸ used.reached.created, outcome,
    length_resultRows _ _, rfl, ended, later.reached.fits.1.trans sameParams.symm, ?_, ?_⟩
  · intro τ again listening label undisturbed
    rw [(run_of_unstopped acceptable undisturbed).1, later.reached.reset_eq]
  · intro early first τ again listening label undisturbed
    have earlyAcceptable : ∀ row ∈ early.rows, isNonNegative row.hourlyVolume = true :=
      fun row member => acceptable row (first.subset member)
    rw [(run_of_unstopped earlyAcceptable undisturbed).1, used.reached.reset_eq,
      resultRows_take, Forecast.length, ← List.prefix_iff_eq_take.mp first]

/-- One full hour of two units' work, then an idle one. -/
def rush : Forecast ℚ :=
  ⟨[⟨⟨2025, 1, 1, .wed, 0⟩, 7200, 7200, 7200⟩, ⟨⟨2025, 1, 1, .wed, 1⟩, 0, 0, 0⟩]⟩

/-- The pipeline has been through a stopped run and has a backlog. -/
theorem Used.run_is_fold_rush :
    (∀ row ∈ rush.rows, isNonNegative row.hourlyVolume = true) ∧
      ∃ pipeline, Used (.autoscaling .eager) pipeline ∧
        pipeline.Unstopped CancelFlag.plain ⟨false, 0⟩ none rush ∧
        ∃ series, (pipeline.run CancelFlag.plain ⟨false, 0⟩ none rush).outcome = .ok series ∧
          series.rows.map (·.throughput) = [3600, 3600] := by
  have acceptable : ∀ row ∈ rush.rows, isNonNegative row.hourlyVolume = true := by decide
  have created : ofParams (.autoscaling .eager) = .ok _ :=
    ofParams_of_valid AutoscalingParams.eager_valid
  have used := ((Used.new created).run CancelFlag.plain ⟨true, 0⟩ none rush).step 9000
  have unstopped (pipeline : Pipeline ℚ) :
      pipeline.Unstopped CancelFlag.plain ⟨false, 0⟩ none rush :=
    unstopped_of_calm (fun flag => flag.cancelled = false) (fun _ _ => id)
      (fun _ _ unset => unset) rfl
  obtain ⟨fresh, series, restored, outcome, _, rows, _⟩ := used.run_is_fold acceptable (unstopped _)
  rw [used.reached.fits.1, created] at restored
  cases restored
  refine ⟨acceptable, _, used, unstopped _, series, outcome, ?_⟩
  rw [rows]
  decide +kernel

end Pipeline

end PipelineCapacity
