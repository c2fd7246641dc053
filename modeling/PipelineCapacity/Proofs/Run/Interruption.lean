import PipelineCapacity.Proofs.Run.Announcements

/-!
Runs that are refused or stopped. A run over an unacceptable volume does nothing
at all. A stopped run is the beginning of the run nobody stops, cut between two
hours: the check comes before everything an hour does, so no hour is left half
done and nothing of the hours to come is told.
-/

set_option autoImplicit false

namespace PipelineCapacity

variable {α σ : Type}

/-- The announcements of hours that follow others begin after the last of these. -/
theorem hourEvents_append (before : Option (ResultRow α)) (done rest : List (ResultRow α)) :
    hourEvents before (done ++ rest) =
      hourEvents before done ++ hourEvents (done.getLast?.or before) rest := by
  induction done generalizing before with
  | nil => rfl
  | cons row done ih =>
      rw [List.cons_append, hourEvents, ih, hourEvents, List.append_assoc, List.getLast?_cons]
      cases done.getLast? <;> rfl

theorem finished_not_mem_hourEvents (before : Option (ResultRow α)) (rows : List (ResultRow α))
    (series : ResultSeries α) : .finished series ∉ hourEvents before rows := by
  induction rows generalizing before with
  | nil => exact List.not_mem_nil
  | cons row rest ih =>
      rw [hourEvents, List.mem_append, not_or]
      refine ⟨?_, ih (some row)⟩
      unfold ResultRow.announcements
      dsimp only
      split <;> split <;> simp

namespace Watcher

/-- Stops no run. -/
def free (hear : σ → Event α → σ) : Watcher α σ := ⟨hear, fun _ _ => false⟩

/-- Stops a run as soon as one of two flags is found set. A flag may be set by
what is heard or from elsewhere. -/
def flagged (hear : σ → Event α → σ) (user batch : Nat → σ → Bool) : Watcher α σ :=
  ⟨hear, fun hours state => user hours state || batch hours state⟩

end Watcher

namespace Pipeline

theorem told_append (pipeline : Pipeline α) (name : Option String) (hours : Nat)
    (done rest : List (ResultRow α)) :
    pipeline.told name hours (done ++ rest) =
      pipeline.told name hours done ++ hourEvents done.getLast? rest := by
  unfold told
  rw [hourEvents_append, Option.or_none, List.cons_append]

theorem finished_not_mem_told (pipeline : Pipeline α) (name : Option String) (hours : Nat)
    (rows : List (ResultRow α)) (series : ResultSeries α) :
    .finished series ∉ pipeline.told name hours rows := by
  unfold told
  rw [List.mem_cons, not_or]
  exact ⟨nofun, finished_not_mem_hourEvents none rows series⟩

end Pipeline

variable [Quantity α]

namespace Progress

variable {progress : Progress α σ} {watcher : Watcher α σ} {completed : Nat}

theorem unstopped_iff {rows : List (ForecastRow α)} :
    Unstopped watcher progress completed rows ↔
      ∀ hours < rows.length,
        watcher.stops (completed + hours)
          (progress.pass watcher (rows.take hours)).watching = false := by
  induction rows generalizing progress completed with
  | nil => simp [Unstopped]
  | cons row rest ih =>
      unfold Unstopped
      rw [ih]
      constructor
      · rintro ⟨first, later⟩ hours inside
        cases hours with
        | zero => exact first
        | succ hours =>
            have passed := later hours (Nat.lt_of_succ_lt_succ inside)
            rwa [Nat.add_assoc, Nat.add_comm 1] at passed
      · intro passed
        refine ⟨passed 0 (Nat.zero_lt_succ _), fun hours inside => ?_⟩
        rw [Nat.add_assoc, Nat.add_comm 1]
        exact passed (hours + 1) (Nat.succ_lt_succ inside)

theorem drive_of_stopped {done : List (ForecastRow α)}
    (unstopped : Unstopped watcher progress completed done)
    (stopped : watcher.stops (completed + done.length) (progress.pass watcher done).watching =
      true) (row : ForecastRow α) (rest : List (ForecastRow α)) :
    progress.drive watcher completed (done ++ row :: rest) =
      (some (completed + done.length), progress.pass watcher done) := by
  induction done generalizing progress completed with
  | nil => exact if_pos stopped
  | cons first done ih =>
      obtain ⟨passed, later⟩ := unstopped
      rw [List.length_cons, Nat.add_comm done.length, ← Nat.add_assoc] at stopped ⊢
      rw [List.cons_append, drive, passed, if_neg Bool.false_ne_true]
      exact ih later stopped

end Progress

namespace Pipeline

variable {pipeline : Pipeline α} {watcher : Watcher α σ} {watching : σ} {name : Option String}
  {forecast : Forecast α}

theorem unacceptable?_of_first {done rest : List (ForecastRow α)} {row : ForecastRow α}
    (split : forecast.rows = done ++ row :: rest)
    (passed : ∀ earlier ∈ done, isNonNegative earlier.hourlyVolume = true)
    (unacceptable : isNonNegative row.hourlyVolume = false) :
    unacceptable? forecast = some row := by
  unfold unacceptable?
  rw [split, List.find?_append, List.find?_eq_none.mpr (by simpa using passed), Option.none_or]
  simp [unacceptable]

theorem pass_watching (pipeline : Pipeline α) (watcher : Watcher α σ) (watching : σ)
    (name : Option String) (hours : Nat) (rows : List (ForecastRow α)) :
    ((pipeline.start watcher watching name hours).pass watcher rows).watching =
      (pipeline.told name hours (pipeline.reset.resultRows rows)).foldl watcher.hear watching := by
  have heard := (pipeline.start_heard watcher watching name hours).pass rows
  unfold Progress.Heard at heard
  rw [heard, pass_told]

/-- The answer of the watcher at the check before an hour, if the run gets there. -/
def stopsAt (pipeline : Pipeline α) (watcher : Watcher α σ) (watching : σ)
    (name : Option String) (forecast : Forecast α) (hours : Nat) : Bool :=
  watcher.stops hours ((pipeline.told name forecast.length
    ((pipeline.reset.resultRows forecast.rows).take hours)).foldl watcher.hear watching)

theorem stopsAt_eq (hours : Nat) :
    pipeline.stopsAt watcher watching name forecast hours =
      watcher.stops hours ((pipeline.start watcher watching name forecast.length).pass watcher
        (forecast.rows.take hours)).watching := by
  rw [stopsAt, resultRows_take, pass_watching]

theorem unstopped_iff :
    pipeline.Unstopped watcher watching name forecast ↔
      ∀ hours < forecast.length,
        pipeline.stopsAt watcher watching name forecast hours = false := by
  unfold Unstopped
  simp only [Progress.unstopped_iff, Nat.zero_add, stopsAt_eq]
  rfl

/-- A run stopped at an hour has told and stepped through those before it. -/
theorem run_of_stopped
    (acceptable : ∀ row ∈ forecast.rows, isNonNegative row.hourlyVolume = true)
    {hours : Nat} (inside : hours < forecast.length)
    (stopped : pipeline.stopsAt watcher watching name forecast hours = true)
    (first : ∀ earlier < hours,
      pipeline.stopsAt watcher watching name forecast earlier = false) :
    (pipeline.run watcher watching name forecast).outcome = .error (.cancelled hours) ∧
      (pipeline.run watcher watching name forecast).events =
        pipeline.told name forecast.length
          ((pipeline.reset.resultRows forecast.rows).take hours) ∧
      (pipeline.run watcher watching name forecast).pipeline =
        pipeline.reset.after (forecast.volumes.take hours) := by
  change hours < forecast.rows.length at inside
  obtain ⟨done, row, rest, split, rfl⟩ :
      ∃ done row rest, forecast.rows = done ++ row :: rest ∧ done.length = hours := by
    refine ⟨forecast.rows.take hours, forecast.rows[hours], forecast.rows.drop (hours + 1), ?_,
      List.length_take_of_le inside.le⟩
    rw [List.getElem_cons_drop, List.take_append_drop]
  have passed : forecast.rows.take done.length = done := by rw [split, List.take_left]
  have begun : Progress.Unstopped watcher
      (pipeline.start watcher watching name forecast.length) 0 done := by
    rw [Progress.unstopped_iff]
    intro earlier before
    have unset := first earlier before
    rw [stopsAt_eq, split, List.take_append_of_le_length before.le] at unset
    rw [Nat.zero_add]
    exact unset
  rw [stopsAt_eq, passed, ← Nat.zero_add done.length] at stopped
  have driven := Progress.drive_of_stopped begun stopped row rest
  rw [← split, Nat.zero_add] at driven
  unfold run
  rw [unacceptable?_eq_none_iff.mpr acceptable]
  dsimp only
  rw [driven]
  refine ⟨rfl, ?_, ?_⟩
  · rw [resultRows_take, passed, ← pass_told pipeline watcher watching]
    rfl
  · rw [Forecast.volumes, ← List.map_take, passed]
    exact Progress.pass_pipeline _ _ _

theorem run_of_unset {hear : σ → Event α → σ} {user batch : Nat → σ → Bool}
    (acceptable : ∀ row ∈ forecast.rows, isNonNegative row.hourlyVolume = true)
    (unset : ∀ hours < forecast.length,
      pipeline.stopsAt (.flagged hear user batch) watching name forecast hours = false) :
    pipeline.run (.flagged hear user batch) watching name forecast =
      pipeline.run (.free hear) watching name forecast := by
  have letThrough := unstopped_iff.mpr unset
  have free : pipeline.Unstopped (.free hear) watching name forecast :=
    unstopped_iff.mpr fun _ _ => rfl
  rw [run_eq_finish acceptable letThrough, run_eq_finish acceptable free]
  rfl

/-- Whatever two flags do, a run over an unacceptable volume is refused at the
first one, tells nothing and leaves the pipeline as it was. Otherwise a run
stopped where a flag is first found set has told what the run of no flags tells
before that hour, and the pipeline has stepped through the hours before; if no
flag is found set, the run is that of no flags. -/
theorem run_under_flags (pipeline : Pipeline α) (hear : σ → Event α → σ)
    (user batch : Nat → σ → Bool) (watching : σ) (name : Option String)
    (forecast : Forecast α) :
    ∃ found free flagged,
      found = pipeline.stopsAt (.flagged hear user batch) watching name forecast ∧
      free = pipeline.run (.free hear) watching name forecast ∧
      flagged = pipeline.run (.flagged hear user batch) watching name forecast ∧
      (∀ done row rest, forecast.rows = done ++ row :: rest →
        (∀ earlier ∈ done, isNonNegative earlier.hourlyVolume = true) →
          isNonNegative row.hourlyVolume = false →
            flagged =
              { outcome := .error (.invalidParameter (.volumeAt row.slot row.hourlyVolume))
                pipeline
                events := []
                watching }) ∧
      ((∀ row ∈ forecast.rows, isNonNegative row.hourlyVolume = true) →
        ∃ series, free.outcome = .ok series ∧ series.length = forecast.length ∧
          free.events = pipeline.told name forecast.length series.rows ++ [.finished series] ∧
          free.pipeline = pipeline.reset.after forecast.volumes ∧
          (∀ hours < forecast.length, found hours = true →
            (∀ earlier < hours, found earlier = false) →
              flagged.outcome = .error (.cancelled hours) ∧
              flagged.events = pipeline.told name forecast.length (series.rows.take hours) ∧
              flagged.events ++ hourEvents (series.rows.take hours).getLast?
                (series.rows.drop hours) ++ [.finished series] = free.events ∧
              (∀ unfinished, .finished unfinished ∉ flagged.events) ∧
              flagged.pipeline = pipeline.reset.after (forecast.volumes.take hours)) ∧
          ((∀ hours < forecast.length, found hours = false) → flagged = free)) := by
  refine ⟨_, _, _, rfl, rfl, rfl, ?_, ?_⟩
  · intro done row rest split passed unacceptable
    unfold run
    rw [unacceptable?_of_first split passed unacceptable]
  · intro acceptable
    have unstopped : pipeline.Unstopped (.free hear) watching name forecast :=
      unstopped_iff.mpr fun _ _ => rfl
    obtain ⟨outcome, ended⟩ := run_of_unstopped acceptable unstopped
    have events := run_told acceptable unstopped
    refine ⟨_, outcome, length_resultRows _ _, events, ended, ?_, run_of_unset acceptable⟩
    intro hours inside flag first
    obtain ⟨cancelled, told, left⟩ := run_of_stopped acceptable inside flag first
    refine ⟨cancelled, told, ?_, ?_, left⟩
    · rw [told, ← told_append, List.take_append_drop, events]
    · rw [told]
      exact finished_not_mem_told _ _ _ _

/-- Sets its flag at the first change of units. -/
def alarmed (flag : Bool) (event : Event ℚ) : Bool := flag || event.change?.isSome

/-- The first hour of the rush brings a second unit, so the second one is not run. -/
theorem run_under_flags_rush :
    (∀ row ∈ rush.rows, isNonNegative row.hourlyVolume = true) ∧
      ∃ report, report =
          (ModelParams.autoscaling .eager).fresh.run
            (.flagged alarmed (fun _ flag => flag) fun _ _ => false) false none rush ∧
        report.outcome = .error (.cancelled 1) ∧
        report.events.filterMap Event.change? = [⟨⟨2025, 1, 1, .wed, 0⟩, .up, 1, 2⟩] ∧
        report.pipeline.queue.backlog = 3600 := by
  have acceptable : ∀ row ∈ rush.rows, isNonNegative row.hourlyVolume = true := by decide
  obtain ⟨found, free, flagged, asked, calm, ran, _, through⟩ :=
    (ModelParams.autoscaling .eager).fresh.run_under_flags alarmed (fun _ flag => flag)
      (fun _ _ => false) false none rush
  obtain ⟨series, outcome, _, _, _, stopped, _⟩ := through acceptable
  rw [calm, (run_of_unstopped acceptable (unstopped_iff.mpr fun _ _ => rfl)).1] at outcome
  cases outcome
  have first : ∀ earlier < 1, found earlier = false := by
    rw [asked]
    decide +kernel
  have alarm : found 1 = true := by
    rw [asked]
    decide +kernel
  obtain ⟨cancelled, events, _, _, left⟩ := stopped 1 (by decide) alarm first
  refine ⟨acceptable, flagged, ran, cancelled, ?_, ?_⟩
  · rw [events]
    decide +kernel
  · rw [left]
    decide +kernel

end Pipeline

end PipelineCapacity
