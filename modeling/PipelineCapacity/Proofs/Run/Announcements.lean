import PipelineCapacity.Proofs.Forecast.Positions
import PipelineCapacity.Proofs.Run.Course

/-!
What a run tells its observers, read off the rows it gives. The run carries the
month and the units of the hour before along; these are the month and the units
of the row before, so every announcement compares two rows of the series. In a
forecast the months ascend, and the changes of units connect to a whole course.
-/

set_option autoImplicit false

namespace PipelineCapacity

variable {α σ : Type}

namespace ResultRow

def month (row : ResultRow α) : Int × Nat := (row.slot.year, row.slot.month)

/-- What an hour makes known after the hour before, if there is one: its month if
this is another one, then its units if these are others. At first there is one
unit. -/
def announcements (before : Option (ResultRow α)) (row : ResultRow α) : List (Event α) :=
  let units := (before.map (·.units)).getD 1
  (if before.map month = some row.month then [] else [.month row.slot]) ++
    if row.units = units then []
    else [.scaling ⟨row.slot, if units < row.units then .up else .down, units, row.units⟩]

end ResultRow

/-- What hours make known one after the other. -/
def hourEvents (before : Option (ResultRow α)) : List (ResultRow α) → List (Event α)
  | [] => []
  | row :: rest => row.announcements before ++ hourEvents (some row) rest

namespace Event

def month? : Event α → Option (Int × Nat)
  | .month slot => some (slot.year, slot.month)
  | _ => none

def change? : Event α → Option ScaleEvent
  | .scaling change => some change
  | _ => none

end Event

/-- The units after the changes up to a slot, starting from a count; absent when a
change is not one of the units there are. -/
def replay (units : Nat) (events : List (Event α)) (slot : Slot) : Option Nat :=
  ((events.filterMap Event.change?).filter fun change => ¬slot < change.slot).foldlM
    (fun units change => if change.before = units then some change.after else none) units

namespace Watcher

/-- A watcher made of observers, each of which hears every event in its turn. -/
def ofObservers (observers : List (σ → Event α → σ)) (stops : Nat → σ → Bool) : Watcher α σ :=
  ⟨fun state event => observers.foldl (fun state observe => observe state event) state, stops⟩

/-- A call of one of the observers, given by its number. -/
def call (observers : List (σ → Event α → σ)) (state : σ) (delivery : Nat × Event α) : σ :=
  match observers[delivery.1]? with
  | some observe => observe state delivery.2
  | none => state

theorem foldl_call (observers : List (σ → Event α → σ)) (state : σ) (event : Event α) :
    ((List.range observers.length).map fun observer => (observer, event)).foldl
        (call observers) state =
      observers.foldl (fun state observe => observe state event) state := by
  induction observers using List.reverseRecOn generalizing state with
  | nil => rfl
  | append_singleton observers last ih =>
      have sameCalls (state : σ) (delivery : Nat × Event α) (member : delivery ∈
          (List.range observers.length).map fun observer => (observer, event)) :
          call (observers ++ [last]) state delivery = call observers state delivery := by
        obtain ⟨observer, inside, rfl⟩ := List.mem_map.mp member
        unfold call
        rw [List.getElem?_append_left (List.mem_range.mp inside)]
      rw [List.length_append, List.length_singleton, List.range_succ, List.map_append,
        List.foldl_append, List.foldl_append, List.foldl_ext _ _ _ sameCalls, ih]
      simp [call]

theorem foldl_hear (observers : List (σ → Event α → σ)) (stops : Nat → σ → Bool) (state : σ)
    (events : List (Event α)) :
    events.foldl (ofObservers observers stops).hear state =
      (deliveries observers.length events).foldl (call observers) state := by
  induction events generalizing state with
  | nil => rfl
  | cons event rest ih =>
      unfold deliveries at ih ⊢
      rw [List.foldl_cons, ih, List.flatMap_cons, List.foldl_append, foldl_call]
      rfl

end Watcher

/-! ### The announcements of ascending hours -/

def MonthBefore (earlier later : Int × Nat) : Prop :=
  earlier.1 < later.1 ∨ earlier.1 = later.1 ∧ earlier.2 < later.2

theorem MonthBefore.ne {earlier later : Int × Nat} (before : MonthBefore earlier later) :
    earlier ≠ later := by
  rintro rfl
  unfold MonthBefore at before
  omega

theorem ResultRow.month_of_lt {earlier later : ResultRow α} (before : earlier.slot < later.slot) :
    earlier.month = later.month ∨ MonthBefore earlier.month later.month := by
  unfold month MonthBefore
  rw [Slot.lt_iff] at before
  rw [Prod.mk.injEq]
  omega

theorem MonthBefore.trans {first second third : Int × Nat} (left : MonthBefore first second)
    (right : MonthBefore second third) : MonthBefore first third := by
  unfold MonthBefore at left right ⊢
  omega

theorem ResultRow.filterMap_month? (before : Option (ResultRow α)) (row : ResultRow α) :
    (row.announcements before).filterMap Event.month? =
      if before.map ResultRow.month = some row.month then [] else [row.month] := by
  unfold announcements
  dsimp only
  split <;> split <;> rfl

theorem ResultRow.filterMap_change? (before : Option (ResultRow α)) (row : ResultRow α) :
    (row.announcements before).filterMap Event.change? =
      if row.units = (before.map (·.units)).getD 1 then []
      else [⟨row.slot, if (before.map (·.units)).getD 1 < row.units then .up else .down,
        (before.map (·.units)).getD 1, row.units⟩] := by
  unfold announcements
  dsimp only
  split <;> split <;> rfl

/-- The month before the hours, if any, and those the hours announce. -/
def knownMonths (before : Option (ResultRow α)) (rows : List (ResultRow α)) : List (Int × Nat) :=
  before.toList.map ResultRow.month ++ (hourEvents before rows).filterMap Event.month?

theorem knownMonths_cons (before : Option (ResultRow α)) (row : ResultRow α)
    (rest : List (ResultRow α)) :
    knownMonths before (row :: rest) =
      (if before.map ResultRow.month = some row.month then []
        else before.toList.map ResultRow.month) ++ knownMonths (some row) rest := by
  unfold knownMonths
  rw [hourEvents, List.filterMap_append, ResultRow.filterMap_month?]
  split
  · rename_i same
    obtain ⟨last, rfl, equal⟩ := Option.map_eq_some_iff.mp same
    simp [equal]
  · simp

/-- The months of ascending hours become known in their order, none of them twice. -/
theorem knownMonths_ascending {before : Option (ResultRow α)} {rows : List (ResultRow α)}
    (ascending : (before.toList ++ rows).Pairwise fun earlier later => earlier.slot < later.slot) :
    (knownMonths before rows).Pairwise MonthBefore ∧
      ∀ key, key ∈ knownMonths before rows ↔ ∃ row ∈ before.toList ++ rows, row.month = key := by
  induction rows generalizing before with
  | nil => cases before <;> simp [knownMonths, hourEvents, eq_comm]
  | cons row rest ih =>
      have later := (List.pairwise_append.mp ascending).2.1
      obtain ⟨sorted, known⟩ := @ih (some row) later
      rw [knownMonths_cons]
      cases before with
      | none => exact ⟨sorted, known⟩
      | some last =>
          have first := (List.pairwise_cons.mp ascending).1
          by_cases same : last.month = row.month
          · have equal : (some last).map ResultRow.month = some row.month := congrArg some same
            rw [if_pos equal]
            refine ⟨sorted, fun key => (known key).trans ?_⟩
            simp [same]
          · have differ : ¬(some last).map ResultRow.month = some row.month :=
              fun equal => same (Option.some.inj equal)
            rw [if_neg differ]
            refine ⟨List.pairwise_cons.mpr ⟨?_, sorted⟩, fun key => ?_⟩
            · -- A month told later may be that of this row, which itself comes after the last one.
              intro key member
              obtain ⟨other, inside, rfl⟩ := (known key).mp member
              have step : MonthBefore last.month row.month :=
                (ResultRow.month_of_lt (first row List.mem_cons_self)).resolve_left same
              rcases List.mem_cons.mp inside with rfl | after
              · exact step
              · rcases ResultRow.month_of_lt ((List.pairwise_cons.mp later).1 other after) with
                  equal | apart
                · exact equal ▸ step
                · exact step.trans apart
            · change key ∈ last.month :: knownMonths (some row) rest ↔ _
              rw [List.mem_cons, known]
              simp [eq_comm]

/-- A change to another count, in the direction it says. -/
def ScaleEvent.Turns (change : ScaleEvent) : Prop :=
  change.before < change.after ∧ change.direction = .up ∨
    change.after < change.before ∧ change.direction = .down

theorem exists_row_of_change {before : Option (ResultRow α)} {rows : List (ResultRow α)}
    {change : ScaleEvent} (announced : change ∈ (hourEvents before rows).filterMap Event.change?) :
    change.Turns ∧ ∃ row ∈ rows, change.slot = row.slot := by
  induction rows generalizing before with
  | nil => cases announced
  | cons row rest ih =>
      rw [hourEvents, List.filterMap_append, ResultRow.filterMap_change?] at announced
      rcases List.mem_append.mp announced with own | later
      · split at own
        · cases own
        · rename_i changed
          rw [List.mem_singleton.mp own]
          refine ⟨?_, row, List.mem_cons_self, rfl⟩
          by_cases more : (before.map (·.units)).getD 1 < row.units
          · exact .inl ⟨more, if_pos more⟩
          · exact .inr ⟨Nat.lt_of_le_of_ne (Nat.not_lt.mp more) changed, if_neg more⟩
      · obtain ⟨turns, other, inside, same⟩ := ih later
        exact ⟨turns, other, List.mem_cons_of_mem row inside, same⟩

theorem replay_of_later {units : Nat} {events : List (Event α)} {slot : Slot}
    (later : ∀ change ∈ events.filterMap Event.change?, slot < change.slot) :
    replay units events slot = some units := by
  unfold replay
  rw [List.filter_eq_nil_iff.mpr fun change member => by simp [later change member]]
  rfl

/-- An hour that has come leads from the units before it to its own. -/
theorem replay_announcements {before : Option (ResultRow α)} {row : ResultRow α} {slot : Slot}
    (come : ¬slot < row.slot) (events : List (Event α)) :
    replay ((before.map (·.units)).getD 1) (row.announcements before ++ events) slot =
      replay row.units events slot := by
  unfold replay
  rw [List.filterMap_append, List.filter_append, ResultRow.filterMap_change?]
  split
  · rename_i same
    rw [same]
    rfl
  · simp [come]

/-- The changes up to an hour lead from the units before to those of the hour. -/
theorem replay_hourEvents {before : Option (ResultRow α)} {rows : List (ResultRow α)}
    (ascending : rows.Pairwise fun earlier later => earlier.slot < later.slot) :
    ∀ row ∈ rows,
      replay ((before.map (·.units)).getD 1) (hourEvents before rows) row.slot =
        some row.units := by
  induction rows generalizing before with
  | nil => exact fun row member => by cases member
  | cons first rest ih =>
      -- At the first hour all changes to come are later; at any other this one is past.
      obtain ⟨after, later⟩ := List.pairwise_cons.mp ascending
      intro row member
      rw [hourEvents]
      rcases List.mem_cons.mp member with rfl | inside
      · rw [replay_announcements (Slot.lt_irrefl row.slot)]
        apply replay_of_later
        intro change announced
        obtain ⟨_, other, otherInside, same⟩ := exists_row_of_change announced
        rw [same]
        exact after other otherInside
      · rw [replay_announcements (Slot.lt_asymm (after row inside))]
        exact @ih (some first) later row inside

namespace Progress

variable {progress : Progress α σ} {watcher : Watcher α σ} {before : Option (ResultRow α)}

/-- The run carries along what it needs of the row before. -/
structure Tracks (progress : Progress α σ) (before : Option (ResultRow α)) : Prop where
  month : progress.month = before.map ResultRow.month
  units : progress.units = (before.map (·.units)).getD 1

theorem enterMonth_events (progress : Progress α σ) (watcher : Watcher α σ) (slot : Slot) :
    (progress.enterMonth watcher slot).events =
      (if progress.month = some (slot.year, slot.month) then [] else [.month slot]) ++
        progress.events := by
  unfold enterMonth
  split <;> rfl

theorem enterMonth_month (progress : Progress α σ) (watcher : Watcher α σ) (slot : Slot) :
    (progress.enterMonth watcher slot).month = some (slot.year, slot.month) := by
  unfold enterMonth
  split
  · assumption
  · rfl

theorem enterMonth_units (progress : Progress α σ) (watcher : Watcher α σ) (slot : Slot) :
    (progress.enterMonth watcher slot).units = progress.units := by
  unfold enterMonth
  split <;> rfl

theorem showUnits_events (progress : Progress α σ) (watcher : Watcher α σ) (slot : Slot)
    (units : Nat) :
    (progress.showUnits watcher slot units).events =
      (if units = progress.units then []
        else [.scaling ⟨slot, if progress.units < units then .up else .down, progress.units,
          units⟩]) ++ progress.events := by
  unfold showUnits Direction.between
  split
  · rfl
  · rename_i changed
    by_cases more : progress.units < units
    · rw [if_pos more, if_pos more]
      rfl
    · rw [if_neg more, if_neg more, if_pos (by omega)]
      rfl

theorem showUnits_month (progress : Progress α σ) (watcher : Watcher α σ) (slot : Slot)
    (units : Nat) : (progress.showUnits watcher slot units).month = progress.month := by
  unfold showUnits
  split <;> rfl

theorem showUnits_units (progress : Progress α σ) (watcher : Watcher α σ) (slot : Slot)
    (units : Nat) : (progress.showUnits watcher slot units).units = units := by
  unfold showUnits
  split
  · rename_i same
    exact same.symm
  · rfl

theorem reverse_optional (absent : Prop) [Decidable absent] (event : Event α) :
    (if absent then [] else [event]).reverse = if absent then [] else [event] := by
  split <;> rfl

variable [Quantity α]

theorem Tracks.hour_events (tracks : progress.Tracks before) (row : ForecastRow α) :
    (progress.hour watcher row).events =
      (ResultRow.announcements before (.ofMetrics row.slot row.hourlyVolume
        (progress.pipeline.step row.hourlyVolume).1)).reverse ++ progress.events := by
  unfold hour ResultRow.announcements
  dsimp only
  rw [showUnits_events]
  dsimp only
  rw [enterMonth_events, enterMonth_units, enterMonth_pipeline, tracks.month, tracks.units,
    List.reverse_append, List.append_assoc]
  congr 1
  · exact (reverse_optional _ _).symm
  · exact congrArg (· ++ progress.events) (reverse_optional _ _).symm

theorem tracks_hour (progress : Progress α σ) (watcher : Watcher α σ) (row : ForecastRow α) :
    (progress.hour watcher row).Tracks (some (.ofMetrics row.slot row.hourlyVolume
      (progress.pipeline.step row.hourlyVolume).1)) := by
  unfold Progress.hour
  constructor
  · dsimp only
    rw [showUnits_month]
    exact enterMonth_month progress watcher row.slot
  · dsimp only
    rw [showUnits_units, enterMonth_pipeline]
    rfl

theorem Tracks.pass_events (tracks : progress.Tracks before) (rows : List (ForecastRow α)) :
    (progress.pass watcher rows).events =
      (hourEvents before (progress.pipeline.resultRows rows)).reverse ++ progress.events := by
  induction rows generalizing progress before with
  | nil => rfl
  | cons row rest ih =>
      change ((progress.hour watcher row).pass watcher rest).events = _
      rw [ih (tracks_hour progress watcher row), hour_pipeline, tracks.hour_events, Pipeline.resultRows_cons,
        hourEvents, List.reverse_append, List.append_assoc]

/-- The watcher is where the events so far have led it. -/
def Heard (watcher : Watcher α σ) (origin : σ) (progress : Progress α σ) : Prop :=
  progress.watching = progress.events.reverse.foldl watcher.hear origin

omit [Quantity α]

variable {origin : σ}

theorem Heard.tell (heard : progress.Heard watcher origin) (event : Event α) :
    (progress.tell watcher event).Heard watcher origin := by
  unfold Heard at heard ⊢
  change watcher.hear progress.watching event = (event :: progress.events).reverse.foldl _ origin
  rw [List.reverse_cons, List.foldl_append, ← heard]
  rfl

theorem Heard.enterMonth (heard : progress.Heard watcher origin) (slot : Slot) :
    (progress.enterMonth watcher slot).Heard watcher origin := by
  unfold Progress.enterMonth
  split
  · exact heard
  · exact heard.tell (.month slot)

theorem Heard.showUnits (heard : progress.Heard watcher origin) (slot : Slot) (units : Nat) :
    (progress.showUnits watcher slot units).Heard watcher origin := by
  unfold Progress.showUnits
  split
  · exact heard
  · exact heard.tell _

variable [Quantity α]

theorem Heard.hour (heard : progress.Heard watcher origin) (row : ForecastRow α) :
    (progress.hour watcher row).Heard watcher origin := by
  have entered := heard.enterMonth row.slot
  have stepped : { progress.enterMonth watcher row.slot with
      pipeline := ((progress.enterMonth watcher row.slot).pipeline.step
        row.hourlyVolume).2 }.Heard watcher origin := entered
  exact stepped.showUnits row.slot _

theorem Heard.pass (heard : progress.Heard watcher origin) (rows : List (ForecastRow α)) :
    (progress.pass watcher rows).Heard watcher origin := by
  induction rows generalizing progress with
  | nil => exact heard
  | cons row rest ih => exact ih (heard.hour row)

end Progress

namespace Pipeline

variable {pipeline : Pipeline α} {watcher : Watcher α σ} {watching : σ} {name : Option String}
  {forecast : Forecast α}

/-- What a run has told by the end of some rows of its series. -/
def told (pipeline : Pipeline α) (name : Option String) (hours : Nat)
    (rows : List (ResultRow α)) : List (Event α) :=
  .started (name.getD pipeline.kind.tag) pipeline.kind hours :: hourEvents none rows

variable [Quantity α]

theorem resultRows_month (pipeline : Pipeline α) (rows : List (ForecastRow α)) :
    (pipeline.resultRows rows).map ResultRow.month =
      rows.map fun row => (row.slot.year, row.slot.month) := by
  have months := congrArg (List.map fun slot : Slot => (slot.year, slot.month))
    (pipeline.resultRows_slot rows)
  rwa [List.map_map, List.map_map] at months

theorem start_tracks (pipeline : Pipeline α) (watcher : Watcher α σ) (watching : σ)
    (name : Option String) (hours : Nat) :
    (pipeline.start watcher watching name hours).Tracks none :=
  ⟨rfl, pipeline.reset_units⟩

theorem start_heard (pipeline : Pipeline α) (watcher : Watcher α σ) (watching : σ)
    (name : Option String) (hours : Nat) :
    (pipeline.start watcher watching name hours).Heard watcher watching := rfl

theorem pass_told (pipeline : Pipeline α) (watcher : Watcher α σ) (watching : σ)
    (name : Option String) (hours : Nat) (rows : List (ForecastRow α)) :
    ((pipeline.start watcher watching name hours).pass watcher rows).events.reverse =
      pipeline.told name hours (pipeline.reset.resultRows rows) := by
  rw [(pipeline.start_tracks watcher watching name hours).pass_events, List.reverse_append,
    List.reverse_reverse]
  change [Event.started (name.getD pipeline.reset.kind.tag) pipeline.reset.kind hours] ++ _ = _
  unfold kind told kind
  rw [reset_params]
  rfl

/-- Finished, refused or stopped, a run leaves its watcher where its events lead. -/
theorem run_watching (pipeline : Pipeline α) (watcher : Watcher α σ) (watching : σ)
    (name : Option String) (forecast : Forecast α) :
    (pipeline.run watcher watching name forecast).watching =
      (pipeline.run watcher watching name forecast).events.foldl watcher.hear watching := by
  obtain ⟨done, _, driven⟩ := Progress.exists_prefix_of_drive
    (pipeline.start watcher watching name forecast.length) watcher 0 forecast.rows
  have heard := (pipeline.start_heard watcher watching name forecast.length).pass done
  rw [← driven] at heard
  unfold run
  cases unacceptable? forecast with
  | some row => rfl
  | none =>
      dsimp only
      rcases drive : Progress.drive _ watcher 0 forecast.rows with ⟨_ | completed, progress⟩
      · rw [drive] at heard
        exact heard.tell _
      · rw [drive] at heard
        exact heard

theorem run_told (acceptable : ∀ row ∈ forecast.rows, isNonNegative row.hourlyVolume = true)
    (unstopped : pipeline.Unstopped watcher watching name forecast) :
    (pipeline.run watcher watching name forecast).events =
      pipeline.told name forecast.length (pipeline.reset.resultRows forecast.rows) ++
        [.finished ⟨pipeline.reset.resultRows forecast.rows⟩] := by
  have series := (run_of_unstopped acceptable unstopped).1
  rw [run_eq_finish acceptable unstopped] at series ⊢
  rw [← pass_told pipeline watcher watching name forecast.length, ← List.reverse_cons]
  change (Event.finished _ :: _).reverse = _
  rw [Except.ok.inj series]

theorem filterMap_run {β : Type} (read : Event α → Option β)
    (start : ∀ label kind hours, read (.started label kind hours) = none)
    (finish : ∀ series, read (.finished series) = none)
    (acceptable : ∀ row ∈ forecast.rows, isNonNegative row.hourlyVolume = true)
    (unstopped : pipeline.Unstopped watcher watching name forecast) :
    (pipeline.run watcher watching name forecast).events.filterMap read =
      (hourEvents none (pipeline.reset.resultRows forecast.rows)).filterMap read := by
  rw [run_told acceptable unstopped]
  simp [told, start, finish]

/-- Each of the observers in turn is told of every event, and each is told the
same: the start, hour by hour the month and the units that differ from those of
the hour before, the finish. Every month of the forecast is told once, and the
changes up to an hour lead from one unit to those of its row. -/
theorem run_announces [MonthlyGrowth α] (made : forecast.Made)
    (acceptable : ∀ row ∈ forecast.rows, isNonNegative row.hourlyVolume = true)
    (observers : List (σ → Event α → σ)) (stops : Nat → σ → Bool)
    (unstopped : pipeline.Unstopped (.ofObservers observers stops) watching name forecast) :
    ∃ report series,
      report = pipeline.run (.ofObservers observers stops) watching name forecast ∧
      report.outcome = .ok series ∧
      series.rows.map (·.slot) = forecast.rows.map (·.slot) ∧
      report.watching =
        (deliveries observers.length report.events).foldl (Watcher.call observers) watching ∧
      report.events =
        pipeline.told name forecast.length series.rows ++ [.finished series] ∧
      (∀ change, .scaling change ∈ report.events → change.Turns) ∧
      (report.events.filterMap Event.month?).Nodup ∧
      (∀ key, key ∈ report.events.filterMap Event.month? ↔
        ∃ row ∈ forecast.rows, (row.slot.year, row.slot.month) = key) ∧
      ∀ row ∈ series.rows, replay 1 report.events row.slot = some row.units := by
  obtain ⟨outcome, _⟩ := run_of_unstopped acceptable unstopped
  have events := run_told acceptable unstopped
  have slots := pipeline.reset.resultRows_slot forecast.rows
  have ascending : (pipeline.reset.resultRows forecast.rows).Pairwise fun earlier later =>
      earlier.slot < later.slot := by
    rw [← List.pairwise_map, slots]
    exact Slot.isInfix_calendar_pairwise made.stretch
  have months := filterMap_run Event.month? (fun _ _ _ => rfl) (fun _ => rfl) acceptable unstopped
  have changes := filterMap_run Event.change? (fun _ _ _ => rfl) (fun _ => rfl) acceptable unstopped
  obtain ⟨sorted, known⟩ := @knownMonths_ascending _ none _ ascending
  refine ⟨_, _, rfl, outcome, slots, ?_, events, ?_, ?_, ?_, ?_⟩
  · rw [← Watcher.foldl_hear observers stops]
    exact run_watching pipeline _ watching name forecast
  · intro change told
    have announced : change ∈ List.filterMap Event.change? _ :=
      List.mem_filterMap.mpr ⟨_, told, rfl⟩
    rw [changes] at announced
    exact (exists_row_of_change announced).1
  · rw [months]
    exact sorted.imp MonthBefore.ne
  · intro key
    rw [months]
    refine (known key).trans (List.mem_map.symm.trans ?_)
    change key ∈ (pipeline.reset.resultRows forecast.rows).map ResultRow.month ↔ _
    rw [resultRows_month, List.mem_map]
  · intro row member
    unfold replay
    rw [changes]
    exact @replay_hourEvents _ none _ ascending row member

section NewMonth

/-- Agrees with the twelfth root at the rate one. -/
local instance : MonthlyGrowth ℚ := ⟨fun rate => rate⟩

def lastOfNovember : Date := ⟨2023, 11, 30, by decide, by decide, by decide⟩

/-- A day whose last hour needs three units, and the first hour after it. -/
def lateRush : List ℚ := List.replicate 23 10 ++ [10000, 10]

def turnOfMonth : Forecast ℚ := (Forecast.ofVolumes lastOfNovember lateRush).toOption.getD ⟨[]⟩

/-- Has a backlog and two units. -/
def matching : Pipeline ℚ :=
  ((ModelParams.quickScaling ⟨0, AutoscalingParams.patient.base⟩).fresh.step 7200).2

/-- Two observers that sign at every month. -/
def signers : List (List String → Event ℚ → List String) :=
  ["first", "second"].map fun name notes event =>
    if event.month?.isSome then notes ++ [name] else notes

theorem run_announces_newMonth :
    turnOfMonth.Made ∧ (∀ row ∈ turnOfMonth.rows, isNonNegative row.hourlyVolume = true) ∧
      matching.Unstopped (.ofObservers signers fun _ _ => false) [] none turnOfMonth ∧
      ∃ report, report = matching.run (.ofObservers signers fun _ _ => false) [] none turnOfMonth ∧
        report.watching = ["first", "second", "first", "second"] ∧
        report.events.filterMap Event.month? = [(2023, 11), (2023, 12)] ∧
        report.events.filterMap Event.change? =
          [⟨⟨2023, 11, 30, .thu, 23⟩, .up, 1, 3⟩, ⟨⟨2023, 12, 1, .fri, 0⟩, .down, 3, 1⟩] := by
  have volumes : Forecast.ofVolumes lastOfNovember lateRush = .ok turnOfMonth := rfl
  have made : turnOfMonth.Made := .ofVolumes volumes
  have acceptable : ∀ row ∈ turnOfMonth.rows, isNonNegative row.hourlyVolume = true := by
    decide +kernel
  have unstopped :
      matching.Unstopped (.ofObservers signers fun _ _ => false) [] none turnOfMonth :=
    unstopped_of_calm (fun _ => True) (fun _ _ => id) (fun _ _ _ => rfl) trivial
  obtain ⟨report, series, ran, outcome, _, watching, events, _⟩ :=
    run_announces made acceptable signers (fun _ _ => false) unstopped
  obtain ⟨rows, _⟩ := run_of_unstopped acceptable unstopped
  rw [← ran, outcome] at rows
  cases rows
  refine ⟨made, acceptable, unstopped, report, ran, ?_, ?_, ?_⟩
  · rw [watching, events]
    decide +kernel
  · rw [events]
    decide +kernel
  · rw [events]
    decide +kernel

end NewMonth

end Pipeline

end PipelineCapacity
