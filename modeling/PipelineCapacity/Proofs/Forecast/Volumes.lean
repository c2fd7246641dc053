import PipelineCapacity.Proofs.Forecast.Positions

/-!
Forecasts from plain volumes against timelines. One lists the hours of the dates
between two, the other goes on from hour to hour for as long as there are
volumes, and each hour has one hour after it. So the volumes take the hours of
any timeline that is long enough, and a traffic model that neither grows nor
corrects gives the same forecast as its volume repeated.
-/

set_option autoImplicit false

namespace PipelineCapacity

open Quantity (isFinite one zero)

variable {α : Type} [Quantity α]

/-- The row of an hour whose volume is not corrected. -/
def ForecastRow.uncorrected {α : Type} (slot : Slot) (volume : α) : ForecastRow α :=
  ⟨slot, volume, volume, volume⟩

namespace Slot

theorem exists_timeline_cons {first last : Date} (ordered : first ≤ last) :
    ∃ rest, timeline first last = ofDate first 0 :: rest := by
  have numbers := Date.dayNumber_le_iff.mpr ordered
  obtain ⟨days, counted⟩ : ∃ days, first.daysThrough last = days + 1 :=
    Nat.exists_eq_add_one_of_ne_zero (by unfold Date.daysThrough; omega)
  unfold timeline Date.days
  rw [counted, Date.following_succ]
  exact ⟨_, rfl⟩

end Slot

namespace Forecast

theorem nextHour_of_follows {date : Date} {hour : Nat} {later : Slot} (inDay : hour ≤ 23)
    (follows : Slot.Follows (.ofDate date hour) later) :
    ∃ next nextHour, Forecast.nextHour date hour = (some next, nextHour) ∧ nextHour ≤ 23 ∧
      later = .ofDate next nextHour := by
  unfold Slot.Follows at follows
  rw [Slot.next_ofDate date (by omega)] at follows
  unfold Forecast.nextHour
  by_cases early : hour < 23
  · rw [if_pos early] at follows ⊢
    cases follows
    exact ⟨date, hour + 1, rfl, early, rfl⟩
  · rw [if_neg early] at follows ⊢
    cases succeeds : date.succ? with
    | none =>
        rw [succeeds] at follows
        cases follows
    | some next =>
        rw [succeeds] at follows
        cases follows
        exact ⟨next, 0, rfl, Nat.zero_le 23, rfl⟩

/-- Volumes are placed on the hours after each other, as long as there are any. -/
theorem place_of_isChain {date : Date} {hour : Nat} {slots : List Slot} {volumes : List α}
    (inDay : hour ≤ 23) (chain : (.ofDate date hour :: slots).IsChain Slot.Follows)
    (acceptable : ∀ volume ∈ volumes, isFinite volume = true ∧ ¬volume < zero)
    (room : volumes.length ≤ slots.length + 1) (before : List (ForecastRow α)) :
    place before (some date, hour) volumes =
      .ok (before.reverse ++ ((Slot.ofDate date hour :: slots).zip volumes).map
        fun entry => .uncorrected entry.1 entry.2) := by
  induction volumes generalizing date hour slots before with
  | nil => simp [place]
  | cons volume rest ih =>
      obtain ⟨passed, others⟩ := List.forall_mem_cons.mp acceptable
      unfold place
      rw [requireNonNegative_eq_ok_iff.mpr passed]
      dsimp only
      rw [List.zip_cons_cons, List.map_cons]
      cases slots with
      | nil =>
          cases rest with
          | nil => simp [place, ForecastRow.uncorrected]
          | cons second rest => simp at room
      | cons next slots =>
          obtain ⟨follows, later⟩ := List.isChain_cons_cons.mp chain
          obtain ⟨nextDate, nextHour, same, nextInDay, rfl⟩ := nextHour_of_follows inDay follows
          rw [same, ih nextInDay later others (by simpa using room), List.reverse_cons,
            List.append_assoc]
          rfl

theorem place_volumes {before rows : List (ForecastRow α)} {hour : Option Date × Nat}
    {volumes : List α} (placed : place before hour volumes = .ok rows) :
    rows.map (·.hourlyVolume) = before.reverse.map (·.hourlyVolume) ++ volumes := by
  induction volumes generalizing before hour with
  | nil =>
      cases placed
      exact (List.append_nil _).symm
  | cons volume rest ih =>
      obtain ⟨date?, hour⟩ := hour
      unfold place at placed
      cases checked : requireNonNegative "forecast volume" volume with
      | error cause =>
          rw [checked] at placed
          cases placed
      | ok =>
          rw [checked] at placed
          cases date? with
          | none => cases placed
          | some date => simpa using ih placed

theorem ofVolumes_volumes {start : Date} {volumes : List α} {forecast : Forecast α}
    (made : ofVolumes start volumes = .ok forecast) : forecast.volumes = volumes :=
  place_volumes (place_of_ofVolumes made)

/-- The timeline up to any date late enough has the hours of the volumes. -/
theorem ofVolumes_of_timeline {start last : Date} {volumes : List α}
    (acceptable : ∀ volume ∈ volumes, isFinite volume = true ∧ ¬volume < zero)
    (late : start.dayNumber + ((volumes.length - 1) / 24 : Nat) ≤ last.dayNumber) :
    start ≤ last ∧ volumes.length ≤ (Slot.timeline start last).length ∧
      ofVolumes start volumes =
        .ok ⟨((Slot.timeline start last).zip volumes).map
          fun entry => .uncorrected entry.1 entry.2⟩ := by
  have ordered : start ≤ last := Date.dayNumber_le_iff.mp (by omega)
  have room : volumes.length ≤ (Slot.timeline start last).length := by
    rw [Slot.length_timeline]
    unfold Date.daysThrough
    omega
  obtain ⟨rest, hours⟩ := Slot.exists_timeline_cons ordered
  have chain := Slot.timeline_isChain start last
  refine ⟨ordered, room, ?_⟩
  rw [hours] at chain room ⊢
  unfold ofVolumes
  rw [place_of_isChain (Nat.zero_le 23) chain acceptable room]
  rfl

/-- Volumes become a forecast exactly if there is a date for the last of them. -/
theorem exists_ofVolumes_iff {start : Date} {volumes : List α} :
    (∃ forecast, ofVolumes start volumes = .ok forecast) ↔
      (∀ volume ∈ volumes, isFinite volume = true ∧ ¬volume < zero) ∧
        ∃ last : Date, last.dayNumber = start.dayNumber + ((volumes.length - 1) / 24 : Nat) := by
  constructor
  · rintro ⟨forecast, made⟩
    obtain rfl := ofVolumes_volumes made
    constructor
    · intro volume member
      obtain ⟨row, inside, rfl⟩ := List.mem_map.mp member
      exact (ofVolumes_acceptable made).volumes row inside
    · have hours : forecast.volumes.length = forecast.rows.length := List.length_map _
      rw [hours]
      cases ended : forecast.rows.getLast? with
      | none =>
          rw [List.getLast?_eq_none_iff.mp ended]
          exact ⟨start, by simp⟩
      | some row =>
          rw [List.getLast?_eq_getElem?] at ended
          obtain ⟨date, number, _⟩ := ofVolumes_slot made ended
          exact ⟨date, number⟩
  · rintro ⟨acceptable, last, number⟩
    obtain ⟨_, _, made⟩ := ofVolumes_of_timeline acceptable number.ge
    exact ⟨_, made⟩

omit [Quantity α] in
theorem slots_uncorrected {slots : List Slot} {volumes : List α}
    (room : volumes.length ≤ slots.length) :
    ((slots.zip volumes).map fun entry => ForecastRow.uncorrected entry.1 entry.2).map (·.slot) =
      slots.take volumes.length := by
  rw [List.map_map, List.zip_eq_zip_take_min, Nat.min_eq_right room, List.take_length]
  exact List.map_fst_zip (List.length_take_le _ _)

omit [Quantity α] in
theorem uncorrected_replicate (slots : List Slot) (volume : α) :
    ((slots.zip (List.replicate slots.length volume)).map
        fun entry => ForecastRow.uncorrected entry.1 entry.2) =
      slots.map fun slot => .uncorrected slot volume := by
  induction slots with
  | nil => rfl
  | cons slot rest ih =>
      rw [List.length_cons, List.replicate_succ, List.zip_cons_cons, List.map_cons, ih,
        List.map_cons]

end Forecast

theorem TrafficModel.row_plain {name : String} {volume : α} (neutral : volume * one = volume)
    (slot : Slot) : (plain name volume one).row one slot = .uncorrected slot volume := by
  have monthly : (plain name volume one).monthly.factor slot.month = one := rfl
  have hourly : (plain name volume one).hourly.factor slot.weekday slot.hour = one := rfl
  unfold row
  rw [monthly, hourly]
  change ForecastRow.mk slot volume (volume * one * one) (volume * one * one * one) = _
  rw [neutral, neutral, neutral]
  rfl

namespace Forecast

/-- Hourly volumes become a forecast if they may be volumes and the calendar has
the date of the last of them. Going on from hour to hour they then take the
hours of every timeline that is long enough. Without growth and corrections a
traffic model generates what its volume repeated gives. -/
theorem ofVolumes_on_timeline [MonthlyGrowth α] :
    (∀ (start : Date) (volumes : List α),
      ((∃ forecast, ofVolumes start volumes = .ok forecast) ↔
        (∀ volume ∈ volumes, isFinite volume = true ∧ ¬volume < zero) ∧
          ∃ last : Date,
            last.dayNumber = start.dayNumber + ((volumes.length - 1) / 24 : Nat)) ∧
      ∀ forecast, ofVolumes start volumes = .ok forecast →
        forecast.volumes = volumes ∧
        (∀ (position : Nat) (row : ForecastRow α), forecast.rows[position]? = some row →
          ∃ date : Date, date.dayNumber = start.dayNumber + position / 24 ∧
            row.slot = .ofDate date (position % 24)) ∧
        ∀ last : Date,
          start.dayNumber + ((volumes.length - 1) / 24 : Nat) ≤ last.dayNumber →
            ∃ slots, hourlyTimeline start last = (.ok slots : Except (Failure α) (List Slot)) ∧
              volumes.length ≤ slots.length ∧
              forecast.rows.map (·.slot) = slots.take volumes.length) ∧
    (MonthlyGrowth.monthlyGrowth (one : α) = one →
      isFinite (one : α) = true ∧ ¬(one : α) < zero →
      ∀ (name : String) (first last : Date) (volume : α),
        first ≤ last → isFinite volume = true ∧ ¬volume < zero → volume * one = volume →
          ∃ forecast,
            (TrafficModel.plain name volume one).generate first last = .ok forecast ∧
            constant first (24 * {date : Date | first ≤ date ∧ date ≤ last}.ncard) volume =
              .ok forecast) := by
  refine ⟨fun start volumes => ⟨exists_ofVolumes_iff, ?_⟩, ?_⟩
  · intro forecast made
    refine ⟨ofVolumes_volumes made, fun position row => ofVolumes_slot made, ?_⟩
    intro last late
    obtain ⟨acceptable, _⟩ := exists_ofVolumes_iff.mp ⟨forecast, made⟩
    obtain ⟨ordered, room, listed⟩ := ofVolumes_of_timeline acceptable late
    rw [made] at listed
    cases listed
    exact ⟨_, if_neg ordered, room, slots_uncorrected room⟩
  · intro steady unit name first last volume ordered acceptable neutral
    have repeated : ∀ amount ∈ List.replicate (Slot.timeline first last).length volume,
        isFinite amount = true ∧ ¬amount < zero := by
      intro amount member
      rw [List.eq_of_mem_replicate member]
      exact acceptable
    have late : first.dayNumber + (((List.replicate (Slot.timeline first last).length
        volume).length - 1) / 24 : Nat) ≤ last.dayNumber := by
      have numbers := Date.dayNumber_le_iff.mpr ordered
      rw [List.length_replicate, Slot.length_timeline]
      unfold Date.daysThrough
      omega
    obtain ⟨_, _, made⟩ := ofVolumes_of_timeline repeated late
    have valid : (TrafficModel.plain name volume one).validate = .ok () :=
      TrafficModel.validate_eq_ok_iff.mpr ⟨acceptable, unit⟩
    refine ⟨_, TrafficModel.generate_eq_ok_iff.mpr ⟨valid, ordered, rfl⟩, ?_⟩
    have rows : (TrafficModel.plain name volume one).row (MonthlyGrowth.monthlyGrowth one) =
        fun slot => .uncorrected slot volume := by
      rw [steady]
      exact funext (TrafficModel.row_plain neutral)
    unfold constant
    rw [Date.ncard_through, ← Slot.length_timeline, made, uncorrected_replicate, ← rows]
    rfl

section

/-- Agrees with the twelfth root at the rate one. -/
local instance leveled : MonthlyGrowth ℚ := ⟨fun rate => rate⟩

/-- Over a leap day there are two days of hours; on the last date of the calendar
there is no second one. -/
theorem ofVolumes_on_timeline_lastHours :
    (¬∃ forecast, ofVolumes .calendarEnd (List.replicate 25 (7 : ℚ)) = .ok forecast) ∧
      (∃ forecast, ofVolumes .calendarEnd (List.replicate 24 (7 : ℚ)) = .ok forecast) ∧
      ∃ forecast,
        (TrafficModel.plain "leap" (7 : ℚ) one).generate leapDay firstOfMarch = .ok forecast ∧
        constant leapDay 48 (7 : ℚ) = .ok forecast ∧
        forecast.position? ⟨2024, 3, 1, .fri, 12⟩ = some 36 := by
  obtain ⟨volumes, models⟩ := @ofVolumes_on_timeline ℚ _ _
  refine ⟨?_, ?_, ?_⟩
  · rw [(volumes .calendarEnd _).1]
    rintro ⟨_, last, number⟩
    have within := Date.dayNumber_le_iff.mpr last.le_calendarEnd
    rw [List.length_replicate] at number
    omega
  · rw [(volumes .calendarEnd _).1]
    exact ⟨by decide, .calendarEnd, rfl⟩
  · obtain ⟨forecast, generated, repeated⟩ :=
      models rfl ⟨rfl, by decide⟩ "leap" leapDay firstOfMarch 7 (by decide) ⟨rfl, by decide⟩
        (mul_one 7)
    have days : leapDay.daysThrough firstOfMarch = 2 := by decide
    rw [Date.ncard_through, days] at repeated
    refine ⟨forecast, generated, repeated, ?_⟩
    cases generated
    decide +kernel

end

end Forecast

end PipelineCapacity
