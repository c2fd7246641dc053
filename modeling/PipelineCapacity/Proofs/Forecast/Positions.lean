import PipelineCapacity.Proofs.Forecast.Acceptance
import PipelineCapacity.Proofs.Forecast.Corrections
import PipelineCapacity.Forecast.Traffic

/-!
Forecasts as they can be made: generated, from plain volumes, or from given
rows. However the dates are stepped through, the slots are a stretch of the
calendar. So no slot comes twice, and where a slot stands is the inverse of
which slot stands there although nothing checks for a second row with a slot.
-/

set_option autoImplicit false

namespace PipelineCapacity

open Quantity (isFinite zero)

variable {α : Type} [Quantity α]

namespace Slot

theorem timeline_stretch (first last : Date) : timeline first last <:+: calendar := by
  refine isInfix_calendar_iff.mpr ⟨?_, timeline_isChain first last⟩
  intro slot member
  obtain ⟨date, checked, _⟩ := mem_timeline.mp member
  exact real_iff_check.mpr ⟨date, checked⟩

end Slot

namespace TrafficModel

theorem generate_eq_ok_iff [MonthlyGrowth α] {model : TrafficModel α} {first last : Date}
    {forecast : Forecast α} :
    model.generate first last = .ok forecast ↔
      model.validate = .ok () ∧ first ≤ last ∧
        forecast = ⟨(Slot.timeline first last).map
          (model.row (MonthlyGrowth.monthlyGrowth model.yearlyGrowth))⟩ := by
  unfold generate
  rw [bind_eq_ok_iff]
  constructor
  · rintro ⟨_, valid, generated⟩
    split at generated
    · cases generated
    · rename_i ordered
      cases generated
      exact ⟨refuse_eq_ok_iff.mp valid, ordered, rfl⟩
  · rintro ⟨valid, ordered, rfl⟩
    exact ⟨(), refuse_eq_ok_iff.mpr valid, if_neg ordered⟩

theorem generate_slots [MonthlyGrowth α] {model : TrafficModel α} {first last : Date}
    {forecast : Forecast α} (made : model.generate first last = .ok forecast) :
    forecast.rows.map (·.slot) = Slot.timeline first last := by
  obtain ⟨_, _, rfl⟩ := generate_eq_ok_iff.mp made
  rw [List.map_map]
  exact List.map_id (Slot.timeline first last)

theorem validate_eq_ok_iff {model : TrafficModel α} :
    model.validate = .ok () ↔
      (isFinite model.baseVolume = true ∧ ¬model.baseVolume < zero) ∧
        isFinite model.yearlyGrowth = true ∧ ¬model.yearlyGrowth < zero := by
  unfold validate
  rw [bind_eq_ok_iff]
  constructor
  · rintro ⟨_, base, growth⟩
    exact ⟨requireNonNegative_eq_ok_iff.mp base, requireNonNegative_eq_ok_iff.mp growth⟩
  · rintro ⟨base, growth⟩
    exact ⟨(), requireNonNegative_eq_ok_iff.mpr base, requireNonNegative_eq_ok_iff.mpr growth⟩

end TrafficModel

namespace Forecast

theorem follows_nextHour {date next : Date} {hour nextHour : Nat} (inDay : hour ≤ 23)
    (later : Forecast.nextHour date hour = (some next, nextHour)) :
    nextHour ≤ 23 ∧ Slot.Follows (.ofDate date hour) (.ofDate next nextHour) := by
  unfold Forecast.nextHour at later
  unfold Slot.Follows
  rw [Slot.next_ofDate date (by omega)]
  split at later
  · rename_i early
    cases later
    exact ⟨early, if_pos early⟩
  · rename_i late
    obtain ⟨succeeds, rfl⟩ := Prod.mk.inj later
    rw [if_neg late, succeeds]
    exact ⟨Nat.zero_le 23, rfl⟩

theorem nextHour_le (date : Date) (hour : Nat) : (nextHour date hour).2 ≤ 23 := by
  unfold nextHour
  split
  · rename_i early
    exact early
  · exact Nat.zero_le 23

/-- Rows placed from an hour on, the first of them at this hour. -/
theorem place_eq_ok {before rows : List (ForecastRow α)} {hour : Option Date × Nat}
    {volumes : List α} (inDay : hour.2 ≤ 23) (placed : place before hour volumes = .ok rows) :
    ∃ new, rows = before.reverse ++ new ∧
      (∀ row ∈ new, isFinite row.hourlyVolume = true ∧ ¬row.hourlyVolume < zero) ∧
      (∀ row ∈ new, row.slot.Real) ∧ (new.map (·.slot)).IsChain Slot.Follows ∧
      ∀ first ∈ new.head?, ∃ date, hour.1 = some date ∧ first.slot = .ofDate date hour.2 := by
  induction volumes generalizing before hour with
  | nil =>
      cases placed
      exact ⟨[], (List.append_nil _).symm, List.forall_mem_nil _, List.forall_mem_nil _, .nil,
        fun first impossible => by cases impossible⟩
  | cons volume rest ih =>
      obtain ⟨date?, hour⟩ := hour
      unfold place at placed
      cases checked : requireNonNegative "forecast volume" volume with
      | error cause =>
          rw [checked] at placed
          cases placed
      | ok =>
          rw [checked] at placed
          cases date? with
          | none => cases placed
          | some date =>
              obtain ⟨new, split, volumes, real, chain, start⟩ := ih (nextHour_le date hour) placed
              refine ⟨⟨.ofDate date hour, volume, volume, volume⟩ :: new, ?_, ?_, ?_, ?_, ?_⟩
              · rw [split, List.reverse_cons, List.append_assoc, List.singleton_append]
              · exact List.forall_mem_cons.mpr ⟨requireNonNegative_eq_ok_iff.mp checked, volumes⟩
              · exact List.forall_mem_cons.mpr ⟨Slot.real_ofDate date inDay, real⟩
              · cases new with
                | nil => exact List.isChain_singleton _
                | cons row new =>
                    obtain ⟨next, later, same⟩ := start row rfl
                    refine List.isChain_cons_cons.mpr ⟨?_, chain⟩
                    dsimp only
                    rw [same]
                    exact (follows_nextHour inDay (Prod.ext later rfl)).2
              · rintro _ ⟨rfl⟩
                exact ⟨date, rfl, rfl⟩

theorem place_of_ofVolumes {start : Date} {volumes : List α} {forecast : Forecast α}
    (made : ofVolumes start volumes = .ok forecast) :
    place [] (some start, 0) volumes = .ok forecast.rows := by
  unfold ofVolumes at made
  cases placed : place [] (some start, 0) volumes with
  | error cause =>
      rw [placed] at made
      cases made
  | ok rows =>
      rw [placed] at made
      cases made
      rfl

/-- Volumes from the start of a date on become rows only if there are hours for
all of them. -/
theorem ofVolumes_acceptable {start : Date} {volumes : List α} {forecast : Forecast α}
    (made : ofVolumes start volumes = .ok forecast) : Acceptable forecast.rows := by
  obtain ⟨new, split, volumes, real, chain, _⟩ :=
    place_eq_ok (Nat.zero_le 23) (place_of_ofVolumes made)
  rw [split, List.reverse_nil, List.nil_append]
  refine ⟨volumes, Slot.isInfix_calendar_iff.mpr ⟨?_, chain⟩⟩
  intro slot member
  obtain ⟨row, inside, rfl⟩ := List.mem_map.mp member
  exact real row inside

/-- The volumes run from the start of a date on, a date every twenty-four. -/
theorem ofVolumes_slot {start : Date} {volumes : List α} {forecast : Forecast α}
    (made : ofVolumes start volumes = .ok forecast) {position : Nat} {row : ForecastRow α}
    (there : forecast.rows[position]? = some row) :
    ∃ date : Date, date.dayNumber = start.dayNumber + position / 24 ∧
      row.slot = .ofDate date (position % 24) := by
  obtain ⟨new, split, _, _, chain, first⟩ :=
    place_eq_ok (Nat.zero_le 23) (place_of_ofVolumes made)
  rw [split, List.reverse_nil, List.nil_append] at there
  cases new with
  | nil => cases there
  | cons head rest =>
      obtain ⟨_, ⟨rfl⟩, same⟩ := first head rfl
      have slots : ((head :: rest).map (·.slot))[position]? = some row.slot := by
        rw [List.getElem?_map, there]
        rfl
      rw [List.map_cons, same] at chain slots
      obtain ⟨date, hour, inDay, found, number⟩ :=
        Slot.number_of_isChain chain (Nat.zero_le 23) slots
      refine ⟨date, by omega, ?_⟩
      rw [found, show hour = position % 24 by omega]

/-- The forecasts there are. Correction tables are those that can be filled. -/
inductive Made [MonthlyGrowth α] : Forecast α → Prop
  | generate {model : TrafficModel α} {first last : Date} {forecast : Forecast α}
      (monthly : model.monthly.Filled) (hourly : model.hourly.Filled)
      (made : model.generate first last = .ok forecast) : Made forecast
  | ofVolumes {start : Date} {volumes : List α} {forecast : Forecast α}
      (made : ofVolumes start volumes = .ok forecast) : Made forecast
  | constant {start : Date} {hours : Nat} {volume : α} {forecast : Forecast α}
      (made : constant start hours volume = .ok forecast) : Made forecast
  | repeating {start : Date} {times : Nat} {pattern : List α} {forecast : Forecast α}
      (made : repeating start times pattern = .ok forecast) : Made forecast
  | ofRows {rows : List (ForecastRow α)} {forecast : Forecast α}
      (made : ofRows rows = .ok forecast) : Made forecast

variable [MonthlyGrowth α] {forecast : Forecast α}

theorem generate_stretch {model : TrafficModel α} {first last : Date}
    (made : model.generate first last = .ok forecast) :
    forecast.rows.map (·.slot) <:+: Slot.calendar := by
  rw [TrafficModel.generate_slots made]
  exact Slot.timeline_stretch first last

theorem Made.stretch (made : forecast.Made) :
    forecast.rows.map (·.slot) <:+: Slot.calendar := by
  cases made with
  | generate _ _ made => exact generate_stretch made
  | ofVolumes made => exact (ofVolumes_acceptable made).stretch
  | constant made => exact (ofVolumes_acceptable made).stretch
  | repeating made => exact (ofVolumes_acceptable made).stretch
  | ofRows made =>
      obtain ⟨acceptable, same⟩ := ofRows_eq_ok_iff.mp made
      rw [same]
      exact acceptable.stretch

/-- The base volume, both factors and the growth of a month are not negative, so
no product of them along a row is. -/
theorem generate_not_neg [SignRule α] {model : TrafficModel α} {first last : Date}
    (growing : ∀ rate : α, isNonNegative rate = true → ¬MonthlyGrowth.monthlyGrowth rate < zero)
    (monthly : model.monthly.Filled) (hourly : model.hourly.Filled)
    (made : model.generate first last = .ok forecast) :
    ∀ row ∈ forecast.rows,
      ¬row.baseVolume < zero ∧ ¬row.monthlyVolume < zero ∧ ¬row.hourlyVolume < zero := by
  obtain ⟨valid, _, rfl⟩ := TrafficModel.generate_eq_ok_iff.mp made
  obtain ⟨base, rate⟩ := TrafficModel.validate_eq_ok_iff.mp valid
  intro row member
  obtain ⟨slot, _, rfl⟩ := List.mem_map.mp member
  have growth := growing model.yearlyGrowth (by simp [isNonNegative, rate])
  have monthlyVolume := SignRule.mul_not_neg _ _
    (SignRule.mul_not_neg _ _ base.2 (monthly.factor_not_neg slot.month)) growth
  exact ⟨base.2, monthlyVolume, SignRule.mul_not_neg _ _ monthlyVolume
    (hourly.factor_not_neg slot.weekday slot.hour)⟩

theorem Made.not_neg [SignRule α] (made : forecast.Made)
    (growing : ∀ rate : α, isNonNegative rate = true →
      ¬MonthlyGrowth.monthlyGrowth rate < zero) :
    ∀ row ∈ forecast.rows, ¬row.hourlyVolume < zero := by
  cases made with
  | generate monthly hourly made =>
      exact fun row member => (generate_not_neg growing monthly hourly made row member).2.2
  | ofVolumes made => exact fun row member => ((ofVolumes_acceptable made).volumes row member).2
  | constant made => exact fun row member => ((ofVolumes_acceptable made).volumes row member).2
  | repeating made => exact fun row member => ((ofVolumes_acceptable made).volumes row member).2
  | ofRows made =>
      obtain ⟨acceptable, same⟩ := ofRows_eq_ok_iff.mp made
      rw [same]
      exact fun row member => (acceptable.volumes row member).2

section Positions

omit [Quantity α] [MonthlyGrowth α]

theorem position?_concat (rows : List (ForecastRow α)) (row : ForecastRow α) (slot : Slot) :
    (⟨rows ++ [row]⟩ : Forecast α).position? slot =
      if row.slot = slot then some rows.length else (⟨rows⟩ : Forecast α).position? slot := by
  unfold position?
  dsimp only
  rw [List.zipIdx_append, List.foldl_append]
  simp

/-- Among rows with different slots the last row with a slot is the only one. -/
theorem position?_eq_some_iff (distinct : (forecast.rows.map (·.slot)).Nodup) {slot : Slot}
    {position : Nat} :
    forecast.position? slot = some position ↔
      ∃ row, forecast.rows[position]? = some row ∧ row.slot = slot := by
  obtain ⟨rows⟩ := forecast
  dsimp only at distinct ⊢
  induction rows using List.reverseRecOn with
  | nil => simp [position?]
  | append_singleton rows row ih =>
      rw [List.map_append, List.nodup_append] at distinct
      rw [position?_concat]
      by_cases same : row.slot = slot
      · -- An earlier row with this slot would lose its place, but there is none.
        rw [if_pos same, Option.some.injEq]
        constructor
        · rintro rfl
          exact ⟨row, by simp, same⟩
        · rintro ⟨other, placed, otherSlot⟩
          by_contra elsewhere
          have inside := (List.getElem?_eq_some_iff.mp placed).1
          rw [List.length_append, List.length_singleton] at inside
          rw [List.getElem?_append_left (by omega)] at placed
          exact distinct.2.2 _ (List.mem_map_of_mem (List.mem_of_getElem? placed)) row.slot
            (by simp) (otherSlot.trans same.symm)
      · rw [if_neg same, ih distinct.1]
        constructor
        · rintro ⟨other, placed, otherSlot⟩
          have inside := (List.getElem?_eq_some_iff.mp placed).1
          exact ⟨other, by rw [List.getElem?_append_left inside]; exact placed, otherSlot⟩
        · rintro ⟨other, placed, otherSlot⟩
          refine ⟨other, ?_, otherSlot⟩
          by_cases inside : position < rows.length
          · rwa [List.getElem?_append_left inside] at placed
          · rw [List.getElem?_append_right (by omega), List.getElem?_singleton] at placed
            split at placed
            · cases placed
              exact absurd otherSlot same
            · cases placed

theorem get?_eq {slot : Slot} {position : Nat}
    (placed : forecast.position? slot = some position) :
    forecast.get? slot = forecast.rows[position]? := by
  unfold get?
  rw [placed]
  rfl

end Positions

/-- However a forecast is made, its slots are consecutive hours of the calendar,
and a slot has a position exactly if it is that of the row there. If its volumes
are finite, its rows make it anew. -/
theorem Made.position?_inverse [SignRule α] (made : forecast.Made)
    (growing : ∀ rate : α, isNonNegative rate = true →
      ¬MonthlyGrowth.monthlyGrowth rate < zero) :
    forecast.rows.map (·.slot) <:+: Slot.calendar ∧
      (forecast.rows.map (·.slot)).Pairwise (· < ·) ∧
      (∀ position earlier later, forecast.rows[position]? = some earlier →
        forecast.rows[position + 1]? = some later → earlier.slot.next = .ok later.slot) ∧
      (∀ slot position, forecast.position? slot = some position ↔
        ∃ row, forecast.rows[position]? = some row ∧ row.slot = slot) ∧
      (∀ row ∈ forecast.rows, forecast.get? row.slot = some row) ∧
      (∀ slot, (∀ row ∈ forecast.rows, row.slot ≠ slot) →
        forecast.position? slot = none ∧ forecast.get? slot = none) ∧
      ((∀ row ∈ forecast.rows, isFinite row.hourlyVolume = true) →
        Forecast.ofRows forecast.rows = .ok forecast) := by
  have stretch := made.stretch
  have ascending := Slot.isInfix_calendar_pairwise stretch
  have distinct : (forecast.rows.map (·.slot)).Nodup := by
    apply ascending.imp
    intro earlier later before same
    rw [same] at before
    exact Slot.lt_irrefl later before
  refine ⟨stretch, ascending, ?_, fun slot position => position?_eq_some_iff distinct, ?_, ?_, ?_⟩
  · intro position earlier later here next
    have chain := List.isChain_map _ |>.mp (Slot.isInfix_calendar_iff.mp stretch).2
    obtain ⟨inside, rfl⟩ := List.getElem?_eq_some_iff.mp here
    obtain ⟨nextInside, rfl⟩ := List.getElem?_eq_some_iff.mp next
    exact List.isChain_iff_getElem.mp chain position nextInside
  · intro row member
    obtain ⟨position, placed⟩ := List.mem_iff_getElem?.mp member
    rw [get?_eq ((position?_eq_some_iff distinct).mpr ⟨row, placed, rfl⟩), placed]
  · intro slot absent
    have nowhere : forecast.position? slot = none := by
      cases placed : forecast.position? slot with
      | none => rfl
      | some position =>
          obtain ⟨row, there, same⟩ := (position?_eq_some_iff distinct).mp placed
          exact absurd same (absent row (List.mem_of_getElem? there))
    refine ⟨nowhere, ?_⟩
    unfold get?
    rw [nowhere]
    rfl
  · intro finite
    refine ofRows_eq_ok_iff.mpr ⟨⟨fun row member => ?_, stretch⟩, rfl⟩
    exact ⟨finite row member, made.not_neg growing row member⟩

section LeapDay

/-- Agrees with the twelfth root at the rate one. -/
local instance : MonthlyGrowth ℚ := ⟨fun rate => rate⟩

def leapDay : Date := ⟨2024, 2, 29, by decide, by decide, by decide⟩

def firstOfMarch : Date := ⟨2024, 3, 1, by decide, by decide, by decide⟩

/-- Friday noon counts double. -/
def busyNoon : TrafficModel ℚ :=
  { TrafficModel.plain "noon" 10 1 with hourly := ⟨Table.empty.insert ⟨.fri, 12⟩ 2⟩ }

theorem Made.position?_inverse_leapDay :
    ∃ forecast : Forecast ℚ, busyNoon.generate leapDay firstOfMarch = .ok forecast ∧
      forecast.Made ∧ forecast.length = 48 ∧
      forecast.position? ⟨2024, 3, 1, .fri, 12⟩ = some 36 ∧
      forecast.position? ⟨2024, 3, 1, .thu, 12⟩ = none ∧
      Forecast.ofRows forecast.rows = .ok forecast := by
  have generated : busyNoon.generate leapDay firstOfMarch = .ok _ :=
    TrafficModel.generate_eq_ok_iff.mpr ⟨rfl, by decide, rfl⟩
  have inserted : HourlyCorrections.empty.insert ⟨.fri, 12, 2⟩ = .ok busyNoon.hourly := rfl
  have hourly : busyNoon.hourly.Filled := .insert .empty inserted
  have made : Made _ := .generate .empty hourly generated
  have growing (rate : ℚ) (positive : isNonNegative rate = true) :
      ¬MonthlyGrowth.monthlyGrowth rate < (zero : ℚ) := by
    rw [Quantity.zero_rat, not_lt]
    exact (isNonNegative_rat rate).mp positive
  obtain ⟨_, _, _, inverse, _, absent, again⟩ := made.position?_inverse growing
  refine ⟨_, generated, made, rfl, ?_, ?_, again fun _ _ => rfl⟩
  · exact (inverse _ 36).mpr ⟨_, rfl, rfl⟩
  · refine (absent _ ?_).1
    decide +kernel

end LeapDay

end Forecast

end PipelineCapacity
