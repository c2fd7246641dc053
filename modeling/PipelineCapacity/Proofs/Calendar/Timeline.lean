import Mathlib.Data.Set.Card
import Mathlib.Order.Compare
import PipelineCapacity.Forecast.Traffic
import PipelineCapacity.Proofs.Calendar.Days

/-!
Slots and timelines. A slot that passes the check is an hour of its date, and
the weekday, which the order of slots looks at before the hour, depends on the
date alone. So a timeline, which lists the hours of one date after those of
another, ascends and holds exactly the checked slots of its dates.
-/

set_option autoImplicit false

namespace PipelineCapacity

namespace Slot

theorem lt_iff {left right : Slot} :
    left < right ↔
      left.year < right.year ∨ left.year = right.year ∧
        (left.month < right.month ∨ left.month = right.month ∧
          (left.day < right.day ∨ left.day = right.day ∧
            (left.weekday.position < right.weekday.position ∨
              left.weekday.position = right.weekday.position ∧ left.hour < right.hour))) := by
  change ((compare left.year right.year).then <| (compare left.month right.month).then <|
    (compare left.day right.day).then <|
      (compare left.weekday.position right.weekday.position).then <|
        compare left.hour right.hour) = .lt ↔ _
  simp only [Ordering.then_eq_lt, Int.compare_eq_lt, Nat.compare_eq_lt,
    Std.LawfulEqOrd.compare_eq_iff_eq]

theorem ofDate_lt_of_date_lt {earlier later : Date} (before : earlier < later)
    (earlierHour laterHour : Nat) : ofDate earlier earlierHour < ofDate later laterHour := by
  rw [lt_iff]
  rcases before with years | ⟨sameYear, months | ⟨sameMonth, days⟩⟩
  · exact .inl years
  · exact .inr ⟨sameYear, .inl months⟩
  · exact .inr ⟨sameYear, .inr ⟨sameMonth, .inl days⟩⟩

theorem ofDate_lt_of_hour_lt (date : Date) {earlier later : Nat} (before : earlier < later) :
    ofDate date earlier < ofDate date later :=
  lt_iff.mpr (.inr ⟨rfl, .inr ⟨rfl, .inr ⟨rfl, .inr ⟨rfl, before⟩⟩⟩⟩)

theorem check_eq_ok_iff {slot : Slot} {date : Date} :
    slot.check = .ok date ↔ ∃ hour < 24, ofDate date hour = slot := by
  unfold check
  constructor
  · intro accepted
    split at accepted
    · cases accepted
    · rename_i found real
      split at accepted
      · cases accepted
      · split at accepted
        · cases accepted
        · rename_i hour weekday
          cases accepted
          obtain ⟨year, month, day⟩ := Date.of?_eq_some_iff.mp real
          refine ⟨slot.hour, by omega, ?_⟩
          unfold ofDate
          rw [year, month, day, ← not_not.mp weekday]
  · rintro ⟨hour, inDay, rfl⟩
    have early : ¬hour > 23 := by omega
    simp [ofDate, Date.of?_self, early]

theorem mem_ofDay {date : Date} {slot : Slot} : slot ∈ ofDay date ↔ slot.check = .ok date := by
  simp [ofDay, check_eq_ok_iff]

theorem length_ofDay (date : Date) : (ofDay date).length = 24 := by
  simp [ofDay]

theorem ofDay_pairwise (date : Date) : (ofDay date).Pairwise (· < ·) := by
  rw [ofDay, List.pairwise_map]
  exact List.pairwise_lt_range.imp (ofDate_lt_of_hour_lt date)

theorem mem_timeline {first last : Date} {slot : Slot} :
    slot ∈ timeline first last ↔ ∃ date, slot.check = .ok date ∧ first ≤ date ∧ date ≤ last := by
  simp only [timeline, List.mem_flatMap, Date.mem_days, mem_ofDay]
  constructor
  · rintro ⟨date, inside, checked⟩
    exact ⟨date, checked, inside⟩
  · rintro ⟨date, checked, inside⟩
    exact ⟨date, inside, checked⟩

theorem timeline_pairwise (first last : Date) : (timeline first last).Pairwise (· < ·) := by
  apply List.pairwise_flatMap.mpr
  constructor
  · intro date _
    exact ofDay_pairwise date
  · apply (Date.days_pairwise first last).imp
    intro earlier later before left inEarlier right inLater
    obtain ⟨leftHour, _, rfl⟩ := check_eq_ok_iff.mp (mem_ofDay.mp inEarlier)
    obtain ⟨rightHour, _, rfl⟩ := check_eq_ok_iff.mp (mem_ofDay.mp inLater)
    exact ofDate_lt_of_date_lt before leftHour rightHour

theorem length_timeline (first last : Date) :
    (timeline first last).length = 24 * first.daysThrough last := by
  have days (dates : List Date) : (dates.flatMap ofDay).length = 24 * dates.length := by
    induction dates with
    | nil => rfl
    | cons date rest ih =>
        rw [List.flatMap_cons, List.length_append, List.length_cons, length_ofDay, ih]
        omega
  rw [timeline, days, Date.length_days]

end Slot

/-- Counting dates one by one gives what the day numbers give. -/
theorem Date.ncard_through (first last : Date) :
    {date : Date | first ≤ date ∧ date ≤ last}.ncard = first.daysThrough last := by
  have listed : {date : Date | first ≤ date ∧ date ≤ last} = (first.days last).toFinset := by
    ext date
    simp [mem_days]
  have distinct : (first.days last).Nodup := by
    apply (days_pairwise first last).imp
    intro earlier later before same
    have numbers := dayNumber_lt_of_lt before
    rw [same] at numbers
    omega
  rw [listed, Set.ncard_coe_finset, List.toFinset_card_of_nodup distinct, length_days]

/-- Dates out of order have no timeline. Dates in order have one, and it is the
calendar between them. -/
theorem hourlyTimeline_calendar {α : Type} (first last : Date) :
    (last < first →
      hourlyTimeline first last =
        (.error (.invalidRange first.text last.text) : Except (Failure α) (List Slot))) ∧
    (first ≤ last → ∃ slots,
      hourlyTimeline first last = (.ok slots : Except (Failure α) (List Slot)) ∧
      slots.Pairwise (· < ·) ∧
      slots.length = 24 * {date : Date | first ≤ date ∧ date ≤ last}.ncard ∧
      (slots.length : ℤ) = 24 * (last.dayNumber - first.dayNumber + 1) ∧
      ∀ slot, slot ∈ slots ↔
        ∃ date, slot.check = .ok date ∧ first ≤ date ∧ date ≤ last) := by
  constructor
  · intro reversed
    exact if_pos reversed
  · intro ordered
    refine ⟨Slot.timeline first last, if_neg ordered, Slot.timeline_pairwise first last, ?_, ?_,
      fun slot => Slot.mem_timeline⟩
    · rw [Slot.length_timeline, Date.ncard_through]
    · have numbers := Date.dayNumber_le_iff.mpr ordered
      rw [Slot.length_timeline]
      unfold Date.daysThrough
      omega

def Date.calendarEnd : Date := ⟨lastYear, 12, 31, by decide, by decide, by decide⟩

def Date.calendarEve : Date := ⟨lastYear, 12, 30, by decide, by decide, by decide⟩

/-- The last two days of the calendar, after which no date follows. -/
theorem hourlyTimeline_calendarEnd :
    Date.calendarEnd.succ? = none ∧ Date.calendarEve < .calendarEnd ∧
      Date.calendarEve ≤ .calendarEnd ∧
      hourlyTimeline .calendarEnd .calendarEve =
        (.error (.invalidRange Date.calendarEnd.text Date.calendarEve.text) :
          Except (Failure Rat) (List Slot)) ∧
      ∃ slots, hourlyTimeline .calendarEve .calendarEnd =
          (.ok slots : Except (Failure Rat) (List Slot)) ∧
        slots.length = 48 ∧ Slot.ofDate .calendarEnd 23 ∈ slots := by
  have last : Date.calendarEnd.succ? = none := by decide
  have before : Date.calendarEve < .calendarEnd := by decide
  have ordered : Date.calendarEve ≤ .calendarEnd := by decide
  obtain ⟨slots, found, _, _, count, member⟩ :=
    (hourlyTimeline_calendar .calendarEve .calendarEnd).2 ordered
  have days : Date.calendarEnd.dayNumber - Date.calendarEve.dayNumber + 1 = 2 := by decide
  have checked : (Slot.ofDate .calendarEnd 23).check = .ok .calendarEnd :=
    Slot.check_eq_ok_iff.mpr ⟨23, by decide, rfl⟩
  refine ⟨last, before, ordered, (hourlyTimeline_calendar .calendarEnd .calendarEve).1 before,
    slots, found, ?_, ?_⟩
  · omega
  · exact (member _).mpr ⟨.calendarEnd, checked, ordered, by decide⟩

end PipelineCapacity
