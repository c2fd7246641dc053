import Mathlib.Data.List.Infix
import PipelineCapacity.Proofs.Calendar.Timeline

/-!
The whole calendar as one line of hours, in which every hour is followed by the
hour after it and only the last one by none. Since an hour has one hour after
it, going on from hour to hour is the same as reading off a stretch of the line.
-/

set_option autoImplicit false

namespace PipelineCapacity

namespace Date

theorem following_isChain (date : Date) (count : Nat) :
    (date.following count).IsChain fun earlier later => earlier.succ? = some later := by
  induction count generalizing date with
  | zero => exact .nil
  | succ count ih =>
      rw [following_succ]
      cases follows : date.succ? with
      | none => exact List.isChain_singleton date
      | some next =>
          have later := ih next
          cases count with
          | zero => exact List.isChain_singleton date
          | succ count =>
              dsimp only
              rw [following_succ] at later ⊢
              exact List.isChain_cons_cons.mpr ⟨follows, later⟩

def calendarStart : Date := ⟨firstYear, 1, 1, by decide, by decide, by decide⟩

theorem calendarStart_le (date : Date) : calendarStart ≤ date := by
  have year := date.year_mem.1
  have month := date.month_mem.1
  have day := date.day_mem.1
  change ¬(date.year < firstYear ∨ date.year = firstYear ∧
    (date.month < 1 ∨ date.month = 1 ∧ date.day < 1))
  omega

theorem le_calendarEnd (date : Date) : date ≤ calendarEnd := by
  intro past
  obtain ⟨next, follows⟩ := exists_succ_of_lt past
  have none : calendarEnd.succ? = none := by decide
  rw [none] at follows
  cases follows

end Date

namespace Slot

def IsOn (slot : Slot) (date : Date) : Prop :=
  slot.year = date.year ∧ slot.month = date.month ∧ slot.day = date.day

/-- An hour of a date of the calendar, under the weekday of the date. -/
def Real (slot : Slot) : Prop :=
  ∃ date : Date, slot.IsOn date ∧ slot.weekday = date.weekday ∧ slot.hour ≤ 23

theorem check_of_isOn {slot : Slot} {date : Date} (on : slot.IsOn date) :
    slot.check =
      if slot.hour > 23 then .error (.hourOutside date slot.hour)
      else if slot.weekday ≠ date.weekday then
        .error (.wrongWeekday date slot.weekday date.weekday)
      else .ok date := by
  obtain ⟨year, month, day⟩ := on
  unfold check
  rw [year, month, day, Date.of?_self]

theorem check_of_no_date {slot : Slot} (absent : ∀ date, ¬slot.IsOn date) :
    slot.check = .error (.notADate slot.year slot.month slot.day) := by
  unfold check
  cases found : Date.of? slot.year slot.month slot.day with
  | none => rfl
  | some date =>
      obtain ⟨year, month, day⟩ := Date.of?_eq_some_iff.mp found
      exact absurd ⟨year.symm, month.symm, day.symm⟩ (absent date)

theorem real_ofDate (date : Date) {hour : Nat} (inDay : hour ≤ 23) : (ofDate date hour).Real :=
  ⟨date, ⟨rfl, rfl, rfl⟩, rfl, inDay⟩

theorem real_iff_check {slot : Slot} : slot.Real ↔ ∃ date, slot.check = .ok date := by
  constructor
  · rintro ⟨date, on, weekday, inDay⟩
    refine ⟨date, ?_⟩
    rw [check_of_isOn on, if_neg (by omega), if_neg (not_not.mpr weekday)]
  · rintro ⟨date, checked⟩
    obtain ⟨hour, inDay, rfl⟩ := check_eq_ok_iff.mp checked
    exact real_ofDate date (by omega)

def Follows (earlier later : Slot) : Prop := earlier.next = .ok later

theorem next_ofDate (date : Date) {hour : Nat} (inDay : hour < 24) :
    (ofDate date hour).next =
      if hour < 23 then .ok (ofDate date (hour + 1))
      else match date.succ? with
        | some later => .ok (ofDate later 0)
        | none => .error .pastCalendar := by
  have checked : (ofDate date hour).check = .ok date := check_eq_ok_iff.mpr ⟨hour, inDay, rfl⟩
  unfold next
  rw [checked]
  change (if hour < 23 then (.ok (ofDate date (hour + 1)) : Except SlotFault Slot) else _) = _
  cases date.succ? <;> rfl

theorem Follows.exists_ofDate {earlier later : Slot} (follows : Follows earlier later) :
    ∃ date, (∃ hour < 23, earlier = ofDate date hour ∧ later = ofDate date (hour + 1)) ∨
      ∃ nextDate, date.succ? = some nextDate ∧
        earlier = ofDate date 23 ∧ later = ofDate nextDate 0 := by
  cases checked : earlier.check with
  | error fault =>
      unfold Follows next at follows
      rw [checked] at follows
      cases follows
  | ok date =>
      obtain ⟨hour, inDay, rfl⟩ := check_eq_ok_iff.mp checked
      refine ⟨date, ?_⟩
      unfold Follows at follows
      rw [next_ofDate date inDay] at follows
      split at follows
      · rename_i early
        cases follows
        exact .inl ⟨hour, early, rfl, rfl⟩
      · obtain rfl : hour = 23 := by omega
        split at follows
        · rename_i nextDate succeeds
          cases follows
          exact .inr ⟨nextDate, succeeds, rfl, rfl⟩
        · cases follows

theorem Follows.real {earlier later : Slot} (follows : Follows earlier later) :
    earlier.Real ∧ later.Real := by
  obtain ⟨date, ⟨hour, early, rfl, rfl⟩ | ⟨nextDate, _, rfl, rfl⟩⟩ := follows.exists_ofDate
  · exact ⟨real_ofDate date (by omega), real_ofDate date (by omega)⟩
  · exact ⟨real_ofDate date (by omega), real_ofDate nextDate (by omega)⟩

theorem Follows.lt {earlier later : Slot} (follows : Follows earlier later) :
    earlier < later := by
  obtain ⟨date, ⟨hour, _, rfl, rfl⟩ | ⟨nextDate, succeeds, rfl, rfl⟩⟩ := follows.exists_ofDate
  · exact ofDate_lt_of_hour_lt date (Nat.lt_succ_self hour)
  · have number := Date.dayNumber_succ succeeds
    exact ofDate_lt_of_date_lt (Date.dayNumber_lt_iff.mp (by omega)) 23 0

theorem Follows.unique {slot left right : Slot} (first : Follows slot left)
    (second : Follows slot right) : left = right :=
  Except.ok.inj (first.symm.trans second)

/-- Hours that follow each other are counted through, over the ends of dates. -/
theorem number_of_isChain {date : Date} {hour : Nat} {slots : List Slot}
    (chain : (ofDate date hour :: slots).IsChain Follows) (inDay : hour ≤ 23) {position : Nat}
    {slot : Slot} (there : (ofDate date hour :: slots)[position]? = some slot) :
    ∃ later laterHour, laterHour ≤ 23 ∧ slot = ofDate later laterHour ∧
      24 * later.dayNumber + laterHour = 24 * date.dayNumber + hour + position := by
  induction position generalizing date hour slots with
  | zero =>
      cases there
      exact ⟨date, hour, inDay, rfl, by omega⟩
  | succ position ih =>
      cases slots with
      | nil => cases there
      | cons next slots =>
          have step := List.isChain_cons_cons.mp chain
          unfold Follows at step
          rw [next_ofDate date (by omega)] at step
          rw [List.getElem?_cons_succ] at there
          split at step
          · obtain ⟨⟨rfl⟩, chain⟩ := step
            obtain ⟨later, laterHour, bound, found, number⟩ := ih chain (by omega) there
            exact ⟨later, laterHour, bound, found, by omega⟩
          · cases succeeds : date.succ? with
            | none =>
                rw [succeeds] at step
                cases step.1
            | some nextDate =>
                rw [succeeds] at step
                obtain ⟨⟨rfl⟩, chain⟩ := step
                obtain ⟨later, laterHour, bound, found, number⟩ := ih chain (by omega) there
                have day := Date.dayNumber_succ succeeds
                exact ⟨later, laterHour, bound, found, by omega⟩

theorem ofDay_isChain (date : Date) : (ofDay date).IsChain Follows := by
  rw [ofDay, List.isChain_map, List.isChain_range]
  intro hour early
  have within : hour < 23 := early
  exact (next_ofDate date (by omega)).trans (if_pos within)

/-- Midnight leads from the last hour of a date to the first of the next. -/
theorem flatMap_ofDay_isChain {dates : List Date}
    (chain : dates.IsChain fun earlier later => earlier.succ? = some later) :
    (dates.flatMap ofDay).IsChain Follows := by
  induction dates with
  | nil => exact .nil
  | cons date rest ih =>
      rw [List.flatMap_cons]
      refine List.isChain_append.mpr ⟨ofDay_isChain date, ih chain.tail, ?_⟩
      intro last atEnd first atStart
      have lastHour : (ofDay date).getLast? = some (ofDate date 23) := rfl
      rw [lastHour] at atEnd
      cases atEnd
      cases rest with
      | nil => cases atStart
      | cons nextDate rest =>
          have firstHour : ((nextDate :: rest).flatMap ofDay).head? = some (ofDate nextDate 0) :=
            rfl
          rw [firstHour] at atStart
          cases atStart
          have succeeds := (List.isChain_cons_cons.mp chain).1
          unfold Follows
          rw [next_ofDate date (by omega), if_neg (by omega), succeeds]

theorem timeline_isChain (first last : Date) : (timeline first last).IsChain Follows :=
  flatMap_ofDay_isChain (first.following_isChain _)

/-- Every hour of the calendar, in order. -/
def calendar : List Slot := timeline .calendarStart .calendarEnd

theorem mem_calendar {slot : Slot} : slot ∈ calendar ↔ slot.Real := by
  rw [calendar, mem_timeline, real_iff_check]
  constructor
  · rintro ⟨date, checked, _⟩
    exact ⟨date, checked⟩
  · rintro ⟨date, checked⟩
    exact ⟨date, checked, date.calendarStart_le, date.le_calendarEnd⟩

theorem calendar_pairwise : calendar.Pairwise (· < ·) := timeline_pairwise _ _

theorem calendar_isChain : calendar.IsChain Follows := timeline_isChain _ _

theorem lt_irrefl (slot : Slot) : ¬slot < slot := by
  rw [lt_iff]
  omega

theorem lt_asymm {left right : Slot} (before : left < right) : ¬right < left := by
  rw [lt_iff] at before ⊢
  omega

/-- Nothing follows the last hour of the calendar. -/
theorem not_follows_of_getLast? {last slot : Slot} (atEnd : calendar.getLast? = some last) :
    ¬Follows last slot := by
  intro follows
  obtain ⟨before, whole⟩ := List.getLast?_eq_some_iff.mp atEnd
  have inside := mem_calendar.mpr follows.real.2
  have sorted := calendar_pairwise
  rw [whole] at inside sorted
  rcases List.mem_append.mp inside with earlier | same
  · exact lt_asymm follows.lt
      ((List.pairwise_append.mp sorted).2.2 slot earlier last (List.mem_singleton_self last))
  · exact lt_irrefl last (List.mem_singleton.mp same ▸ follows.lt)

/-- Two ways to go on from one hour agree as far as both go, so the shorter one
is the start of the one that cannot go on. -/
theorem prefix_of_isChain {slot : Slot} {short long : List Slot}
    (shortChain : (slot :: short).IsChain Follows) (longChain : (slot :: long).IsChain Follows)
    (complete : ∀ last ∈ (slot :: long).getLast?, ∀ later, ¬Follows last later) :
    slot :: short <+: slot :: long := by
  induction short generalizing slot long with
  | nil => exact List.prefix_cons_inj slot |>.mpr List.nil_prefix
  | cons next short ih =>
      have step := List.isChain_cons_cons.mp shortChain
      cases long with
      | nil => exact absurd step.1 (complete slot rfl next)
      | cons other long =>
          have longStep := List.isChain_cons_cons.mp longChain
          -- The hour after this one is the same on both ways.
          cases step.1.unique longStep.1
          refine List.prefix_cons_inj slot |>.mpr (ih step.2 longStep.2 ?_)
          rwa [List.getLast?_cons_cons] at complete

/-- A stretch of the calendar is what going on from hour to hour gives. -/
theorem isInfix_calendar_iff {slots : List Slot} :
    slots <:+: calendar ↔ (∀ slot ∈ slots, slot.Real) ∧ slots.IsChain Follows := by
  constructor
  · intro stretch
    exact ⟨fun slot member => mem_calendar.mp (stretch.subset member),
      calendar_isChain.infix stretch⟩
  · rintro ⟨real, chain⟩
    cases slots with
    | nil => exact List.nil_infix
    | cons slot rest =>
        obtain ⟨before, after, whole⟩ :=
          List.append_of_mem (mem_calendar.mpr (real slot List.mem_cons_self))
        have ending : slot :: after <:+ calendar := ⟨before, whole.symm⟩
        refine (prefix_of_isChain chain (calendar_isChain.suffix ending) ?_).isInfix.trans
          ending.isInfix
        intro last atEnd later
        apply not_follows_of_getLast?
        rw [whole, List.getLast?_append_of_ne_nil _ (List.cons_ne_nil slot after)]
        exact atEnd

theorem isInfix_calendar_pairwise {slots : List Slot} (stretch : slots <:+: calendar) :
    slots.Pairwise (· < ·) :=
  calendar_pairwise.sublist stretch.sublist

/-- The hour after a slot is the one after it in the calendar. -/
theorem next_eq_ok_iff {earlier later : Slot} :
    earlier.next = .ok later ↔ [earlier, later] <:+: calendar := by
  rw [isInfix_calendar_iff, List.isChain_pair]
  constructor
  · intro follows
    refine ⟨?_, follows⟩
    intro slot member
    rcases List.mem_pair.mp member with rfl | rfl
    · exact (Follows.real follows).1
    · exact (Follows.real follows).2
  · exact And.right

/-- Only the last hour of the calendar has none after it. -/
theorem next_eq_error_iff {slot : Slot} (real : slot.Real) {fault : SlotFault} :
    slot.next = .error fault ↔ fault = .pastCalendar ∧ calendar.getLast? = some slot := by
  constructor
  · intro failed
    constructor
    · obtain ⟨date, checked⟩ := real_iff_check.mp real
      obtain ⟨hour, inDay, rfl⟩ := check_eq_ok_iff.mp checked
      rw [next_ofDate date inDay] at failed
      split at failed
      · cases failed
      · split at failed
        · cases failed
        · cases failed
          rfl
    · obtain ⟨before, after, whole⟩ := List.append_of_mem (mem_calendar.mpr real)
      cases after with
      | nil => rw [whole, List.getLast?_append_of_ne_nil _ (List.cons_ne_nil slot [])]; rfl
      | cons later after =>
          have adjacent : [slot, later] <:+: calendar := ⟨before, after, by rw [whole]; simp⟩
          rw [next_eq_ok_iff.mpr adjacent] at failed
          cases failed
  · rintro ⟨rfl, atEnd⟩
    obtain ⟨date, checked⟩ := real_iff_check.mp real
    obtain ⟨hour, inDay, rfl⟩ := check_eq_ok_iff.mp checked
    have stops (later : Slot) : (ofDate date hour).next ≠ .ok later :=
      not_follows_of_getLast? atEnd
    rw [next_ofDate date inDay] at stops ⊢
    split
    · rename_i early
      exact absurd (if_pos early) (stops _)
    · rename_i late
      rw [if_neg late] at stops
      cases succeeds : date.succ? with
      | none => rfl
      | some nextDate =>
          rw [succeeds] at stops
          exact absurd rfl (stops _)

end Slot

end PipelineCapacity
