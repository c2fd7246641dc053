import PipelineCapacity.Forecast.Series
import PipelineCapacity.Proofs.Calendar.Succession
import PipelineCapacity.Proofs.Exact
import PipelineCapacity.Proofs.Failure

/-!
Which rows make a forecast. Each row is compared with the one before it only,
and yet the rows that pass are those whose slots are a stretch of the calendar,
read off its sorted line of hours. Of rows that do not pass, the fault is that
of the first row the calendar does not allow where it stands.
-/

set_option autoImplicit false

namespace PipelineCapacity

open Quantity (isFinite zero)

variable {α : Type} [Quantity α]

namespace Forecast

/-- Finite, non-negative volumes over a stretch of the calendar. -/
structure Acceptable (rows : List (ForecastRow α)) : Prop where
  volumes : ∀ row ∈ rows, isFinite row.hourlyVolume = true ∧ ¬row.hourlyVolume < zero
  stretch : rows.map (·.slot) <:+: Slot.calendar

/-- A slot that may stand after the one before, if there is one. -/
def Joins (previous : Option Slot) (slot : Slot) : Prop :=
  slot.Real ∧ ∀ before, previous = some before → [before, slot] <:+: Slot.calendar

/-- Why a row may not stand after a slot. A fault of the slot itself comes before
one of its place, and this before one of the volume. -/
inductive Refused (previous : Option Slot) (row : ForecastRow α) : InvalidParameter α → Prop
  | notADate (absent : ∀ date, ¬row.slot.IsOn date) :
      Refused previous row (.slot (.notADate row.slot.year row.slot.month row.slot.day))
  | hourOutside {date : Date} (on : row.slot.IsOn date) (late : 23 < row.slot.hour) :
      Refused previous row (.slot (.hourOutside date row.slot.hour))
  | wrongWeekday {date : Date} (on : row.slot.IsOn date) (inDay : row.slot.hour ≤ 23)
      (mislabelled : row.slot.weekday ≠ date.weekday) :
      Refused previous row (.slot (.wrongWeekday date row.slot.weekday date.weekday))
  | pastCalendar {before : Slot} (real : row.slot.Real) (after : previous = some before)
      (last : Slot.calendar.getLast? = some before) :
      Refused previous row (.slot .pastCalendar)
  | notConsecutive {before expected : Slot} (real : row.slot.Real)
      (after : previous = some before) (adjacent : [before, expected] <:+: Slot.calendar)
      (other : row.slot ≠ expected) :
      Refused previous row (.slot (.notConsecutive before row.slot expected))
  | volume (joins : Joins previous row.slot)
      (unacceptable : ¬(isFinite row.hourlyVolume = true ∧ ¬row.hourlyVolume < zero)) :
      Refused previous row (.notNonNegative "forecast volume" row.hourlyVolume)

variable {previous : Option Slot} {row : ForecastRow α} {rows : List (ForecastRow α)}
  {cause : InvalidParameter α}

theorem Joins.checkRow (joins : Joins previous row.slot) :
    checkRow previous row = requireNonNegative "forecast volume" row.hourlyVolume := by
  obtain ⟨date, checked⟩ := Slot.real_iff_check.mp joins.1
  have after : row.slot.checkAfter previous = .ok () := by
    cases previous with
    | none => rfl
    | some before =>
        unfold Slot.checkAfter
        dsimp only
        rw [Slot.next_eq_ok_iff.mpr (joins.2 before rfl)]
        exact if_pos rfl
  unfold Forecast.checkRow
  rw [checked, after]
  rfl

theorem Refused.checkRow (refused : Refused previous row cause) :
    checkRow previous row = .error cause := by
  cases refused with
  | notADate absent =>
      unfold Forecast.checkRow
      rw [Slot.check_of_no_date absent]
      rfl
  | hourOutside on late =>
      unfold Forecast.checkRow
      rw [Slot.check_of_isOn on, if_pos late]
      rfl
  | wrongWeekday on inDay mislabelled =>
      unfold Forecast.checkRow
      rw [Slot.check_of_isOn on, if_neg (by omega), if_pos mislabelled]
      rfl
  | @pastCalendar before real after last =>
      obtain ⟨date, checked⟩ := Slot.real_iff_check.mp real
      have ended : before.Real := Slot.mem_calendar.mp (List.mem_of_getLast? last)
      unfold Forecast.checkRow Slot.checkAfter
      rw [checked, after]
      dsimp only
      rw [(Slot.next_eq_error_iff ended).mpr ⟨rfl, last⟩]
      rfl
  | notConsecutive real after adjacent other =>
      obtain ⟨date, checked⟩ := Slot.real_iff_check.mp real
      unfold Forecast.checkRow Slot.checkAfter
      rw [checked, after]
      dsimp only
      rw [Slot.next_eq_ok_iff.mpr adjacent]
      change ((if row.slot = _ then _ else _ : Except SlotFault Unit).mapError _ >>= _) = _
      rw [if_neg other]
      rfl
  | volume joins unacceptable =>
      rw [joins.checkRow]
      exact requireNonNegative_of_not unacceptable

/-- A row whose slot does not join has one of the faults of slots. -/
theorem exists_refused_of_not_joins (real : ∀ before, previous = some before → before.Real)
    (apart : ¬Joins previous row.slot) : ∃ cause, Refused previous row cause := by
  by_cases dated : ∃ date, row.slot.IsOn date
  · obtain ⟨date, on⟩ := dated
    by_cases late : 23 < row.slot.hour
    · exact ⟨_, .hourOutside on late⟩
    · by_cases labelled : row.slot.weekday = date.weekday
      · have present : row.slot.Real := ⟨date, on, labelled, by omega⟩
        cases previous with
        | none => exact absurd ⟨present, fun before impossible => by cases impossible⟩ apart
        | some before =>
            cases next : before.next with
            | error fault =>
                exact ⟨_, .pastCalendar present rfl
                  ((Slot.next_eq_error_iff (real before rfl)).mp next).2⟩
            | ok expected =>
                have adjacent := Slot.next_eq_ok_iff.mp next
                refine ⟨_, .notConsecutive present rfl adjacent fun same => apart ⟨present, ?_⟩⟩
                rintro _ ⟨rfl⟩
                rwa [same]
      · exact ⟨_, .wrongWeekday on (by omega) labelled⟩
  · exact ⟨_, .notADate fun date on => dated ⟨date, on⟩⟩

theorem checkRow_cases (row : ForecastRow α)
    (real : ∀ before, previous = some before → before.Real) :
    (Joins previous row.slot ∧ isFinite row.hourlyVolume = true ∧ ¬row.hourlyVolume < zero) ∨
      ∃ cause, Refused previous row cause := by
  by_cases joins : Joins previous row.slot
  · by_cases volume : isFinite row.hourlyVolume = true ∧ ¬row.hourlyVolume < zero
    · exact .inl ⟨joins, volume⟩
    · exact .inr ⟨_, .volume joins volume⟩
  · exact .inr (exists_refused_of_not_joins real joins)

theorem checkRow_eq_ok_iff (real : ∀ before, previous = some before → before.Real) :
    checkRow previous row = .ok () ↔
      Joins previous row.slot ∧ isFinite row.hourlyVolume = true ∧ ¬row.hourlyVolume < zero := by
  constructor
  · intro accepted
    rcases checkRow_cases row real with good | ⟨cause, refused⟩
    · exact good
    · rw [refused.checkRow] at accepted
      cases accepted
  · rintro ⟨joins, volume⟩
    rw [joins.checkRow]
    exact requireNonNegative_eq_ok_iff.mpr volume

theorem checkRow_eq_error_iff (real : ∀ before, previous = some before → before.Real) :
    checkRow previous row = .error cause ↔ Refused previous row cause := by
  constructor
  · intro failed
    rcases checkRow_cases row real with good | ⟨other, refused⟩
    · rw [(checkRow_eq_ok_iff real).mpr good] at failed
      cases failed
    · rw [refused.checkRow] at failed
      cases failed
      exact refused
  · exact Refused.checkRow

theorem checkRows_cons (previous : Option Slot) (row : ForecastRow α)
    (rest : List (ForecastRow α)) :
    checkRows previous (row :: rest) =
      checkRow previous row >>= fun _ => checkRows (some row.slot) rest := rfl

/-- Comparing neighbours from a slot on finds the stretches that start with it. -/
theorem checkRows_eq_ok_iff (real : ∀ before, previous = some before → before.Real) :
    checkRows previous rows = .ok () ↔
      (∀ row ∈ rows, isFinite row.hourlyVolume = true ∧ ¬row.hourlyVolume < zero) ∧
        previous.toList ++ rows.map (·.slot) <:+: Slot.calendar := by
  induction rows generalizing previous with
  | nil =>
      refine iff_of_true rfl ⟨List.forall_mem_nil _, ?_⟩
      rw [List.map_nil, List.append_nil, Slot.isInfix_calendar_iff]
      cases previous with
      | none => exact ⟨List.forall_mem_nil _, .nil⟩
      | some before =>
          refine ⟨fun slot member => ?_, List.isChain_singleton before⟩
          rw [List.mem_singleton.mp member]
          exact real before rfl
  | cons row rest ih =>
      -- The claim for the rest starts at this row; one comparison joins it to the slot before.
      have joined : Joins previous row.slot ∧ row.slot :: rest.map (·.slot) <:+: Slot.calendar ↔
          previous.toList ++ row.slot :: rest.map (·.slot) <:+: Slot.calendar := by
        constructor
        · rintro ⟨joins, stretch⟩
          cases previous with
          | none => exact stretch
          | some before =>
              have later := Slot.isInfix_calendar_iff.mp stretch
              refine Slot.isInfix_calendar_iff.mpr
                ⟨List.forall_mem_cons.mpr ⟨real before rfl, later.1⟩,
                  List.isChain_cons_cons.mpr ⟨?_, later.2⟩⟩
              exact Slot.next_eq_ok_iff.mpr (joins.2 before rfl)
        · intro stretch
          refine ⟨⟨Slot.mem_calendar.mp (stretch.subset (by simp)), ?_⟩,
            (List.suffix_append _ _).isInfix.trans stretch⟩
          rintro before rfl
          exact (List.prefix_append [before, row.slot] _).isInfix.trans stretch
      rw [checkRows_cons, bind_eq_ok_iff, List.forall_mem_cons, List.map_cons, ← joined]
      constructor
      · rintro ⟨_, accepted, others⟩
        have good := (checkRow_eq_ok_iff real).mp accepted
        have later := (ih fun _ same => Option.some.inj same ▸ good.1.1).mp others
        exact ⟨⟨good.2, later.1⟩, good.1, later.2⟩
      · rintro ⟨⟨volume, volumes⟩, joins, stretch⟩
        exact ⟨(), (checkRow_eq_ok_iff real).mpr ⟨joins, volume⟩,
          (ih fun _ same => Option.some.inj same ▸ joins.1).mpr ⟨volumes, stretch⟩⟩

theorem checkRows_eq_error_iff (real : ∀ before, previous = some before → before.Real) :
    checkRows previous rows = .error cause ↔
      ∃ done row rest, rows = done ++ row :: rest ∧ checkRows previous done = .ok () ∧
        Refused (previous.toList ++ done.map (·.slot)).getLast? row cause := by
  induction rows generalizing previous with
  | nil =>
      constructor
      · intro failed
        cases failed
      · rintro ⟨done, row, rest, split, _⟩
        exact absurd split (by simp)
  | cons row rest ih =>
      have origin : (previous.toList ++ ([] : List (ForecastRow α)).map (·.slot)).getLast? =
          previous := by
        cases previous <;> rfl
      have start (slot : Slot) (slots : List Slot) :
          (previous.toList ++ slot :: slots).getLast? = (slot :: slots).getLast? :=
        List.getLast?_append_of_ne_nil _ (List.cons_ne_nil slot slots)
      rw [checkRows_cons, bind_eq_error_iff]
      constructor
      · rintro (failed | ⟨_, accepted, failed⟩)
        · refine ⟨[], row, rest, rfl, rfl, ?_⟩
          rw [origin]
          exact (checkRow_eq_error_iff real).mp failed
        · have good := (checkRow_eq_ok_iff real).mp accepted
          obtain ⟨done, other, after, split, passed, refused⟩ :=
            (ih fun _ same => Option.some.inj same ▸ good.1.1).mp failed
          refine ⟨row :: done, other, after, by rw [split]; rfl, ?_, ?_⟩
          · rw [checkRows_cons, accepted]
            exact passed
          · rw [List.map_cons, start]
            exact refused
      · rintro ⟨done, other, after, split, passed, refused⟩
        cases done with
        | nil =>
            cases split
            rw [origin] at refused
            exact .inl refused.checkRow
        | cons head done =>
            cases split
            rw [checkRows_cons, bind_eq_ok_iff] at passed
            obtain ⟨_, accepted, passed⟩ := passed
            have good := (checkRow_eq_ok_iff real).mp accepted
            rw [List.map_cons, start] at refused
            exact .inr ⟨(), accepted, (ih fun _ same => Option.some.inj same ▸ good.1.1).mpr
              ⟨done, other, after, rfl, passed, refused⟩⟩

theorem ofRows_eq (rows : List (ForecastRow α)) :
    ofRows rows = (checkRows none rows).map fun _ => ⟨rows⟩ := by
  unfold ofRows
  cases checkRows none rows <;> rfl

theorem checkRows_none_eq_ok_iff : checkRows none rows = .ok () ↔ Acceptable rows := by
  rw [checkRows_eq_ok_iff fun before impossible => by cases impossible]
  exact ⟨fun ⟨volumes, stretch⟩ => ⟨volumes, stretch⟩,
    fun acceptable => ⟨acceptable.volumes, acceptable.stretch⟩⟩

theorem ofRows_eq_ok_iff {forecast : Forecast α} :
    ofRows rows = .ok forecast ↔ Acceptable rows ∧ forecast.rows = rows := by
  rw [ofRows_eq, ← checkRows_none_eq_ok_iff]
  cases checkRows none rows with
  | error cause => simp [Except.map]
  | ok =>
      constructor
      · intro made
        cases made
        exact ⟨rfl, rfl⟩
      · rintro ⟨_, rfl⟩
        rfl

theorem ofRows_eq_error_iff : ofRows rows = .error cause ↔ checkRows none rows = .error cause := by
  rw [ofRows_eq]
  cases checkRows none rows <;> simp [Except.map]

/-- With a refused row the rows before it no longer make a stretch with good volumes. -/
theorem Refused.not_acceptable {done : List (ForecastRow α)} (passed : Acceptable done)
    (refused : Refused (done.getLast?.map (·.slot)) row cause) :
    ¬Acceptable (done ++ [row]) := by
  intro acceptable
  have failed : checkRows none (done ++ [row]) = .error cause := by
    refine (checkRows_eq_error_iff fun before impossible => by cases impossible).mpr
      ⟨done, row, [], rfl, checkRows_none_eq_ok_iff.mpr passed, ?_⟩
    rw [Option.toList_none, List.nil_append, List.getLast?_map]
    exact refused
  rw [checkRows_none_eq_ok_iff.mpr acceptable] at failed
  cases failed

/-- Rows make a forecast, and then exactly these rows, if their volumes are good
and their slots are a stretch of the sorted list of all real slots. Otherwise the
fault is that of the first row with which they are none any more. -/
theorem ofRows_accepts_stretches (rows : List (ForecastRow α)) :
    (Slot.calendar.Pairwise (· < ·) ∧ ∀ slot, slot ∈ Slot.calendar ↔ slot.Real) ∧
      ((∃ forecast, ofRows rows = .ok forecast) ↔ Acceptable rows) ∧
      (∀ forecast, ofRows rows = .ok forecast → forecast.rows = rows) ∧
      ∀ cause, ofRows rows = .error cause ↔
        ∃ done row rest, rows = done ++ row :: rest ∧ Acceptable done ∧
          ¬Acceptable (done ++ [row]) ∧ Refused (done.getLast?.map (·.slot)) row cause := by
  refine ⟨⟨Slot.calendar_pairwise, fun slot => Slot.mem_calendar⟩, ?_, ?_, ?_⟩
  · constructor
    · rintro ⟨forecast, made⟩
      exact (ofRows_eq_ok_iff.mp made).1
    · intro acceptable
      exact ⟨⟨rows⟩, ofRows_eq_ok_iff.mpr ⟨acceptable, rfl⟩⟩
  · intro forecast made
    exact (ofRows_eq_ok_iff.mp made).2
  · intro cause
    rw [ofRows_eq_error_iff, checkRows_eq_error_iff fun before impossible => by cases impossible]
    simp only [Option.toList_none, List.nil_append, List.getLast?_map, checkRows_none_eq_ok_iff]
    constructor
    · rintro ⟨done, row, rest, split, passed, refused⟩
      exact ⟨done, row, rest, split, passed, refused.not_acceptable passed, refused⟩
    · rintro ⟨done, row, rest, split, passed, _, refused⟩
      exact ⟨done, row, rest, split, passed, refused⟩

/-- The last hour of a year and the first of the next. -/
def newYear : List (ForecastRow ℚ) :=
  [⟨⟨2025, 12, 31, .wed, 23⟩, 5, 5, 5⟩, ⟨⟨2026, 1, 1, .thu, 0⟩, 7, 7, 7⟩]

/-- In the other order the second row is not the hour expected. -/
theorem ofRows_accepts_stretches_newYear :
    Acceptable newYear ∧ ofRows newYear = .ok ⟨newYear⟩ ∧ ¬Acceptable newYear.reverse ∧
      ∃ done row rest, newYear.reverse = done ++ row :: rest ∧ Acceptable done ∧
        Refused (done.getLast?.map (·.slot)) row
          (.slot (.notConsecutive ⟨2026, 1, 1, .thu, 0⟩ ⟨2025, 12, 31, .wed, 23⟩
            ⟨2026, 1, 1, .thu, 1⟩)) := by
  have made : ofRows newYear = .ok ⟨newYear⟩ := rfl
  have failed : ofRows newYear.reverse =
      .error (.slot (.notConsecutive ⟨2026, 1, 1, .thu, 0⟩ ⟨2025, 12, 31, .wed, 23⟩
        ⟨2026, 1, 1, .thu, 1⟩)) := rfl
  obtain ⟨done, row, rest, split, passed, _, refused⟩ :=
    ((ofRows_accepts_stretches newYear.reverse).2.2.2 _).mp failed
  refine ⟨(ofRows_accepts_stretches newYear).2.1.mp ⟨_, made⟩, made, ?_,
    done, row, rest, split, passed, refused⟩
  intro acceptable
  obtain ⟨forecast, accepted⟩ := (ofRows_accepts_stretches newYear.reverse).2.1.mpr acceptable
  rw [accepted] at failed
  cases failed

end Forecast

end PipelineCapacity
