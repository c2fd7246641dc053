import PipelineCapacity.Calendar.Date

/-!
The calendar as a line of days. The day number goes up by one from each date to
the next and orders dates as their parts do, so the days between two dates are
a stretch of consecutive numbers, up to the calendar's end.
-/

set_option autoImplicit false

namespace PipelineCapacity

theorem isLeapYear_iff {year : Int} :
    isLeapYear year = true ↔ year % 4 = 0 ∧ (year % 100 ≠ 0 ∨ year % 400 = 0) := by
  simp [isLeapYear]

def daysInYear (year : Int) : Nat := if isLeapYear year then 366 else 365

namespace Date

theorem daysBeforeYear_succ (year : Int) :
    daysBeforeYear (year + 1) = daysBeforeYear year + daysInYear year := by
  unfold daysBeforeYear daysInYear
  by_cases leap : isLeapYear year = true
  · have divisible := isLeapYear_iff.mp leap
    rw [if_pos leap]
    omega
  · have common : ¬(year % 4 = 0 ∧ (year % 100 ≠ 0 ∨ year % 400 = 0)) :=
      fun divisible => leap (isLeapYear_iff.mpr divisible)
    rw [if_neg leap]
    omega

theorem daysBeforeYear_mono {earlier later : Int} (ordered : earlier ≤ later) :
    daysBeforeYear earlier ≤ daysBeforeYear later := by
  unfold daysBeforeYear
  omega

theorem daysBeforeMonth_succ (year : Int) {month : Nat} (counted : 1 ≤ month) :
    daysBeforeMonth year (month + 1) =
      daysBeforeMonth year month + daysInMonth year month := by
  cases month with
  | zero => omega
  | succ month => rfl

theorem daysBeforeMonth_mono (year : Int) {earlier later : Nat} (counted : 1 ≤ earlier)
    (ordered : earlier ≤ later) : daysBeforeMonth year earlier ≤ daysBeforeMonth year later := by
  induction ordered with
  | refl => exact Nat.le_refl _
  | @step later between ih =>
      rw [daysBeforeMonth_succ year (Nat.le_trans counted between)]
      omega

theorem daysBeforeMonth_year (year : Int) : daysBeforeMonth year 13 = daysInYear year := by
  cases leap : isLeapYear year <;> simp [daysBeforeMonth, daysInMonth, daysInYear, leap]

theorem dayNumber_le_month (date : Date) :
    date.dayNumber ≤ daysBeforeYear date.year + daysBeforeMonth date.year (date.month + 1) := by
  rw [daysBeforeMonth_succ date.year date.month_mem.1]
  have inMonth := date.day_mem.2
  unfold dayNumber
  omega

theorem dayNumber_le_year (date : Date) : date.dayNumber ≤ daysBeforeYear (date.year + 1) := by
  have lastMonth := date.month_mem.2
  have months := daysBeforeMonth_mono date.year (Nat.le_add_left 1 date.month)
    (Nat.succ_le_succ lastMonth)
  rw [daysBeforeMonth_year] at months
  have inMonth := date.dayNumber_le_month
  rw [daysBeforeYear_succ]
  omega

theorem daysBeforeYear_lt_dayNumber (date : Date) :
    daysBeforeYear date.year < date.dayNumber := by
  have inMonth := date.day_mem.1
  unfold dayNumber
  omega

theorem dayNumber_lt_of_lt {earlier later : Date} (before : earlier < later) :
    earlier.dayNumber < later.dayNumber := by
  rcases before with years | ⟨sameYear, months | ⟨sameMonth, days⟩⟩
  · have ended := earlier.dayNumber_le_year
    have between := daysBeforeYear_mono (Int.add_one_le_of_lt years)
    have begun := later.daysBeforeYear_lt_dayNumber
    omega
  · have ended := earlier.dayNumber_le_month
    have between := daysBeforeMonth_mono earlier.year (Nat.le_add_left 1 _) months
    have begun := later.day_mem.1
    unfold dayNumber at ended ⊢
    rw [← sameYear]
    omega
  · unfold dayNumber
    rw [sameYear, sameMonth]
    omega

theorem lt_trichotomy (left right : Date) : left < right ∨ left = right ∨ right < left := by
  by_cases same : left.year = right.year ∧ left.month = right.month ∧ left.day = right.day
  · have found := of?_self right
    rw [← same.1, ← same.2.1, ← same.2.2, of?_self left] at found
    exact .inr (.inl (Option.some.inj found))
  · change (left.year < right.year ∨ left.year = right.year ∧ _) ∨ _ ∨
      (right.year < left.year ∨ right.year = left.year ∧ _)
    omega

theorem dayNumber_lt_iff {earlier later : Date} :
    earlier.dayNumber < later.dayNumber ↔ earlier < later := by
  constructor
  · intro numbers
    rcases lt_trichotomy earlier later with before | same | after
    · exact before
    · subst same
      omega
    · have reversed := dayNumber_lt_of_lt after
      omega
  · exact dayNumber_lt_of_lt

theorem dayNumber_le_iff {earlier later : Date} :
    earlier.dayNumber ≤ later.dayNumber ↔ earlier ≤ later := by
  change _ ↔ ¬later < earlier
  rw [← dayNumber_lt_iff]
  omega

theorem eq_of_dayNumber_eq {left right : Date} (same : left.dayNumber = right.dayNumber) :
    left = right := by
  rcases lt_trichotomy left right with before | equal | after
  · have numbers := dayNumber_lt_of_lt before
    omega
  · exact equal
  · have numbers := dayNumber_lt_of_lt after
    omega

/-- The next date has the next number, over every month's and year's end. -/
theorem dayNumber_succ {date next : Date} (follows : date.succ? = some next) :
    next.dayNumber = date.dayNumber + 1 := by
  have inMonth := date.day_mem
  have inYear := date.month_mem
  have nextMonth := daysBeforeMonth_succ date.year inYear.1
  unfold succ? at follows
  split at follows
  · cases follows
    simp only [dayNumber]
    omega
  · split at follows
    · cases follows
      simp only [dayNumber]
      omega
    · split at follows
      · rename_i monthEnd yearEnd _
        cases follows
        have december : date.month = 12 := by omega
        have january : daysBeforeMonth (date.year + 1) 1 = 0 := rfl
        rw [december] at nextMonth inMonth monthEnd
        rw [daysBeforeMonth_year] at nextMonth
        simp only [dayNumber, daysBeforeYear_succ, december, january]
        omega
      · cases follows

/-- Only the last date of the calendar has no next one. -/
theorem exists_succ_of_lt {date later : Date} (before : date < later) :
    ∃ next, date.succ? = some next := by
  unfold succ?
  split
  · exact ⟨_, rfl⟩
  · split
    · exact ⟨_, rfl⟩
    · split
      · exact ⟨_, rfl⟩
      · rename_i lastDay december lastYears
        exfalso
        have laterYear := later.year_mem.2
        have laterMonth := later.month_mem.2
        have laterDay := later.day_mem.2
        rcases before with years | ⟨sameYear, months | ⟨sameMonth, days⟩⟩
        · omega
        · omega
        · rw [sameYear, sameMonth] at lastDay
          omega

theorem collect_append (before : List Date) (date : Date) (count : Nat) :
    collect before date count = before.reverse ++ date.following count := by
  unfold following
  induction count generalizing before date with
  | zero => simp [collect]
  | succ count ih =>
      unfold collect
      cases date.succ? with
      | none => simp
      | some next =>
          dsimp only
          rw [ih (date :: before), ih [date]]
          simp

theorem following_succ (date : Date) (count : Nat) :
    date.following (count + 1) =
      date :: (match date.succ? with
        | some next => next.following count
        | none => []) := by
  unfold following
  rw [collect]
  cases date.succ? with
  | none => rfl
  | some next => exact collect_append [date] next count

theorem dayNumber_following {date later : Date} {count : Nat}
    (within : date.dayNumber + count ≤ later.dayNumber + 1) :
    (date.following count).map dayNumber =
      (List.range count).map fun offset : Nat => date.dayNumber + (offset : Int) := by
  induction count generalizing date with
  | zero => rfl
  | succ count ih =>
      rw [following_succ, List.range_succ_eq_map, List.map_cons, List.map_cons, List.map_map]
      cases count with
      | zero => cases date.succ? <;> simp [following, collect]
      | succ count =>
          have before : date < later := dayNumber_lt_iff.mp (by omega)
          obtain ⟨next, follows⟩ := exists_succ_of_lt before
          have number := dayNumber_succ follows
          rw [follows]
          dsimp only
          rw [ih (by omega), number]
          congr 1
          · simp
          · apply List.map_congr_left
            intro offset _
            simp only [Function.comp_apply, Nat.succ_eq_add_one, Int.natCast_add, Int.natCast_one]
            omega

theorem dayNumber_days (first last : Date) :
    (first.days last).map dayNumber =
      (List.range (first.daysThrough last)).map fun offset : Nat =>
        first.dayNumber + (offset : Int) := by
  by_cases ordered : first ≤ last
  · have numbers := dayNumber_le_iff.mpr ordered
    have within : first.dayNumber + (first.daysThrough last : Int) ≤ last.dayNumber + 1 := by
      unfold daysThrough
      omega
    exact dayNumber_following within
  · have numbers : ¬first.dayNumber ≤ last.dayNumber :=
      fun below => ordered (dayNumber_le_iff.mp below)
    have none : first.daysThrough last = 0 := by
      unfold daysThrough
      omega
    unfold days
    rw [none]
    rfl

theorem length_days (first last : Date) : (first.days last).length = first.daysThrough last := by
  have lengths := congrArg List.length (dayNumber_days first last)
  simpa using lengths

theorem days_pairwise (first last : Date) : (first.days last).Pairwise (· < ·) := by
  have numbers : ((first.days last).map dayNumber).Pairwise (· < ·) := by
    rw [dayNumber_days, List.pairwise_map]
    exact List.pairwise_lt_range.imp fun ordered => by omega
  exact (List.pairwise_map.mp numbers).imp dayNumber_lt_iff.mp

theorem mem_days {first last date : Date} :
    date ∈ first.days last ↔ first ≤ date ∧ date ≤ last := by
  have numbered : date ∈ first.days last ↔ date.dayNumber ∈ (first.days last).map dayNumber := by
    constructor
    · exact List.mem_map_of_mem
    · intro present
      obtain ⟨other, member, same⟩ := List.mem_map.mp present
      rwa [← eq_of_dayNumber_eq same]
  rw [numbered, dayNumber_days, List.mem_map, ← dayNumber_le_iff, ← dayNumber_le_iff]
  unfold daysThrough
  constructor
  · rintro ⟨offset, inside, number⟩
    have bound := List.mem_range.mp inside
    omega
  · rintro ⟨after, before⟩
    exact ⟨(date.dayNumber - first.dayNumber).toNat, List.mem_range.mpr (by omega), by omega⟩

end Date

end PipelineCapacity
