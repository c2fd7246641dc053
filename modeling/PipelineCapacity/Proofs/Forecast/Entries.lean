import PipelineCapacity.Proofs.Forecast.Corrections
import PipelineCapacity.Proofs.Table

/-!
Correction tables as lists of entries. A list makes a table exactly if each of
its entries may be entered, and the table keeps of every key the factor that
came last. A table that was filled lists entries that make it again.
-/

set_option autoImplicit false

namespace PipelineCapacity

namespace WeekHour

private abbrev lexicographic : WeekHour → WeekHour → Ordering :=
  compareLex (compareOn (·.weekday.position)) (compareOn (·.hour))

instance : Std.TransOrd WeekHour := inferInstanceAs (Std.TransCmp lexicographic)

instance : Std.LawfulEqOrd WeekHour where
  compare_self := Std.compare_self
  eq_of_compare := by
    intro left right same
    obtain ⟨weekday, hour⟩ := left
    obtain ⟨_, _⟩ := right
    obtain ⟨sameDay, sameHour⟩ := Ordering.then_eq_eq.mp same
    have weekdays := congrArg Weekday.ofPosition (Std.compare_eq_iff_eq.mp sameDay)
    rw [Weekday.ofPosition_position, Weekday.ofPosition_position] at weekdays
    exact congrArg₂ WeekHour.mk weekdays (Std.compare_eq_iff_eq.mp sameHour)

end WeekHour

namespace Table

variable {κ β : Type} [Ord κ] {table : Table κ β} {accepted : κ × β → Prop}

/-- Keys ascend, and every entry is one that is accepted. -/
structure Sound (accepted : κ × β → Prop) (table : Table κ β) : Prop where
  ascending : table.Ascending
  accepted : ∀ entry ∈ table.entries, accepted entry

theorem sound_empty : (empty : Table κ β).Sound accepted :=
  ⟨ascending_empty, List.forall_mem_nil _⟩

theorem Sound.insert [Std.TransOrd κ] [Std.LawfulEqOrd κ] (sound : table.Sound accepted)
    {key : κ} {value : β} (new : accepted (key, value)) :
    (table.insert key value).Sound accepted := by
  refine ⟨sound.ascending.insert key value, fun entry member => ?_⟩
  rcases mem_insertEntry member with rfl | old
  · exact new
  · exact sound.accepted entry old

end Table

variable {α : Type} [Quantity α]

namespace MonthFactor

/-- A month of the year with a factor that is finite and positive. -/
def Admissible (entry : MonthFactor α) : Prop :=
  (1 ≤ entry.month ∧ entry.month ≤ 12) ∧ isPositive entry.factor = true

omit [Quantity α] in
def pair (entry : MonthFactor α) : Nat × α := (entry.month, entry.factor)

end MonthFactor

namespace MonthlyCorrections

variable {table next : MonthlyCorrections α} {entry : MonthFactor α}

theorem insert_eq_ok_iff :
    table.insert entry = .ok next ↔
      entry.Admissible ∧ next = ⟨table.factors.insert entry.month entry.factor⟩ := by
  unfold insert MonthFactor.Admissible
  split
  · rename_i outside
    refine iff_of_false nofun fun accepted => ?_
    omega
  · rename_i inside
    have month : 1 ≤ entry.month ∧ entry.month ≤ 12 := by omega
    rw [bind_eq_ok_iff, and_iff_right month]
    constructor
    · rintro ⟨_, checked, same⟩
      cases same
      exact ⟨requirePositive_eq_ok_iff.mp checked, rfl⟩
    · rintro ⟨positive, rfl⟩
      exact ⟨(), requirePositive_eq_ok_iff.mpr positive, rfl⟩

theorem ofList_eq_ok_iff {entries : List (MonthFactor α)} :
    ofList entries = .ok table ↔
      (∀ entry ∈ entries, entry.Admissible) ∧
        table = ⟨Table.empty.insertAll (entries.map MonthFactor.pair)⟩ := by
  have same : ∀ table : MonthlyCorrections α,
      entries.foldl (fun table entry => ⟨table.factors.insert entry.month entry.factor⟩) table =
        ⟨table.factors.insertAll (entries.map MonthFactor.pair)⟩ := by
    induction entries with
    | nil => exact fun table => rfl
    | cons entry rest ih => exact fun table => ih _
  unfold ofList
  rw [foldlM_eq_ok_iff fun _ _ _ => insert_eq_ok_iff, same]
  rfl

/-- Months ascend, and every entry may be entered. -/
def Sound (table : MonthlyCorrections α) : Prop :=
  table.factors.Sound fun entry => MonthFactor.Admissible ⟨entry.1, entry.2⟩

theorem Sound.insert (sound : table.Sound) (accepted : table.insert entry = .ok next) :
    next.Sound := by
  obtain ⟨admissible, rfl⟩ := insert_eq_ok_iff.mp accepted
  exact Table.Sound.insert sound admissible

theorem Sound.admissible (sound : table.Sound) : ∀ entry ∈ table.toList, entry.Admissible :=
  List.forall_mem_map.mpr sound.accepted

theorem Filled.sound (filled : table.Filled) : table.Sound := by
  induction filled with
  | empty => exact Table.sound_empty
  | insert _ accepted ih => exact ih.insert accepted
  | ofList accepted =>
      exact foldlM_keeps (fun _ _ _ sound step => Sound.insert sound step) Table.sound_empty accepted

/-- What a table lists makes it again. -/
theorem Sound.ofList_toList (sound : table.Sound) : ofList table.toList = .ok table := by
  refine ofList_eq_ok_iff.mpr ⟨sound.admissible, ?_⟩
  have pairs : table.toList.map MonthFactor.pair = table.factors.entries := by
    unfold toList
    rw [List.map_map]
    exact List.map_id _
  rw [pairs, sound.ascending.insertAll_entries]

theorem find?_of_ofList {entries : List (MonthFactor α)} (made : ofList entries = .ok table)
    (month : Nat) :
    table.factors.find? month = latest? (entries.map MonthFactor.pair) month := by
  obtain ⟨_, rfl⟩ := ofList_eq_ok_iff.mp made
  exact (Table.find?_insertAll _ _ _).trans Option.or_none

end MonthlyCorrections

namespace HourFactor

/-- An hour of a day with a factor that is finite and positive. -/
def Admissible (entry : HourFactor α) : Prop :=
  entry.hour ≤ 23 ∧ isPositive entry.factor = true

omit [Quantity α] in
def pair (entry : HourFactor α) : WeekHour × α := (⟨entry.weekday, entry.hour⟩, entry.factor)

end HourFactor

namespace HourlyCorrections

variable {table next : HourlyCorrections α} {entry : HourFactor α}

theorem insert_eq_ok_iff :
    table.insert entry = .ok next ↔
      entry.Admissible ∧
        next = ⟨table.factors.insert ⟨entry.weekday, entry.hour⟩ entry.factor⟩ := by
  unfold insert HourFactor.Admissible
  split
  · rename_i outside
    refine iff_of_false nofun fun accepted => ?_
    omega
  · rename_i inside
    have hour : entry.hour ≤ 23 := by omega
    rw [bind_eq_ok_iff, and_iff_right hour]
    constructor
    · rintro ⟨_, checked, same⟩
      cases same
      exact ⟨requirePositive_eq_ok_iff.mp checked, rfl⟩
    · rintro ⟨positive, rfl⟩
      exact ⟨(), requirePositive_eq_ok_iff.mpr positive, rfl⟩

theorem ofList_eq_ok_iff {entries : List (HourFactor α)} :
    ofList entries = .ok table ↔
      (∀ entry ∈ entries, entry.Admissible) ∧
        table = ⟨Table.empty.insertAll (entries.map HourFactor.pair)⟩ := by
  have same : ∀ table : HourlyCorrections α,
      entries.foldl
          (fun table entry =>
            ⟨table.factors.insert ⟨entry.weekday, entry.hour⟩ entry.factor⟩) table =
        ⟨table.factors.insertAll (entries.map HourFactor.pair)⟩ := by
    induction entries with
    | nil => exact fun table => rfl
    | cons entry rest ih => exact fun table => ih _
  unfold ofList
  rw [foldlM_eq_ok_iff fun _ _ _ => insert_eq_ok_iff, same]
  rfl

/-- Weekdays and hours ascend, and every entry may be entered. -/
def Sound (table : HourlyCorrections α) : Prop :=
  table.factors.Sound fun entry => HourFactor.Admissible ⟨entry.1.weekday, entry.1.hour, entry.2⟩

theorem Sound.insert (sound : table.Sound) (accepted : table.insert entry = .ok next) :
    next.Sound := by
  obtain ⟨admissible, rfl⟩ := insert_eq_ok_iff.mp accepted
  exact Table.Sound.insert sound admissible

theorem Sound.admissible (sound : table.Sound) : ∀ entry ∈ table.toList, entry.Admissible :=
  List.forall_mem_map.mpr sound.accepted

theorem Filled.sound (filled : table.Filled) : table.Sound := by
  induction filled with
  | empty => exact Table.sound_empty
  | insert _ accepted ih => exact ih.insert accepted
  | insertEveryDay _ accepted ih =>
      exact foldlM_keeps (fun _ _ _ sound step => Sound.insert sound step) ih accepted
  | ofList accepted =>
      exact foldlM_keeps (fun _ _ _ sound step => Sound.insert sound step) Table.sound_empty accepted

/-- What a table lists makes it again. -/
theorem Sound.ofList_toList (sound : table.Sound) : ofList table.toList = .ok table := by
  refine ofList_eq_ok_iff.mpr ⟨sound.admissible, ?_⟩
  have pairs : table.toList.map HourFactor.pair = table.factors.entries := by
    unfold toList
    rw [List.map_map]
    exact List.map_id _
  rw [pairs, sound.ascending.insertAll_entries]

theorem find?_of_ofList {entries : List (HourFactor α)} (made : ofList entries = .ok table)
    (key : WeekHour) :
    table.factors.find? key = latest? (entries.map HourFactor.pair) key := by
  obtain ⟨_, rfl⟩ := ofList_eq_ok_iff.mp made
  exact (Table.find?_insertAll _ _ _).trans Option.or_none

end HourlyCorrections

end PipelineCapacity
