import PipelineCapacity.Proofs.Forecast.Entries

/-!
Correction tables edited in place, call after call. What a call has entered
before it is refused stays entered, so it takes a proof that a factor for every
day of the week is entered on all days or on none: whether an entry is refused
does not depend on its day. After any calls a table has of every key the factor
of the last accepted call, and lists its keys in ascending order.
-/

set_option autoImplicit false

namespace PipelineCapacity

section InPlace

variable {σ ε β γ : Type}

/-- A step on a state that is edited in place. A refused step changes nothing, but
does not undo the steps before it. -/
def inPlace (step : σ → Except ε σ) : ExceptT ε (StateM σ) Unit := do
  match step (← get) with
  | .ok next => set next
  | .error cause => throw cause

/-- The answer of an edit, and the state it leaves. -/
def perform (edit : ExceptT ε (StateM σ) Unit) (state : σ) : Except ε Unit × σ :=
  Id.run (edit.run.run state)

theorem perform_inPlace (step : σ → Except ε σ) (state : σ) :
    perform (inPlace step) state =
      match step state with
      | .ok next => (.ok (), next)
      | .error cause => (.error cause, state) := by
  change perform (match step state with
    | .ok next => set next
    | .error cause => throw cause) state = _
  cases step state with
  | ok next => rfl
  | error cause => rfl

theorem perform_seq (first rest : ExceptT ε (StateM σ) Unit) (state : σ) :
    perform (do first; rest) state =
      match perform first state with
      | (.ok _, next) => perform rest next
      | (.error cause, next) => (.error cause, next) := by
  change Id.run (StateT.run (ExceptT.bindCont (fun _ => rest) (perform first state).1)
    (perform first state).2) = _
  obtain ⟨answer, next⟩ := perform first state
  cases answer with
  | ok _ => rfl
  | error cause => rfl

variable {step : β → σ → Except ε σ} {enter : σ → β → σ} {items : List β}

/-- A loop none of whose steps is refused takes all of them. -/
theorem perform_forM_of_ok
    (accepts : ∀ item ∈ items, ∀ state, step item state = .ok (enter state item)) (state : σ) :
    perform (items.forM fun item => inPlace (step item)) state =
      (.ok (), items.foldl enter state) := by
  induction items generalizing state with
  | nil => rfl
  | cons item rest ih =>
      obtain ⟨first, others⟩ := List.forall_mem_cons.mp accepts
      rw [List.forM_eq_forM, List.forM_cons, perform_seq, perform_inPlace, first]
      exact ih others (enter state item)

/-- A loop whose first step is refused takes none. -/
theorem perform_forM_of_error {item : β} {state : σ} {cause : ε}
    (refuses : step item state = .error cause) :
    perform ((item :: items).forM fun item => inPlace (step item)) state =
      (.error cause, state) := by
  rw [List.forM_eq_forM, List.forM_cons, perform_seq, perform_inPlace, refuses]

/-- Edits by calls each of which is accepted or refused as it says by itself, and
which enter all there is of a call or nothing. -/
structure AllOrNothing (edit : γ → ExceptT ε (StateM σ) Unit) (admissible : γ → Prop)
    (enter : σ → γ → σ) : Prop where
  accepts : ∀ call state, admissible call → perform (edit call) state = (.ok (), enter state call)
  refuses : ∀ call state, ¬admissible call →
    ∃ cause, perform (edit call) state = (.error cause, state)

variable (edit : γ → ExceptT ε (StateM σ) Unit)

/-- The state that calls leave, whatever their answers. -/
def performAll (state : σ) (calls : List γ) : σ :=
  calls.foldl (fun state call => (perform (edit call) state).2) state

/-- Of some calls, one made after the other, those that are not refused. -/
def acceptedCalls (state : σ) : List γ → List γ
  | [] => []
  | call :: rest =>
      match perform (edit call) state with
      | (.ok _, next) => call :: acceptedCalls next rest
      | (.error _, next) => acceptedCalls next rest

variable {edit} {admissible : γ → Prop} {enter : σ → γ → σ}

theorem AllOrNothing.cases (settled : AllOrNothing edit admissible enter) (call : γ) (state : σ) :
    admissible call ∧ perform (edit call) state = (.ok (), enter state call) ∨
      ¬admissible call ∧ ∃ cause, perform (edit call) state = (.error cause, state) := by
  by_cases accepted : admissible call
  · exact .inl ⟨accepted, settled.accepts call state accepted⟩
  · exact .inr ⟨accepted, settled.refuses call state accepted⟩

/-- Refused calls leave no trace. -/
theorem AllOrNothing.performAll_eq (settled : AllOrNothing edit admissible enter) (state : σ)
    (calls : List γ) :
    performAll edit state calls = (acceptedCalls edit state calls).foldl enter state := by
  induction calls generalizing state with
  | nil => rfl
  | cons call rest ih =>
      change performAll edit (perform (edit call) state).2 rest = _
      unfold acceptedCalls
      rcases settled.cases call state with ⟨_, accepted⟩ | ⟨_, cause, refused⟩
      · rw [accepted]
        exact ih _
      · rw [refused]
        exact ih _

theorem AllOrNothing.acceptedCalls_admissible (settled : AllOrNothing edit admissible enter)
    (state : σ) (calls : List γ) : ∀ call ∈ acceptedCalls edit state calls, admissible call := by
  induction calls generalizing state with
  | nil => exact List.forall_mem_nil _
  | cons call rest ih =>
      unfold acceptedCalls
      rcases settled.cases call state with ⟨admitted, accepted⟩ | ⟨_, cause, refused⟩
      · rw [accepted]
        exact List.forall_mem_cons.mpr ⟨admitted, ih _⟩
      · rw [refused]
        exact ih _

end InPlace

open Quantity (one)

variable {α : Type} [Quantity α]

namespace MonthlyCorrections

/-- Enters a factor in place. -/
def edit (entry : MonthFactor α) :
    ExceptT (InvalidParameter α) (StateM (MonthlyCorrections α)) Unit :=
  inPlace (·.insert entry)

theorem allOrNothing : AllOrNothing (edit (α := α)) MonthFactor.Admissible
    fun table entry => ⟨table.factors.insert entry.month entry.factor⟩ where
  accepts := by
    intro entry table admissible
    unfold edit
    rw [perform_inPlace, insert_eq_ok_iff.mpr ⟨admissible, rfl⟩]
  refuses := by
    intro entry table inadmissible
    obtain ⟨cause, refused⟩ : ∃ cause, table.insert entry = .error cause :=
      exists_eq_error (fun _ => insert_eq_ok_iff) inadmissible
    unfold edit
    rw [perform_inPlace, refused]
    exact ⟨cause, rfl⟩

/-- The table that calls leave is the one that the accepted ones make. -/
theorem ofList_acceptedCalls (calls : List (MonthFactor α)) :
    ofList (acceptedCalls edit .empty calls) = .ok (performAll edit .empty calls) :=
  (foldlM_eq_ok_iff fun _ _ _ => insert_eq_ok_iff).mpr
    ⟨allOrNothing.acceptedCalls_admissible _ calls, allOrNothing.performAll_eq _ calls⟩

variable {table : MonthlyCorrections α} {entries : List (MonthFactor α)}

theorem condensed_of_ofList (made : ofList entries = .ok table) :
    Condensed (entries.map MonthFactor.pair) (table.toList.map MonthFactor.pair) := by
  obtain ⟨_, rfl⟩ := ofList_eq_ok_iff.mp made
  unfold toList
  rw [List.map_map]
  change Condensed _ (List.map id _)
  rw [List.map_id]
  exact Table.condensed_insertAll _

theorem factor_of_ofList (made : ofList entries = .ok table) (month : Nat) :
    table.factor month = (latest? (entries.map MonthFactor.pair) month).getD one := by
  unfold factor
  rw [find?_of_ofList made]

end MonthlyCorrections

namespace HourlyCorrections

/-- What may be asked of a table: to enter one factor, or one for every day of the week. -/
inductive Call (α : Type) where
  | insert (entry : HourFactor α)
  | insertEveryDay (hour : Nat) (factor : α)

namespace Call

omit [Quantity α] in
/-- The entries a call makes, in this order. -/
def entries : Call α → List (HourFactor α)
  | insert entry => [entry]
  | insertEveryDay hour factor => Weekday.all.map fun weekday => ⟨weekday, hour, factor⟩

def Admissible : Call α → Prop
  | insert entry => entry.Admissible
  | insertEveryDay hour factor => hour ≤ 23 ∧ isPositive factor = true

/-- Enters factors in place, day after day where it is for all of them. -/
def edit : Call α → ExceptT (InvalidParameter α) (StateM (HourlyCorrections α)) Unit
  | insert entry => inPlace (·.insert entry)
  | insertEveryDay hour factor =>
      Weekday.all.forM fun weekday => inPlace (·.insert ⟨weekday, hour, factor⟩)

theorem admissible_iff (call : Call α) :
    call.Admissible ↔ ∀ entry ∈ call.entries, entry.Admissible := by
  cases call with
  | insert entry =>
      change _ ↔ ∀ other ∈ [entry], other.Admissible
      rw [List.forall_mem_singleton]
      rfl
  | insertEveryDay hour factor =>
      constructor
      · intro admissible entry member
        obtain ⟨weekday, _, rfl⟩ := List.mem_map.mp member
        exact admissible
      · intro each
        exact each ⟨.mon, hour, factor⟩ List.mem_cons_self

omit [Quantity α] in
/-- A call has one factor for all of its entries. -/
theorem latest?_entries {call : Call α} {entry : HourFactor α} (member : entry ∈ call.entries) :
    latest? (call.entries.map HourFactor.pair) ⟨entry.weekday, entry.hour⟩ =
      some entry.factor := by
  have alike : ∀ first ∈ call.entries, ∀ second ∈ call.entries, first.factor = second.factor := by
    cases call with
    | insert entry =>
        intro first inside second within
        rw [List.mem_singleton.mp inside, List.mem_singleton.mp within]
    | insertEveryDay hour factor =>
        intro first inside second within
        obtain ⟨_, _, rfl⟩ := List.mem_map.mp inside
        obtain ⟨_, _, rfl⟩ := List.mem_map.mp within
        rfl
  cases found : latest? (call.entries.map HourFactor.pair) ⟨entry.weekday, entry.hour⟩ with
  | none =>
      have absent := latest?_eq_none_iff.mp found
      exact absurd (List.mem_map_of_mem (List.mem_map_of_mem member)) absent
  | some value =>
      obtain ⟨other, inside, same⟩ := List.mem_map.mp (mem_of_latest? found)
      rw [alike entry member other inside]
      exact congrArg some (congrArg Prod.snd same).symm

end Call

/-- The table with an entry, admissible or not. -/
def enter (table : HourlyCorrections α) (entry : HourFactor α) : HourlyCorrections α :=
  ⟨table.factors.insert ⟨entry.weekday, entry.hour⟩ entry.factor⟩

omit [Quantity α] in
theorem foldl_enter (table : HourlyCorrections α) (entries : List (HourFactor α)) :
    entries.foldl enter table = ⟨table.factors.insertAll (entries.map HourFactor.pair)⟩ := by
  induction entries generalizing table with
  | nil => rfl
  | cons entry rest ih => exact ih (enter table entry)

theorem exists_insert_eq_error (table : HourlyCorrections α) {entry : HourFactor α}
    (inadmissible : ¬entry.Admissible) : ∃ cause, table.insert entry = .error cause :=
  exists_eq_error (fun _ => insert_eq_ok_iff) inadmissible

theorem allOrNothing : AllOrNothing (Call.edit (α := α)) Call.Admissible
    fun table call => call.entries.foldl enter table where
  accepts := by
    intro call table admissible
    cases call with
    | insert entry =>
        unfold Call.edit
        rw [perform_inPlace, insert_eq_ok_iff.mpr ⟨admissible, rfl⟩]
        rfl
    | insertEveryDay hour factor =>
        have accepts : ∀ weekday ∈ Weekday.all, ∀ table : HourlyCorrections α,
            table.insert ⟨weekday, hour, factor⟩ = .ok (enter table ⟨weekday, hour, factor⟩) :=
          fun _ _ _ => insert_eq_ok_iff.mpr ⟨admissible, rfl⟩
        unfold Call.edit Call.entries
        rw [List.foldl_map]
        exact perform_forM_of_ok accepts table
  refuses := by
    intro call table inadmissible
    cases call with
    | insert entry =>
        obtain ⟨cause, refused⟩ := exists_insert_eq_error table inadmissible
        unfold Call.edit
        rw [perform_inPlace, refused]
        exact ⟨cause, rfl⟩
    | insertEveryDay hour factor =>
        -- What refuses Monday, which comes first, would refuse any other day.
        have monday : ¬(⟨.mon, hour, factor⟩ : HourFactor α).Admissible := inadmissible
        obtain ⟨cause, refused⟩ := exists_insert_eq_error table monday
        exact ⟨cause, perform_forM_of_error refused⟩

/-- All entries of an accepted call are in the table it leaves. -/
theorem factor_foldl_enter (table : HourlyCorrections α) {call : Call α} {entry : HourFactor α}
    (member : entry ∈ call.entries) :
    (call.entries.foldl enter table).factor entry.weekday entry.hour = entry.factor := by
  unfold factor
  rw [foldl_enter, Table.find?_insertAll, Call.latest?_entries member]
  rfl

/-- Entered in place, a factor for every day is entered as in one step. -/
theorem perform_insertEveryDay (table : HourlyCorrections α) (hour : Nat) (factor : α) :
    perform (Call.insertEveryDay hour factor).edit table =
      perform (inPlace (·.insertEveryDay hour factor)) table := by
  rw [perform_inPlace]
  cases inserted : table.insert ⟨.mon, hour, factor⟩ with
  | ok next =>
      have admissible := (insert_eq_ok_iff.mp inserted).1
      have passed : table.insertEveryDay hour factor =
          .ok ((Call.insertEveryDay hour factor).entries.foldl enter table) := by
        unfold Call.entries
        rw [List.foldl_map]
        exact (foldlM_eq_ok_iff fun _ _ _ => insert_eq_ok_iff).mpr ⟨fun _ _ => admissible, rfl⟩
      rw [passed]
      exact allOrNothing.accepts (.insertEveryDay hour factor) table admissible
  | error cause =>
      have stopped : table.insertEveryDay hour factor = .error cause := by
        unfold insertEveryDay Weekday.all
        rw [List.foldlM_cons, inserted]
        rfl
      rw [stopped]
      exact perform_forM_of_error inserted

/-- The table that calls leave is the one that the entries of the accepted ones make. -/
theorem ofList_acceptedCalls (calls : List (Call α)) :
    ofList ((acceptedCalls Call.edit .empty calls).flatMap Call.entries) =
      .ok (performAll Call.edit .empty calls) := by
  refine (foldlM_eq_ok_iff fun _ _ _ => insert_eq_ok_iff).mpr ⟨?_, ?_⟩
  · intro entry member
    obtain ⟨call, accepted, inside⟩ := List.mem_flatMap.mp member
    have admissible := allOrNothing.acceptedCalls_admissible _ calls call accepted
    exact call.admissible_iff.mp admissible entry inside
  · rw [List.foldl_flatMap]
    exact allOrNothing.performAll_eq _ calls

variable {table : HourlyCorrections α} {entries : List (HourFactor α)}

theorem condensed_of_ofList (made : ofList entries = .ok table) :
    Condensed (entries.map HourFactor.pair) (table.toList.map HourFactor.pair) := by
  obtain ⟨_, rfl⟩ := ofList_eq_ok_iff.mp made
  unfold toList
  rw [List.map_map]
  change Condensed _ (List.map id _)
  rw [List.map_id]
  exact Table.condensed_insertAll _

theorem factor_of_ofList (made : ofList entries = .ok table) (weekday : Weekday) (hour : Nat) :
    table.factor weekday hour =
      (latest? (entries.map HourFactor.pair) ⟨weekday, hour⟩).getD one := by
  unfold factor
  rw [find?_of_ofList made]

end HourlyCorrections

/-- Tables of corrections under any calls. A refused call leaves the table as it
was, and a factor for every day of the week is entered on all days or on none. A
key has the factor of the last accepted call for it, or else one. The list of a
table has every key that was ever set once, in ascending order, and makes the
table again. A list makes a table if all of its entries are admissible, and the
table lists of each key the entry that came last. -/
theorem edited_tables_keep_last :
    (∀ calls : List (MonthFactor α),
      let table := performAll MonthlyCorrections.edit .empty calls
      let entered := (acceptedCalls MonthlyCorrections.edit .empty calls).map MonthFactor.pair
      (∀ call : MonthFactor α,
        call.Admissible ∧ (perform (MonthlyCorrections.edit call) table).1 = .ok () ∨
          ¬call.Admissible ∧
            ∃ cause, perform (MonthlyCorrections.edit call) table = (.error cause, table)) ∧
      (∀ month, table.factor month = (latest? entered month).getD one) ∧
      Condensed entered (table.toList.map MonthFactor.pair) ∧
      (∀ month, month ∈ (table.toList.map MonthFactor.pair).map (·.1) ↔
        month ∈ entered.map (·.1)) ∧
      MonthlyCorrections.ofList table.toList = .ok table) ∧
    (∀ calls : List (HourlyCorrections.Call α),
      let table := performAll HourlyCorrections.Call.edit .empty calls
      let entered := ((acceptedCalls HourlyCorrections.Call.edit .empty calls).flatMap
        HourlyCorrections.Call.entries).map HourFactor.pair
      (∀ call : HourlyCorrections.Call α,
        call.Admissible ∧ (∃ next, perform call.edit table = (.ok (), next) ∧
            ∀ entry ∈ call.entries, next.factor entry.weekday entry.hour = entry.factor) ∨
          ¬call.Admissible ∧ ∃ cause, perform call.edit table = (.error cause, table)) ∧
      (∀ hour factor,
        perform (HourlyCorrections.Call.insertEveryDay hour factor).edit table =
          perform (inPlace (·.insertEveryDay hour factor)) table) ∧
      (∀ weekday hour, table.factor weekday hour = (latest? entered ⟨weekday, hour⟩).getD one) ∧
      Condensed entered (table.toList.map HourFactor.pair) ∧
      (∀ key, key ∈ (table.toList.map HourFactor.pair).map (·.1) ↔ key ∈ entered.map (·.1)) ∧
      HourlyCorrections.ofList table.toList = .ok table) ∧
    (∀ entries : List (MonthFactor α),
      (∀ entry ∈ entries, entry.Admissible) ∧
          (∃ table, MonthlyCorrections.ofList entries = .ok table ∧
            Condensed (entries.map MonthFactor.pair) (table.toList.map MonthFactor.pair)) ∨
        (¬∀ entry ∈ entries, entry.Admissible) ∧
          ∃ cause, MonthlyCorrections.ofList entries = .error cause) ∧
    ∀ entries : List (HourFactor α),
      (∀ entry ∈ entries, entry.Admissible) ∧
          (∃ table, HourlyCorrections.ofList entries = .ok table ∧
            Condensed (entries.map HourFactor.pair) (table.toList.map HourFactor.pair)) ∨
        (¬∀ entry ∈ entries, entry.Admissible) ∧
          ∃ cause, HourlyCorrections.ofList entries = .error cause := by
  refine ⟨?_, ?_, ?_, ?_⟩
  · intro calls
    have made := MonthlyCorrections.ofList_acceptedCalls calls
    have condensed := MonthlyCorrections.condensed_of_ofList made
    refine ⟨fun call => ?_, MonthlyCorrections.factor_of_ofList made, condensed,
      fun month => condensed.mem_keys_iff,
      (MonthlyCorrections.Filled.ofList made).sound.ofList_toList⟩
    rcases MonthlyCorrections.allOrNothing.cases call
      (performAll MonthlyCorrections.edit .empty calls) with
      ⟨admissible, accepted⟩ | refused
    · exact .inl ⟨admissible, congrArg Prod.fst accepted⟩
    · exact .inr refused
  · intro calls
    have made := HourlyCorrections.ofList_acceptedCalls calls
    have condensed := HourlyCorrections.condensed_of_ofList made
    refine ⟨fun call => ?_, HourlyCorrections.perform_insertEveryDay _,
      HourlyCorrections.factor_of_ofList made, condensed, fun key => condensed.mem_keys_iff,
      (HourlyCorrections.Filled.ofList made).sound.ofList_toList⟩
    rcases HourlyCorrections.allOrNothing.cases call
      (performAll HourlyCorrections.Call.edit .empty calls) with
      ⟨admissible, accepted⟩ | refused
    · exact .inl ⟨admissible, _, accepted,
        fun _ member => HourlyCorrections.factor_foldl_enter _ member⟩
    · exact .inr refused
  · intro entries
    by_cases admissible : ∀ entry ∈ entries, entry.Admissible
    · have made := MonthlyCorrections.ofList_eq_ok_iff.mpr ⟨admissible, rfl⟩
      exact .inl ⟨admissible, _, made, MonthlyCorrections.condensed_of_ofList made⟩
    · exact .inr ⟨admissible,
        exists_eq_error (fun _ => MonthlyCorrections.ofList_eq_ok_iff) admissible⟩
  · intro entries
    by_cases admissible : ∀ entry ∈ entries, entry.Admissible
    · have made := HourlyCorrections.ofList_eq_ok_iff.mpr ⟨admissible, rfl⟩
      exact .inl ⟨admissible, _, made, HourlyCorrections.condensed_of_ofList made⟩
    · exact .inr ⟨admissible,
        exists_eq_error (fun _ => HourlyCorrections.ofList_eq_ok_iff) admissible⟩

/-- A Saturday evening, an hour that no Friday has, all evenings, all evenings in
vain, and a Monday morning. -/
def busyEvenings : List (HourlyCorrections.Call ℚ) :=
  [.insert ⟨.sat, 20, 2 / 5⟩, .insert ⟨.fri, 24, 2⟩, .insertEveryDay 20 (3 / 2),
    .insertEveryDay 20 (-1), .insert ⟨.mon, 3, 2⟩]

theorem edited_tables_keep_last_busyEvenings :
    let table := performAll HourlyCorrections.Call.edit .empty busyEvenings
    table.factor .sat 20 = 3 / 2 ∧ table.factor .fri 24 = 1 ∧
      table.toList.map (·.hour) = [3, 20, 20, 20, 20, 20, 20, 20] ∧
      HourlyCorrections.ofList table.toList = .ok table ∧
      ∃ cause, perform (HourlyCorrections.Call.insertEveryDay 20 (-1)).edit table =
        (.error cause, table) := by
  obtain ⟨_, hourly, _⟩ := edited_tables_keep_last (α := ℚ)
  obtain ⟨answers, _, factors, _, _, again⟩ := hourly busyEvenings
  refine ⟨?_, ?_, by decide +kernel, again, ?_⟩
  · rw [factors]
    decide +kernel
  · rw [factors]
    decide +kernel
  · rcases answers (.insertEveryDay 20 (-1)) with ⟨admissible, _⟩ | ⟨_, refused⟩
    · exact absurd admissible.2 (by decide +kernel)
    · exact refused

end PipelineCapacity
