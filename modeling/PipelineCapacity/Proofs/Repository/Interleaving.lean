import Mathlib.Logic.Relation
import PipelineCapacity.Proofs.Repository

/-!
Outcomes saved by calls that overlap. A call writes the results and then the
summary, each in one go; in between any other call may write. Once all calls
have returned, the results and the summary kept under a name are those written
last, each by some call of that name. They may belong to two calls, but only if
one of these made both its writes between the two writes of the other.
-/

set_option autoImplicit false

namespace PipelineCapacity

/-- Calls on one repository, by their numbers. -/
structure Session where
  repository : Repository
  /-- What each call has still to write, and where. -/
  pending : List (List (Place × String))
  /-- What was written so far: where, by which call and which text. -/
  made : List (Place × Nat × String)

namespace Session

variable {repository : Repository} {outcomes : List (Outcome Float)} {session next : Session}

/-- A call for each of the outcomes, none of which has written anything. -/
def start (repository : Repository) (outcomes : List (Outcome Float)) : Session :=
  { repository
    pending := outcomes.map fun run => (Save.outcome run).writes repository.style
    made := [] }

/-- Some call makes its next write. -/
inductive Step : Session → Session → Prop
  | write {session : Session} {call : Nat} {place : Place} {text : String}
      {rest : List (Place × String)}
      (due : session.pending[call]? = some ((place, text) :: rest)) :
      Step session
        { repository := session.repository.saveText place.1 place.2 text
          pending := session.pending.set call rest
          made := session.made ++ [(place, call, text)] }

/-- After the next write of a call, if it has one. -/
def advance (session : Session) (call : Nat) : Session :=
  match session.pending[call]? with
  | some ((place, text) :: rest) =>
      { repository := session.repository.saveText place.1 place.2 text
        pending := session.pending.set call rest
        made := session.made ++ [(place, call, text)] }
  | _ => session

/-- Calls make their writes in this order. -/
def scheduled (repository : Repository) (outcomes : List (Outcome Float)) (calls : List Nat) :
    Session := calls.foldl advance (start repository outcomes)

/-- Sessions that some order of the writes leads to. -/
def Reached (repository : Repository) (outcomes : List (Outcome Float)) (session : Session) :
    Prop :=
  Relation.ReflTransGen Step (start repository outcomes) session

/-- All calls have returned. -/
def Finished (session : Session) : Prop := ∀ writes ∈ session.pending, writes = []

/-- The call that wrote to a place last. -/
def lastCall? (session : Session) (place : Place) : Option Nat :=
  (latest? session.made place).map (·.1)

/-- Of two calls that write under a name, one makes both its writes between those
of the other. -/
def Encloses (session : Session) (name : String) (outer inner : Nat) : Prop :=
  [((.results, name), outer), ((.results, name), inner), ((.summary, name), inner),
    ((.summary, name), outer)].Sublist (session.made.map fun write => (write.1, write.2.1))

theorem Reached.advance (reached : Reached repository outcomes session) (call : Nat) :
    Reached repository outcomes (session.advance call) := by
  unfold Session.advance
  split
  · rename_i due
    exact reached.tail (.write due)
  · exact reached

theorem reached_scheduled (repository : Repository) (outcomes : List (Outcome Float))
    (calls : List Nat) : Reached repository outcomes (scheduled repository outcomes calls) := by
  induction calls using List.reverseRecOn with
  | nil => exact .refl
  | append_singleton calls call ih =>
      unfold scheduled at ih ⊢
      rw [List.foldl_append]
      exact Reached.advance ih call

/-- A write as it stands among those that were made. -/
def byCall (call : Nat) (write : Place × String) : Place × Nat × String :=
  (write.1, call, write.2)

/-- The repository is what the writes made of it, and every call makes those of
its outcome in their order. -/
structure Sound (repository : Repository) (outcomes : List (Outcome Float))
    (session : Session) : Prop where
  entered : session.repository = repository.enterAll (session.made.map (Prod.map id Prod.snd))
  calls : session.pending.length = outcomes.length
  known : ∀ write ∈ session.made, write.2.1 < outcomes.length
  inOrder : ∀ (call : Nat) (run : Outcome Float), outcomes[call]? = some run →
    ∃ rest, session.pending[call]? = some rest ∧
      (session.made.filter fun write => write.2.1 = call) ++ rest.map (byCall call) =
        ((Save.outcome run).writes repository.style).map (byCall call)

theorem sound_start : Sound repository outcomes (start repository outcomes) := by
  refine ⟨rfl, List.length_map _, List.forall_mem_nil _, fun call run there => ?_⟩
  refine ⟨(Save.outcome run).writes repository.style, ?_, rfl⟩
  exact (List.getElem?_map).trans (congrArg _ there)

theorem Sound.step (sound : Sound repository outcomes session) (step : Step session next) :
    Sound repository outcomes next := by
  cases step with
  | @write call place text rest due =>
      have inside : call < session.pending.length := (List.getElem?_eq_some_iff.mp due).1
      refine ⟨?_, ?_, ?_, ?_⟩
      · change session.repository.saveText place.1 place.2 text = _
        rw [List.map_append, Repository.enterAll_append, ← sound.entered]
        rfl
      · exact (List.length_set).trans sound.calls
      · refine List.forall_mem_append.mpr ⟨sound.known, List.forall_mem_singleton.mpr ?_⟩
        rw [← sound.calls]
        exact inside
      · intro other run there
        obtain ⟨todo, pending, order⟩ := sound.inOrder other run there
        by_cases same : call = other
        · subst same
          rw [due] at pending
          cases pending
          refine ⟨rest, List.getElem?_set_self inside, ?_⟩
          rw [← order, List.filter_append]
          simp [byCall]
        · refine ⟨todo, (List.getElem?_set_ne same).trans pending, ?_⟩
          rw [← order, List.filter_append]
          simp [same]

theorem Reached.sound (reached : Reached repository outcomes session) :
    Sound repository outcomes session := by
  induction reached with
  | refl => exact sound_start
  | tail _ step ih => exact ih.step step

section Returned

variable (sound : Sound repository outcomes session)

include sound

/-- The texts that count are those written last. -/
theorem Sound.loadText {kind : EntryKind} {name text : String} {call : Nat}
    (last : latest? session.made (kind, name) = some (call, text)) :
    session.repository.loadText kind name = .ok text := by
  rw [sound.entered, Repository.loadText_enterAll, latest?_map, last]
  rfl

theorem Sound.loadResults {name : String} {call : Nat} {run : Outcome Float}
    (storable : run.results.Storable)
    (last : latest? session.made (.results, name) =
      some (call, Json.write .compact run.results.toDocument)) :
    session.repository.loadResults name = .ok run.results :=
  bind_eq_ok_iff.mpr ⟨_, sound.loadText last,
    mapError_eq_ok_iff.mpr (ResultSeries.decode_write storable)⟩

theorem Sound.loadSummary {name : String} {call : Nat} {run : Outcome Float}
    (storable : run.summary.Storable)
    (last : latest? session.made (.summary, name) =
      some (call, Json.write .compact run.summary.toDocument)) :
    session.repository.loadSummary name = .ok run.summary :=
  bind_eq_ok_iff.mpr ⟨_, sound.loadText last,
    mapError_eq_ok_iff.mpr (Summary.decode_write storable)⟩

theorem Sound.loadResults_eq_saveOutcome {name : String} {call : Nat} {run : Outcome Float}
    (same : run.name = name)
    (last : latest? session.made (.results, name) =
      some (call, Json.write .compact run.results.toDocument)) :
    session.repository.loadResults name = (repository.saveOutcome run).loadResults name := by
  subst same
  exact Repository.loadWith_congr
    ((sound.loadText last).trans (repository.loadText_saveOutcome run).1.symm)

theorem Sound.loadSummary_eq_saveOutcome {name : String} {call : Nat} {run : Outcome Float}
    (same : run.name = name)
    (last : latest? session.made (.summary, name) =
      some (call, Json.write .compact run.summary.toDocument)) :
    session.repository.loadSummary name = (repository.saveOutcome run).loadSummary name := by
  subst same
  exact Repository.loadWith_congr
    ((sound.loadText last).trans (repository.loadText_saveOutcome run).2.symm)

variable (finished : session.Finished)

include finished

/-- A call that has returned has made all its writes. -/
theorem Sound.filter_call {call : Nat} {run : Outcome Float}
    (there : outcomes[call]? = some run) :
    (session.made.filter fun write => write.2.1 = call) =
      ((Save.outcome run).writes repository.style).map (byCall call) := by
  obtain ⟨rest, pending, order⟩ := sound.inOrder call run there
  rw [finished rest (List.mem_of_getElem? pending), List.map_nil, List.append_nil] at order
  exact order

/-- Of every kind that is written, what was written last under the name of an
outcome comes from an outcome of that name. -/
theorem Sound.exists_last {kind : EntryKind} {text : Outcome Float → String}
    (written : ∀ (run : Outcome Float) (name content : String),
      ((kind, name), content) ∈ (Save.outcome run).writes repository.style ↔
        name = run.name ∧ content = text run)
    {run : Outcome Float} (member : run ∈ outcomes) :
    ∃ call other, outcomes[call]? = some other ∧ other.name = run.name ∧
      latest? session.made (kind, run.name) = some (call, text other) := by
  obtain ⟨own, there⟩ := List.mem_iff_getElem?.mp member
  have ownWrite : ((kind, run.name), own, text run) ∈ session.made := by
    have among : ((kind, run.name), own, text run) ∈
        session.made.filter fun write => write.2.1 = own := by
      rw [sound.filter_call finished there]
      exact List.mem_map_of_mem ((written run run.name (text run)).mpr ⟨rfl, rfl⟩)
    exact (List.mem_filter.mp among).1
  cases last : latest? session.made (kind, run.name) with
  | none => exact absurd (List.mem_map_of_mem ownWrite) (latest?_eq_none_iff.mp last)
  | some lastWrite =>
      obtain ⟨call, content⟩ := lastWrite
      have inside := mem_of_latest? last
      have calls : call < outcomes.length := sound.known _ inside
      have among : ((kind, run.name), call, content) ∈
          session.made.filter fun write => write.2.1 = call :=
        List.mem_filter.mpr ⟨inside, decide_eq_true rfl⟩
      have there : outcomes[call]? = some outcomes[call] := List.getElem?_eq_getElem calls
      rw [sound.filter_call finished there] at among
      obtain ⟨⟨⟨_, _⟩, _⟩, member, same⟩ := List.mem_map.mp among
      cases same
      obtain ⟨name, rfl⟩ := (written _ _ _).mp member
      exact ⟨call, outcomes[call], there, name.symm, rfl⟩

end Returned

theorem sublist_of_concat_sublist {β : Type} {front before after : List β} {last : β}
    (sublist : (front ++ [last]).Sublist (before ++ after)) (absent : last ∉ after) :
    (front ++ [last]).Sublist before := by
  obtain ⟨left, right, same, leftSublist, rightSublist⟩ := List.sublist_append_iff.mp sublist
  cases List.eq_nil_or_concat' right with
  | inl vacant =>
      rw [same, vacant, List.append_nil]
      exact leftSublist
  | inr ending =>
      obtain ⟨others, final, rfl⟩ := ending
      rw [← List.append_assoc] at same
      have final : last = final := by simpa using (List.append_inj' same rfl).2
      rw [← final] at rightSublist
      exact absurd (rightSublist.subset (List.mem_append_right others List.mem_cons_self)) absent

section Order

variable {made before after : List (Place × Nat × String)} {first second : Place}

/-- A call that writes to two places, and to the first of them no more, has its
write to the second among the rest. -/
theorem mem_after_of_filter (different : first ≠ second) {call : Nat}
    {text firstText secondText : String}
    (writes : ((before ++ (first, call, text) :: after).filter fun write => write.2.1 = call) =
      [(first, call, firstText), (second, call, secondText)]) :
    (second, call, secondText) ∈ after := by
  have own : ((first, call, text) :: after).filter (fun write => write.2.1 = call) =
      (first, call, text) :: after.filter fun write => write.2.1 = call :=
    List.filter_cons_of_pos (decide_eq_true rfl)
  rw [List.filter_append, own] at writes
  have later : (after.filter fun write => write.2.1 = call) = [(second, call, secondText)] := by
    cases earlier : before.filter fun write => write.2.1 = call with
    | nil =>
        rw [earlier] at writes
        exact (List.cons.inj writes).2
    | cons write others =>
        -- Then the write to the first place would be the second write of the call.
        rw [earlier] at writes
        have tail := (List.cons.inj writes).2
        cases others with
        | nil => exact absurd (congrArg Prod.fst (List.cons.inj tail).1) different
        | cons other others => simp at tail
  have member : (second, call, secondText) ∈ after.filter fun write => write.2.1 = call := by
    rw [later]
    exact List.mem_cons_self
  exact (List.mem_filter.mp member).1

/-- Two calls that each write to one place and then to another. The last write to
the one place is by the inner call, the last write to the other by the outer. -/
theorem sublist_of_last (different : first ≠ second) {inner outer : Nat} (apart : inner ≠ outer)
    {innerFirst innerSecond outerFirst outerSecond : String}
    (innerWrites : (made.filter fun write => write.2.1 = inner) =
      [(first, inner, innerFirst), (second, inner, innerSecond)])
    (outerWrites : (made.filter fun write => write.2.1 = outer) =
      [(first, outer, outerFirst), (second, outer, outerSecond)])
    {firstText secondText : String}
    (lastFirst : latest? made first = some (inner, firstText))
    (lastSecond : latest? made second = some (outer, secondText)) :
    [(first, outer), (first, inner), (second, inner), (second, outer)].Sublist
      (made.map fun write => (write.1, write.2.1)) := by
  obtain ⟨before, after, split, noFirst⟩ := exists_split_of_latest? lastFirst
  have outerEarlier : (first, outer, outerFirst) ∈ before := by
    have member : (first, outer, outerFirst) ∈ made.filter fun write => write.2.1 = outer := by
      rw [outerWrites]
      exact List.mem_cons_self
    have inside := (List.mem_filter.mp member).1
    rw [split, List.mem_append, List.mem_cons] at inside
    rcases inside with early | same | late
    · exact early
    · cases same
      exact absurd rfl apart
    · exact absurd (List.mem_map_of_mem late) noFirst
  have innerLater : (second, inner, innerSecond) ∈ after := by
    rw [split] at innerWrites
    exact mem_after_of_filter different innerWrites
  have three : ([(first, outer, outerFirst), (first, inner, firstText)] ++
      [(second, inner, innerSecond)]).Sublist made := by
    rw [split]
    exact (List.singleton_sublist.mpr outerEarlier).append
      ((List.singleton_sublist.mpr innerLater).cons_cons _)
  obtain ⟨earlier, later, split, noSecond⟩ := exists_split_of_latest? lastSecond
  have absent : (second, inner, innerSecond) ∉ (second, outer, secondText) :: later := by
    intro inside
    rcases List.mem_cons.mp inside with same | late
    · cases same
      exact apart rfl
    · exact noSecond (List.mem_map_of_mem late)
  rw [split] at three
  have four := (sublist_of_concat_sublist three absent).append (List.singleton_sublist.mpr
    (List.mem_cons_self : (second, outer, secondText) ∈ (second, outer, secondText) :: later))
  rw [← split] at four
  exact four.map fun write => (write.1, write.2.1)

end Order

/-- Once all calls have returned, the results and the summary under the name of an
outcome are those written last, each by a call that saved an outcome of that name.
They are loaded as they would be after that call alone, and so as they were saved
if they can be stored. Both are of one call, unless the call that wrote the results
last made both its writes between the two writes of the other. -/
theorem loads_last_written (reached : Reached repository outcomes session)
    (finished : session.Finished) {run : Outcome Float} (member : run ∈ outcomes) :
    ∃ first second firstRun secondRun,
      session.lastCall? (.results, run.name) = some first ∧
      session.lastCall? (.summary, run.name) = some second ∧
      outcomes[first]? = some firstRun ∧ outcomes[second]? = some secondRun ∧
      firstRun.name = run.name ∧ secondRun.name = run.name ∧
      session.repository.loadResults run.name =
        (repository.saveOutcome firstRun).loadResults run.name ∧
      session.repository.loadSummary run.name =
        (repository.saveOutcome secondRun).loadSummary run.name ∧
      (firstRun.results.Storable →
        session.repository.loadResults run.name = .ok firstRun.results) ∧
      (secondRun.summary.Storable →
        session.repository.loadSummary run.name = .ok secondRun.summary) ∧
      (first = second ∨ session.Encloses run.name second first) := by
  have sound := reached.sound
  have results : ∃ call other, outcomes[call]? = some other ∧ other.name = run.name ∧
      latest? session.made (.results, run.name) =
        some (call, Json.write .compact other.results.toDocument) :=
    sound.exists_last finished (fun run name content => by simp [Save.writes]) member
  have summary : ∃ call other, outcomes[call]? = some other ∧ other.name = run.name ∧
      latest? session.made (.summary, run.name) =
        some (call, Json.write .compact other.summary.toDocument) :=
    sound.exists_last finished (fun run name content => by simp [Save.writes]) member
  obtain ⟨first, firstRun, firstThere, firstName, lastResults⟩ := results
  obtain ⟨second, secondRun, secondThere, secondName, lastSummary⟩ := summary
  refine ⟨first, second, firstRun, secondRun, ?_, ?_, firstThere, secondThere, firstName,
    secondName, sound.loadResults_eq_saveOutcome firstName lastResults,
    sound.loadSummary_eq_saveOutcome secondName lastSummary,
    fun storable => sound.loadResults storable lastResults,
    fun storable => sound.loadSummary storable lastSummary, ?_⟩
  · rw [lastCall?, lastResults]
    rfl
  · rw [lastCall?, lastSummary]
    rfl
  · by_cases same : first = second
    · exact .inl same
    · have different : ((.results, run.name) : Place) ≠ (.summary, run.name) := by simp
      have firstWrites := sound.filter_call finished firstThere
      have secondWrites := sound.filter_call finished secondThere
      simp only [Save.writes, firstName, secondName] at firstWrites secondWrites
      exact .inr (sublist_of_last different same firstWrites secondWrites lastResults lastSummary)

def busyHour : ResultRow Float :=
  { Repository.quietHour with
    slot := .ofDate Repository.newYear 1
    incoming := 50
    throughput := 50
    costPerRecord := some 0.022 }

/-- Another run under the name of the quiet one, of two hours. -/
def busyRun : Outcome Float :=
  { Repository.quietRun with
    results := ⟨[Repository.quietHour, busyHour]⟩
    summary :=
      { Repository.quietRun.summary with
        hours := 2, totalCost := 2.2, totalIncoming := 50, totalThroughput := 50
        meanThroughput := 25, maxThroughput := 50 } }

def bothRuns : List (Outcome Float) := [Repository.quietRun, busyRun]

theorem bothRuns_storable :
    ∀ run ∈ bothRuns, run.results.Storable ∧ run.summary.Storable := by
  have midnight : Repository.quietHour.slot.Storable :=
    (Slot.real_ofDate Repository.newYear (Nat.zero_le 23)).storable
  have later : busyHour.slot.Storable :=
    (Slot.real_ofDate Repository.newYear (by decide : 1 ≤ 23)).storable
  have quiet : Repository.quietHour.Storable := ⟨midnight, by decide, by decide +kernel⟩
  have busy : busyHour.Storable := ⟨later, by decide, by decide +kernel⟩
  simp only [bothRuns, List.forall_mem_cons]
  exact ⟨⟨List.forall_mem_singleton.mpr quiet, by decide, by decide, by decide +kernel⟩,
    ⟨List.forall_mem_cons.mpr ⟨quiet, List.forall_mem_singleton.mpr busy⟩, by decide, by decide,
      by decide +kernel⟩, List.forall_mem_nil _⟩

/-- The last writes are both of the second call. -/
theorem loads_last_written_bothRuns :
    let session := scheduled (.ofSpace "plantd" .compact) bothRuns [0, 1, 0, 1]
    session.repository.loadResults busyRun.name = .ok busyRun.results ∧
      session.repository.loadSummary busyRun.name = .ok busyRun.summary := by
  intro session
  have reached : Reached (.ofSpace "plantd" .compact) bothRuns session :=
    reached_scheduled _ _ _
  have finished : session.Finished := by
    change ∀ writes ∈ [[], []], writes = []
    simp
  have member : busyRun ∈ bothRuns := List.mem_cons_of_mem _ List.mem_cons_self
  have storable := bothRuns_storable busyRun member
  obtain ⟨first, second, firstRun, secondRun, lastResults, lastSummary, firstThere, secondThere,
    _, _, _, _, results, summary, _⟩ := loads_last_written reached finished member
  have firstCall : session.lastCall? (.results, busyRun.name) = some 1 := rfl
  have secondCall : session.lastCall? (.summary, busyRun.name) = some 1 := rfl
  rw [firstCall] at lastResults
  rw [secondCall] at lastSummary
  cases lastResults
  cases lastSummary
  cases firstThere
  cases secondThere
  exact ⟨results storable.1, summary storable.2⟩

/-- The second call makes both its writes between those of the first, and what is
kept is of no run. -/
theorem enclosed_calls_mix_outcomes :
    ∃ session, Reached (.ofSpace "plantd" .compact) bothRuns session ∧ session.Finished ∧
      ¬∃ run ∈ bothRuns, session.repository.loadResults busyRun.name = .ok run.results ∧
        session.repository.loadSummary busyRun.name = .ok run.summary := by
  let session := scheduled (.ofSpace "plantd" .compact) bothRuns [0, 1, 1, 0]
  have reached : Reached (.ofSpace "plantd" .compact) bothRuns session :=
    reached_scheduled _ _ _
  have sound := reached.sound
  have lastResults : latest? session.made (.results, busyRun.name) =
      some (1, Json.write .compact busyRun.results.toDocument) := rfl
  have lastSummary : latest? session.made (.summary, busyRun.name) =
      some (0, Json.write .compact Repository.quietRun.summary.toDocument) := rfl
  obtain ⟨quiet, others⟩ := List.forall_mem_cons.mp bothRuns_storable
  obtain ⟨busy, _⟩ := List.forall_mem_cons.mp others
  have results := sound.loadResults busy.1 lastResults
  have summary := sound.loadSummary quiet.2 lastSummary
  refine ⟨session, reached, ?_, ?_⟩
  · change ∀ writes ∈ [[], []], writes = []
    simp
  · rw [results, summary]
    rintro ⟨run, member, sameResults, sameSummary⟩
    rcases List.mem_pair.mp member with rfl | rfl
    · have lengths := congrArg ResultSeries.length (Except.ok.inj sameResults)
      cases lengths
    · have hours := congrArg Summary.hours (Except.ok.inj sameSummary)
      cases hours

end Session

end PipelineCapacity
