import PipelineCapacity.Proofs.Run.Execution
import PipelineCapacity.Proofs.Run.Schedule

/-!
Configurations executed all together. They are prepared in their order, and the
first that cannot be prepared ends it before any worker has started. Otherwise
their workers run under some schedule, and the answer is that of the batch.

Alone, a configuration that cannot be prepared fails for the same reason, and one
that can be gives what its job gives. So the two ways agree, but for which of
several failures is reported: one of preparation comes before all others here.
-/

set_option autoImplicit false

namespace PipelineCapacity

variable {α : Type}

namespace Batch

variable [Quantity α]

/-- The results of the jobs, each run by itself. -/
def separately (jobs : List (Job α)) : List (Except (Failure α) (Outcome α)) :=
  jobs.map fun job => job.run .idle ()

theorem ends_from_checking {job : Job α} {progress : Progress α Unit} {completed : Nat}
    {rest : List (ForecastRow α)} :
    Relation.ReflTransGen (fun stage next => Move job false stage false next)
      (.checking progress completed rest)
      (.ended (job.outcome ((progress.pass .idle rest).finish .idle))) := by
  induction rest generalizing progress completed with
  | nil => exact .single .finish
  | cons row rest ih => exact .head .pass (.head .hour ih)

/-- Left alone, a worker ends as its job does. -/
theorem ends_alone (job : Job α) :
    Relation.ReflTransGen (fun stage next => Move job false stage false next)
      .waiting (.ended (job.run .idle ())) := by
  cases found : Pipeline.unacceptable? job.forecast with
  | some row =>
      rw [Job.run_idle_of_unacceptable found]
      exact .single (.refuse found)
  | none =>
      rw [Job.run_idle_of_acceptable found]
      exact .head (.start found) ends_from_checking

/-- The moves of one worker, seen among the others. -/
theorem steps_of_moves {job : Job α} {stage next : Stage α}
    (moves : Relation.ReflTransGen (fun stage next => Move job false stage false next) stage next)
    (before after : List (Job α × Stage α)) :
    Relation.ReflTransGen Step ⟨false, before ++ (job, stage) :: after⟩
      ⟨false, before ++ (job, next) :: after⟩ := by
  induction moves with
  | refl => exact .refl
  | tail _ moved ih => exact ih.tail (.move moved)

/-- One worker after the other runs to its end. -/
theorem all_end (jobs : List (Job α)) (before : List (Job α × Stage α)) :
    Relation.ReflTransGen Step ⟨false, before ++ jobs.map fun job => (job, .waiting)⟩
      ⟨false, before ++ jobs.map fun job => (job, .ended (job.run .idle ()))⟩ := by
  induction jobs generalizing before with
  | nil => exact .refl
  | cons job rest ih =>
      have first := steps_of_moves (ends_alone job) before
        (rest.map fun job => (job, .waiting))
      have others := ih (before ++ [(job, .ended (job.run .idle ()))])
      simp only [List.append_assoc, List.singleton_append] at others
      exact first.trans others

theorem exists_join (job : Job α) (flag : Bool) (result : Except (Failure α) (Outcome α)) :
    ∃ raised, Move job flag (.ended result) raised (.joined result) := by
  cases result with
  | ok outcome => exact ⟨flag, .joinOutcome⟩
  | error failure => exact ⟨true, .joinFailure⟩

/-- Workers that have all ended are joined in their order. -/
theorem all_join (jobs : List (Job α)) (flag : Bool) (before : List (Job α × Stage α)) :
    ∃ raised, Relation.ReflTransGen Step
      ⟨flag, before ++ jobs.map fun job => (job, .ended (job.run .idle ()))⟩
      ⟨raised, before ++ jobs.map fun job => (job, .joined (job.run .idle ()))⟩ := by
  induction jobs generalizing flag before with
  | nil => exact ⟨flag, .refl⟩
  | cons job rest ih =>
      obtain ⟨next, joined⟩ := exists_join job flag (job.run .idle ())
      obtain ⟨raised, others⟩ := ih next (before ++ [(job, .joined (job.run .idle ()))])
      simp only [List.append_assoc, List.singleton_append] at others
      exact ⟨raised, .head (.move joined) others⟩

/-- Some schedule joins every worker with the result of its job alone. -/
theorem exists_joined_separately (jobs : List (Job α)) :
    ∃ state, Reached jobs state ∧ state.Joined (separately jobs) := by
  obtain ⟨raised, joined⟩ := all_join jobs false []
  refine ⟨_, (all_end jobs []).trans joined, ?_⟩
  simp [State.Joined, separately, Function.comp_def]

theorem run_idle (jobs : List (Job α)) :
    run jobs .idle () (fun _ => false) = settle (separately jobs) := by
  unfold run separately
  simp only [Job.work_unbroken]

/-- The answers of a batch: all outcomes, which are those of the jobs alone, or
the failure of some job alone. -/
theorem State.Sound.settles {jobs : List (Job α)} {state : State α} (sound : state.Sound jobs)
    {results : List (Except (Failure α) (Outcome α))} (joined : state.Joined results) :
    (∃ outcomes, settle results = .ok outcomes ∧ separately jobs = outcomes.map .ok) ∨
    ∃ failure, settle results = .error failure ∧
      ∃ job ∈ jobs, job.run .idle () = .error failure := by
  rcases settle_cases results with ⟨outcomes, rfl, answer⟩ |
    ⟨failure, before, after, rfl, own, first, answer⟩ | ⟨failure, member, all, _⟩
  · exact .inl ⟨outcomes, answer, sound.jobs_eq_results joined⟩
  · obtain ⟨_, job, _, _, listed, failed, _⟩ := sound.exists_first joined own first
    exact .inr ⟨failure, answer, job, listed, failed⟩
  · -- Only cancellations: the first of them needed the flag, so another failure.
    obtain ⟨own, listed, reason⟩ := sound.exists_own_failure joined member (all _ member)
    rw [all _ listed] at reason
    cases reason

end Batch

namespace Config

variable [Quantity α] [MonthlyGrowth α]

/-- Why a configuration cannot be prepared: it is invalid, its forecast cannot be
generated, or its pipeline cannot be built. -/
inductive Unprepared (config : Config α) : Failure α → Prop
  | invalid {failure : Failure α} (refused : config.validate = .error failure) :
      Unprepared config failure
  | forecast {failure : Failure α} (valid : config.validate = .ok ())
      (refused : config.traffic.generate config.first config.last = .error failure) :
      Unprepared config failure
  | pipeline {forecast : Forecast α} {cause : InvalidParameter α}
      (valid : config.validate = .ok ())
      (generated : config.traffic.generate config.first config.last = .ok forecast)
      (refused : Pipeline.ofParams config.model = .error cause) :
      Unprepared config (.invalidParameter cause)

section Alone

variable {config : Config α} {failure : Failure α} {job : Job α}

theorem prepare_eq_error_iff : config.prepare = .error failure ↔ config.Unprepared failure := by
  unfold prepare
  constructor
  · intro refused
    rcases bind_eq_error_iff.mp refused with invalid | ⟨_, valid, refused⟩
    · exact .invalid invalid
    · rcases bind_eq_error_iff.mp refused with ungenerated | ⟨forecast, generated, refused⟩
      · exact .forecast valid ungenerated
      · rcases bind_eq_error_iff.mp refused with unbuilt | ⟨_, _, impossible⟩
        · cases built : Pipeline.ofParams config.model with
          | ok pipeline =>
              rw [built] at unbuilt
              cases unbuilt
          | error cause =>
              rw [built] at unbuilt
              cases unbuilt
              exact .pipeline valid generated built
        · cases impossible
  · intro unprepared
    cases unprepared with
    | invalid refused =>
        rw [refused]
        rfl
    | forecast valid refused =>
        rw [valid, refused]
        rfl
    | pipeline valid generated refused =>
        rw [valid, generated, refused]
        rfl

theorem execute_of_prepared (prepared : config.prepare = .ok job) :
    config.execute = job.run .idle () := by
  unfold execute
  rw [prepared]
  rfl

theorem execute_of_unprepared (unprepared : config.Unprepared failure) :
    config.execute = .error failure := by
  unfold execute
  rw [prepare_eq_error_iff.mpr unprepared]
  rfl

end Alone

/-- The jobs of configurations, in their order. -/
def Prepared (configs : List (Config α)) (jobs : List (Job α)) : Prop :=
  List.Forall₂ (fun config job => config.prepare = .ok job) configs jobs

theorem Prepared.map_execute {configs : List (Config α)} {jobs : List (Job α)}
    (prepared : Prepared configs jobs) : configs.map (·.execute) = Batch.separately jobs := by
  induction prepared with
  | nil => rfl
  | cons first _ ih =>
      rw [List.map_cons, execute_of_prepared first, ih]
      rfl

theorem Prepared.not_unprepared {configs : List (Config α)} {jobs : List (Job α)}
    (prepared : Prepared configs jobs) :
    ∀ config ∈ configs, ∀ failure, ¬config.Unprepared failure := by
  induction prepared with
  | nil => exact List.forall_mem_nil _
  | cons first _ ih =>
      refine List.forall_mem_cons.mpr ⟨fun failure reason => ?_, ih⟩
      rw [prepare_eq_error_iff.mpr reason] at first
      cases first

/-- Either there is a job for every configuration or a first one cannot be prepared. -/
theorem prepared_or_unprepared (configs : List (Config α)) :
    (∃ jobs, Prepared configs jobs) ∨
    ∃ before config after jobs failure, configs = before ++ config :: after ∧
      Prepared before jobs ∧ config.Unprepared failure := by
  induction configs with
  | nil => exact .inl ⟨[], .nil⟩
  | cons config rest ih =>
      cases prepared : config.prepare with
      | error failure =>
          exact .inr ⟨[], config, rest, [], failure, rfl, .nil, prepare_eq_error_iff.mp prepared⟩
      | ok job =>
          rcases ih with ⟨jobs, others⟩ | ⟨before, bad, after, jobs, failure, rfl, others, reason⟩
          · exact .inl ⟨job :: jobs, .cons prepared others⟩
          · exact .inr ⟨config :: before, bad, after, job :: jobs, failure, rfl,
              .cons prepared others, reason⟩

theorem executeAll_of_prepared {configs : List (Config α)} {jobs : List (Job α)}
    (prepared : Prepared configs jobs) :
    executeAll configs = Batch.settle (Batch.separately jobs) := by
  have all : configs.mapM prepare = .ok jobs := by
    induction prepared with
    | nil => rfl
    | cons first _ ih =>
        rw [List.mapM_cons, first, ih]
        rfl
  unfold executeAll
  rw [all]
  exact Batch.run_idle jobs

theorem executeAll_of_unprepared {before : List (Config α)} {config : Config α}
    {jobs : List (Job α)} {failure : Failure α} (prepared : Prepared before jobs)
    (reason : config.Unprepared failure) (after : List (Config α)) :
    executeAll (before ++ config :: after) = .error failure := by
  have stopped : (before ++ config :: after).mapM prepare = .error failure := by
    induction prepared with
    | nil =>
        rw [List.nil_append, List.mapM_cons, prepare_eq_error_iff.mpr reason]
        rfl
    | cons first _ ih =>
        rw [List.cons_append, List.mapM_cons, first, ih]
        rfl
  unfold executeAll
  rw [stopped]
  rfl

/-- How far an execution has come. -/
inductive Phase (α : Type) where
  | preparing (jobs : List (Job α)) (rest : List (Config α))
  | running (state : Batch.State α)
  | answered (answer : Except (Failure α) (List (Outcome α)))

namespace Phase

/-- What comes next. Which worker moves is up to the schedule. -/
inductive Step : Phase α → Phase α → Prop
  | prepare {jobs : List (Job α)} {config : Config α} {rest : List (Config α)} {job : Job α}
      (prepared : config.prepare = .ok job) :
      Step (.preparing jobs (config :: rest)) (.preparing (jobs ++ [job]) rest)
  | refuse {jobs : List (Job α)} {config : Config α} {rest : List (Config α)}
      {failure : Failure α} (refused : config.prepare = .error failure) :
      Step (.preparing jobs (config :: rest)) (.answered (.error failure))
  | spawn {jobs : List (Job α)} : Step (.preparing jobs []) (.running (.start jobs))
  | work {state next : Batch.State α} (moved : Batch.Step state next) :
      Step (.running state) (.running next)
  | settle {state : Batch.State α} {results : List (Except (Failure α) (Outcome α))}
      (joined : state.Joined results) : Step (.running state) (.answered (Batch.settle results))

/-- Phases that some schedule of the workers leads to. -/
def Reached (configs : List (Config α)) (phase : Phase α) : Prop :=
  Relation.ReflTransGen Step (.preparing [] configs) phase

/-- What is known in each phase. -/
inductive Sound (configs : List (Config α)) : Phase α → Prop
  | preparing {done rest : List (Config α)} {jobs : List (Job α)} (split : configs = done ++ rest)
      (prepared : Prepared done jobs) : Sound configs (.preparing jobs rest)
  | running {jobs : List (Job α)} {state : Batch.State α} (prepared : Prepared configs jobs)
      (reached : Batch.Reached jobs state) : Sound configs (.running state)
  | refused {before after : List (Config α)} {config : Config α} {jobs : List (Job α)}
      {failure : Failure α} (split : configs = before ++ config :: after)
      (prepared : Prepared before jobs) (reason : config.Unprepared failure) :
      Sound configs (.answered (.error failure))
  | settled {jobs : List (Job α)} {state : Batch.State α}
      {results : List (Except (Failure α) (Outcome α))}
      (prepared : Prepared configs jobs) (reached : Batch.Reached jobs state)
      (joined : state.Joined results) : Sound configs (.answered (Batch.settle results))

variable {configs : List (Config α)} {phase next : Phase α}

theorem Sound.step (sound : phase.Sound configs) (step : Step phase next) :
    next.Sound configs := by
  cases step with
  | prepare prepared =>
      obtain @⟨done, rest, jobs, split, others⟩ := sound
      rw [List.append_cons] at split
      exact .preparing split (List.rel_append others (.cons prepared .nil))
  | refuse refused =>
      obtain @⟨done, rest, jobs, split, others⟩ := sound
      exact .refused split others (prepare_eq_error_iff.mp refused)
  | spawn =>
      obtain @⟨done, rest, jobs, split, others⟩ := sound
      rw [List.append_nil] at split
      exact .running (split ▸ others) .refl
  | work moved =>
      cases sound with
      | running prepared reached => exact .running prepared (reached.tail moved)
  | settle joined =>
      cases sound with
      | running prepared reached => exact .settled prepared reached joined

theorem sound_of_reached (reached : Reached configs phase) : phase.Sound configs := by
  induction reached with
  | refl => exact .preparing rfl .nil
  | tail _ step ih => exact ih.step step

/-- Configurations still to be prepared, then moves of workers, then nothing. -/
def rank : Phase α → ℕ ×ₗ ℕ
  | preparing _ rest => toLex (rest.length + 2, 0)
  | running state => toLex (1, state.effort)
  | answered _ => toLex (0, 0)

theorem rank_lt_of_step (step : Step phase next) : next.rank < phase.rank := by
  cases step with
  | prepare => exact .left _ _ (by simp)
  | refuse => exact .left _ _ (by simp)
  | spawn => exact .left _ _ (by simp)
  | work moved => exact .right _ (Batch.State.effort_lt_of_step moved)
  | settle => exact .left _ _ (by simp)

theorem step_wellFounded : WellFounded fun next phase : Phase α => Step phase next :=
  (InvImage.wf rank wellFounded_lt).mono fun _ _ => rank_lt_of_step

theorem stuck_iff_answered :
    (∀ next, ¬Step phase next) ↔ ∃ answer, phase = .answered answer := by
  constructor
  · intro stuck
    cases phase with
    | preparing jobs rest =>
        cases rest with
        | nil => exact absurd .spawn (stuck _)
        | cons config rest =>
            cases prepared : config.prepare with
            | ok job => exact absurd (.prepare prepared) (stuck _)
            | error failure => exact absurd (.refuse prepared) (stuck _)
    | running state =>
        have idle : ∀ next, ¬Batch.Step state next := fun next moved => stuck _ (.work moved)
        obtain ⟨results, joined⟩ := Batch.State.stuck_iff_joined.mp idle
        exact absurd (.settle joined) (stuck _)
    | answered answer => exact ⟨answer, rfl⟩
  · rintro ⟨answer, rfl⟩ next step
    cases step

theorem Sound.answer_cases {answer : Except (Failure α) (List (Outcome α))}
    (sound : (answered answer).Sound configs) :
    (∃ outcomes, answer = .ok outcomes ∧ configs.map (·.execute) = outcomes.map .ok) ∨
    ∃ failure, answer = .error failure ∧ ∃ config ∈ configs, config.execute = .error failure := by
  cases sound with
  | refused split _ reason =>
      refine .inr ⟨_, rfl, _, ?_, execute_of_unprepared reason⟩
      rw [split]
      exact List.mem_append_right _ List.mem_cons_self
  | settled prepared reached joined =>
      have same := prepared.map_execute
      rcases (Batch.State.sound_of_reached reached).settles joined with
        ⟨outcomes, answer, each⟩ | ⟨failure, answer, job, member, failed⟩
      · exact .inl ⟨outcomes, answer, same.trans each⟩
      · refine .inr ⟨failure, answer, ?_⟩
        have listed : job.run .idle () ∈ configs.map (·.execute) :=
          same ▸ List.mem_map_of_mem member
        obtain ⟨config, present, executed⟩ := List.mem_map.mp listed
        exact ⟨config, present, executed.trans failed⟩

theorem prepares {done : List (Config α)} {jobs : List (Job α)} (prepared : Prepared done jobs)
    (earlier : List (Job α)) (rest : List (Config α)) :
    Relation.ReflTransGen Step (.preparing earlier (done ++ rest))
      (.preparing (earlier ++ jobs) rest) := by
  induction prepared generalizing earlier with
  | nil =>
      rw [List.append_nil]
      exact .refl
  | @cons _ job _ _ first _ ih =>
      have others := ih (earlier ++ [job])
      rw [← List.append_cons] at others
      exact .head (.prepare first) others

/-- Running the jobs one after the other is a schedule too. -/
theorem reached_executeAll (configs : List (Config α)) :
    Reached configs (.answered (executeAll configs)) := by
  rcases prepared_or_unprepared configs with ⟨jobs, prepared⟩ |
    ⟨before, config, after, jobs, failure, rfl, prepared, reason⟩
  · obtain ⟨state, reached, joined⟩ := Batch.exists_joined_separately jobs
    have ready := prepares prepared [] []
    rw [List.append_nil] at ready
    have work : Relation.ReflTransGen Step (running (.start jobs)) (running state) :=
      reached.lift running fun _ _ moved => .work moved
    rw [executeAll_of_prepared prepared]
    exact ((ready.tail .spawn).trans work).tail (.settle joined)
  · rw [executeAll_of_unprepared prepared reason]
    exact (prepares prepared [] (config :: after)).tail (.refuse (prepare_eq_error_iff.mpr reason))

/-- Once a configuration cannot be prepared, no worker starts and the answer is known. -/
theorem Sound.of_unprepared {before after : List (Config α)} {config : Config α}
    {jobs : List (Job α)} {failure : Failure α} (prepared : Prepared before jobs)
    (reason : config.Unprepared failure) (sound : phase.Sound (before ++ config :: after)) :
    (∀ state, phase ≠ .running state) ∧
      ∀ answer, phase = .answered answer → answer = .error failure := by
  have present : config ∈ before ++ config :: after :=
    List.mem_append_right _ List.mem_cons_self
  cases sound with
  | preparing =>
      constructor
      · rintro _ ⟨⟩
      · rintro _ ⟨⟩
  | running all => exact absurd reason (all.not_unprepared config present failure)
  | settled all => exact absurd reason (all.not_unprepared config present failure)
  | @refused _ later _ _ _ split others otherReason =>
      -- Both stop the preparation of one list, which fails in one way.
      have same := executeAll_of_unprepared others otherReason later
      rw [← split, executeAll_of_unprepared prepared reason after] at same
      constructor
      · rintro _ ⟨⟩
      · rintro _ ⟨⟩
        exact same.symm

end Phase

/-- However the workers are scheduled, executing configurations all together ends,
and what it answers agrees with executing each alone. It succeeds if and only if
each does, with their outcomes. The first that cannot be prepared keeps all
workers from starting and gives the failure it has alone; otherwise a failure is
that of one of the configurations alone. -/
theorem executeAll_agrees {configs : List (Config α)} {phase : Phase α}
    (reached : Phase.Reached configs phase) :
    (WellFounded fun next phase : Phase α => Phase.Step phase next) ∧
    ((∀ next, ¬Phase.Step phase next) ↔ ∃ answer, phase = .answered answer) ∧
    Phase.Reached configs (.answered (executeAll configs)) ∧
    ((∃ config ∈ configs, ∃ failure, config.Unprepared failure) →
      ∃ before config after failure, configs = before ++ config :: after ∧
        (∀ earlier ∈ before, ∀ other, ¬earlier.Unprepared other) ∧
        config.Unprepared failure ∧ config.execute = .error failure ∧
        (∀ state, phase ≠ .running state) ∧
        ∀ answer, phase = .answered answer → answer = .error failure) ∧
    ∀ answer, phase = .answered answer →
      ((∃ outcomes, answer = .ok outcomes) ↔
        ∀ config ∈ configs, ∃ outcome, config.execute = .ok outcome) ∧
      (∀ outcomes, answer = .ok outcomes → configs.map (·.execute) = outcomes.map .ok) ∧
      ∀ failure, answer = .error failure →
        ∃ config ∈ configs, config.execute = .error failure := by
  have sound := Phase.sound_of_reached reached
  refine ⟨Phase.step_wellFounded, Phase.stuck_iff_answered, Phase.reached_executeAll configs,
    ?_, ?_⟩
  · rintro ⟨bad, member, cause, badReason⟩
    rcases prepared_or_unprepared configs with ⟨jobs, prepared⟩ |
      ⟨before, config, after, jobs, failure, rfl, prepared, reason⟩
    · exact absurd badReason (prepared.not_unprepared bad member cause)
    · obtain ⟨unstarted, known⟩ := sound.of_unprepared prepared reason
      exact ⟨before, config, after, failure, rfl, prepared.not_unprepared, reason,
        execute_of_unprepared reason, unstarted, known⟩
  · rintro answer rfl
    rcases sound.answer_cases with ⟨outcomes, rfl, each⟩ | ⟨failure, rfl, bad, member, failed⟩
    · refine ⟨iff_of_true ⟨outcomes, rfl⟩ ?_, ?_, ?_⟩
      · intro config member
        obtain ⟨outcome, _, same⟩ := List.mem_map.mp (each ▸ List.mem_map_of_mem member)
        exact ⟨outcome, same.symm⟩
      · rintro _ ⟨⟩
        exact each
      · rintro _ ⟨⟩
    · refine ⟨iff_of_false ?_ ?_, ?_, ?_⟩
      · rintro ⟨_, ⟨⟩⟩
      · intro succeed
        obtain ⟨outcome, done⟩ := succeed bad member
        rw [failed] at done
        cases done
      · rintro _ ⟨⟩
      · rintro _ ⟨⟩
        exact ⟨bad, member, failed⟩

section TwoDays

/-- Agrees with the twelfth root at the rate one. -/
local instance yearlyRate : MonthlyGrowth ℚ := ⟨fun rate => rate⟩

/-- Its last day comes before the first. -/
def backwards : Config ℚ := { oneDay .usual with first := Forecast.firstOfMarch }

/-- The first configuration fails at the end of its run, and the second before
any run. Together the second failure is reported, and nothing has run. -/
theorem executeAll_agrees_backwards :
    ∃ early late : Failure ℚ, (oneDay ⟨-1, 99⟩).execute = .error late ∧
      backwards.execute = .error early ∧ early ≠ late ∧
      Phase.Reached [oneDay ⟨-1, 99⟩, backwards] (.answered (.error early)) ∧
      Phase.Reached [oneDay ⟨-1, 99⟩] (.answered (.error late)) := by
  obtain ⟨series, _, executed⟩ := execute_of_valid (oneDay_valid ⟨-1, 99⟩) .empty .empty
    growing_rat fun _ _ _ _ => rfl
  have negative : (oneDay ⟨-1, 99⟩).sla.Negative _ := .limit (by decide +kernel)
  rw [Summary.ofResults_of_refused (negative.evaluate rfl)] at executed
  have reversed : backwards.Unprepared (.ofDates Forecast.firstOfMarch Forecast.leapDay) :=
    .invalid rfl
  refine ⟨_, _, executed, execute_of_unprepared reversed, nofun, ?_, ?_⟩
  · have both := Phase.reached_executeAll [oneDay ⟨-1, 99⟩, backwards]
    obtain ⟨_, _, _, unprepared, _⟩ := executeAll_agrees both
    obtain ⟨before, config, after, failure, split, _, reason, failed, _, known⟩ :=
      unprepared ⟨backwards, by simp, _, reversed⟩
    have member : config ∈ [oneDay ⟨-1, 99⟩, backwards] := by simp [split]
    rcases List.mem_pair.mp member with rfl | rfl
    · have prepared : ∃ job, (oneDay ⟨-1, 99⟩).prepare = .ok job := ⟨_, rfl⟩
      rw [prepare_eq_error_iff.mpr reason] at prepared
      obtain ⟨_, ⟨⟩⟩ := prepared
    · rw [execute_of_unprepared reversed] at failed
      cases failed
      rwa [known _ rfl] at both
  · have single := Phase.reached_executeAll [oneDay ⟨-1, 99⟩]
    obtain ⟨_, _, _, _, answers⟩ := executeAll_agrees single
    obtain ⟨succeeds, _, failures⟩ := answers _ rfl
    cases answer : executeAll [oneDay ⟨-1, 99⟩] with
    | ok outcomes =>
        obtain ⟨outcome, done⟩ := succeeds.mp ⟨outcomes, answer⟩ _ List.mem_cons_self
        rw [executed] at done
        cases done
    | error failure =>
        obtain ⟨config, member, failed⟩ := failures failure answer
        cases List.mem_singleton.mp member
        rw [executed] at failed
        cases failed
        rwa [answer] at single

end TwoDays

end Config

end PipelineCapacity
