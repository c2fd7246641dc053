import Mathlib.Logic.Relation
import PipelineCapacity.Proofs.Run.Job

/-!
Batches under any schedule. Workers share one flag and move one at a time, in
any order: each starts its run, looks at the flag before every hour and ends;
ended workers are joined in any order, and joining a failed one sets the flag.

A worker that was never cancelled ends as its job does alone. A cancellation
needs the flag, and the flag a failure that was joined before it. The first of
these is no cancellation, so a batch whose jobs do not all succeed has a failure
of its own to report.
-/

set_option autoImplicit false

namespace PipelineCapacity

namespace Batch

variable {α : Type}

inductive Stage (α : Type) where
  | waiting
  | checking (progress : Progress α Unit) (completed : Nat) (rest : List (ForecastRow α))
  | stepping (progress : Progress α Unit) (completed : Nat) (row : ForecastRow α)
      (rest : List (ForecastRow α))
  | ended (result : Except (Failure α) (Outcome α))
  | joined (result : Except (Failure α) (Outcome α))

def Stage.result? : Stage α → Option (Except (Failure α) (Outcome α))
  | ended result | joined result => some result
  | _ => none

structure State (α : Type) where
  flag : Bool
  workers : List (Job α × Stage α)

namespace State

def start (jobs : List (Job α)) : State α := ⟨false, jobs.map fun job => (job, .waiting)⟩

/-- All workers have been joined, with these results. -/
def Joined (state : State α) (results : List (Except (Failure α) (Outcome α))) : Prop :=
  state.workers.map (·.2) = results.map .joined

end State

variable [Quantity α]

/-- What the worker of a job does next, with the flag before and after. -/
inductive Move (job : Job α) : Bool → Stage α → Bool → Stage α → Prop
  | refuse {flag : Bool} {row : ForecastRow α}
      (found : Pipeline.unacceptable? job.forecast = some row) :
      Move job flag .waiting flag
        (.ended (.error (.invalidParameter (.volumeAt row.slot row.hourlyVolume))))
  | start {flag : Bool} (acceptable : Pipeline.unacceptable? job.forecast = none) :
      Move job flag .waiting flag (.checking job.begun 0 job.forecast.rows)
  | cancel {progress : Progress α Unit} {completed : Nat} {row : ForecastRow α}
      {rest : List (ForecastRow α)} :
      Move job true (.checking progress completed (row :: rest)) true
        (.ended (.error (.cancelled completed)))
  | pass {progress : Progress α Unit} {completed : Nat} {row : ForecastRow α}
      {rest : List (ForecastRow α)} :
      Move job false (.checking progress completed (row :: rest)) false
        (.stepping progress completed row rest)
  | hour {flag : Bool} {progress : Progress α Unit} {completed : Nat} {row : ForecastRow α}
      {rest : List (ForecastRow α)} :
      Move job flag (.stepping progress completed row rest) flag
        (.checking (progress.hour .idle row) (completed + 1) rest)
  | finish {flag : Bool} {progress : Progress α Unit} {completed : Nat} :
      Move job flag (.checking progress completed []) flag
        (.ended (job.outcome (progress.finish .idle)))
  | joinOutcome {flag : Bool} {outcome : Outcome α} :
      Move job flag (.ended (.ok outcome)) flag (.joined (.ok outcome))
  | joinFailure {flag : Bool} {failure : Failure α} :
      Move job flag (.ended (.error failure)) true (.joined (.error failure))

inductive Step : State α → State α → Prop
  | move {before after : List (Job α × Stage α)} {job : Job α} {flag raised : Bool}
      {stage next : Stage α} (moved : Move job flag stage raised next) :
      Step ⟨flag, before ++ (job, stage) :: after⟩ ⟨raised, before ++ (job, next) :: after⟩

/-- States that some schedule leads to. -/
def Reached (jobs : List (Job α)) (state : State α) : Prop :=
  Relation.ReflTransGen Step (.start jobs) state

namespace Stage

/-- The worker ends, or is to end, as the job does alone, but for a cancellation. -/
def Faithful (job : Job α) : Stage α → Prop
  | waiting => True
  | checking progress _ rest =>
      job.outcome ((progress.pass .idle rest).finish .idle) = job.run .idle ()
  | stepping progress _ row rest =>
      job.outcome ((progress.pass .idle (row :: rest)).finish .idle) = job.run .idle ()
  | ended result | joined result =>
      result = job.run .idle () ∨ ∃ completed, result = .error (.cancelled completed)

omit [Quantity α] in
/-- Bounds the moves a worker has left. -/
def effort (job : Job α) : Stage α → Nat
  | waiting => 2 * job.forecast.rows.length + 3
  | checking _ _ rest => 2 * rest.length + 2
  | stepping _ _ _ rest => 2 * rest.length + 3
  | ended _ => 1
  | joined _ => 0

end Stage

namespace Move

variable {job : Job α} {flag raised : Bool} {stage next : Stage α}

theorem faithful (moved : Move job flag stage raised next) (faithful : stage.Faithful job) :
    next.Faithful job := by
  cases moved with
  | refuse found => exact .inl (Job.run_idle_of_unacceptable found).symm
  | start acceptable => exact (Job.run_idle_of_acceptable acceptable).symm
  | cancel => exact .inr ⟨_, rfl⟩
  | pass => exact faithful
  | hour => exact faithful
  | finish => exact .inl faithful
  | joinOutcome => exact faithful
  | joinFailure => exact faithful

theorem flag_kept (moved : Move job flag stage raised next) (set : flag = true) :
    raised = true := by
  cases moved with
  | cancel | joinFailure => rfl
  | _ => exact set

/-- Only joining a failed worker sets the flag. -/
theorem flag_raised (moved : Move job flag stage raised next) (unset : flag = false)
    (set : raised = true) :
    ∃ failure, stage = .ended (.error failure) ∧ next = .joined (.error failure) := by
  cases moved with
  | joinFailure => exact ⟨_, rfl, rfl⟩
  | cancel => cases unset
  | pass => cases set
  | _ =>
      rw [unset] at set
      cases set

theorem cancelled (moved : Move job flag stage raised next) (faithful : stage.Faithful job)
    {failure : Failure α} (result : next.result? = some (.error failure))
    (cancellation : failure.isCancelled = true) :
    flag = true ∨ stage.result? = some (.error failure) := by
  cases moved with
  | refuse found =>
      cases result
      cases cancellation
  | start acceptable => cases result
  | cancel => exact .inl rfl
  | pass => cases result
  | hour => cases result
  | finish =>
      have alone : job.run .idle () = .error failure :=
        faithful.symm.trans (Option.some.inj result)
      rw [Job.run_idle_not_cancelled alone] at cancellation
      cases cancellation
  | joinOutcome => exact .inr result
  | joinFailure => exact .inr result

theorem effort_lt (moved : Move job flag stage raised next) :
    next.effort job < stage.effort job := by
  cases moved with
  | cancel | pass | hour =>
      simp only [Stage.effort, List.length_cons]
      omega
  | _ =>
      simp only [Stage.effort]
      omega

theorem exists_of_not_joined (job : Job α) (flag : Bool) {stage : Stage α}
    (pending : ∀ result, stage ≠ .joined result) :
    ∃ raised next, Move job flag stage raised next := by
  cases stage with
  | waiting =>
      cases found : Pipeline.unacceptable? job.forecast with
      | some row => exact ⟨_, _, .refuse found⟩
      | none => exact ⟨_, _, .start found⟩
  | checking progress completed rest =>
      cases rest with
      | nil => exact ⟨_, _, .finish⟩
      | cons row rest =>
          cases flag with
          | true => exact ⟨_, _, .cancel⟩
          | false => exact ⟨_, _, .pass⟩
  | stepping progress completed row rest => exact ⟨_, _, .hour⟩
  | ended result =>
      cases result with
      | ok outcome => exact ⟨_, _, .joinOutcome⟩
      | error failure => exact ⟨_, _, .joinFailure⟩
  | joined result => exact absurd rfl (pending result)

end Move

namespace State

def OwnFailure (state : State α) : Prop :=
  ∃ worker ∈ state.workers, ∃ failure,
    worker.2 = .joined (.error failure) ∧ failure.isCancelled = false

structure Sound (jobs : List (Job α)) (state : State α) : Prop where
  jobs_eq : state.workers.map (·.1) = jobs
  faithful : ∀ worker ∈ state.workers, worker.2.Faithful worker.1
  raised : state.flag = true → state.OwnFailure
  cancelled : ∀ worker ∈ state.workers, ∀ failure,
    worker.2.result? = some (.error failure) → failure.isCancelled = true → state.flag = true

def effort (state : State α) : Nat := (state.workers.map fun worker => worker.2.effort worker.1).sum

variable {jobs : List (Job α)} {state next : State α}

theorem sound_start (jobs : List (Job α)) : (start jobs).Sound jobs := by
  refine ⟨?_, ?_, nofun, ?_⟩
  · simp [start, Function.comp_def]
  · intro worker member
    obtain ⟨job, _, rfl⟩ := List.mem_map.mp member
    trivial
  · intro worker member failure result
    obtain ⟨job, _, rfl⟩ := List.mem_map.mp member
    cases result

omit [Quantity α] in
theorem mem_replace {before after : List (Job α × Stage α)} {worker moved : Job α × Stage α}
    (other : Job α × Stage α) (member : worker ∈ before ++ moved :: after) :
    worker = moved ∨ worker ∈ before ++ other :: after := by
  simp only [List.mem_append, List.mem_cons] at member ⊢
  tauto

theorem Sound.step (sound : state.Sound jobs) (step : Step state next) : next.Sound jobs := by
  obtain @⟨before, after, job, flag, raised, stage, next, moved⟩ := step
  have present : (job, stage) ∈ before ++ (job, stage) :: after := by simp
  have faithful := sound.faithful _ present
  refine ⟨?_, ?_, ?_, ?_⟩
  · rw [← sound.jobs_eq]
    simp
  · intro worker member
    rcases mem_replace (job, stage) member with rfl | old
    · exact moved.faithful faithful
    · exact sound.faithful worker old
  · intro set
    cases known : flag with
    | false =>
        obtain ⟨failure, rfl, rfl⟩ := moved.flag_raised known set
        -- The first failure to be joined: a cancellation would have needed the flag.
        refine ⟨(job, .joined (.error failure)), by simp, failure, rfl, ?_⟩
        by_contra cancellation
        have early := sound.cancelled _ present failure rfl (by simpa using cancellation)
        exact Bool.false_ne_true (known.symm.trans early)
    | true =>
        obtain ⟨worker, member, failure, joined, own⟩ := sound.raised known
        refine ⟨worker, ?_, failure, joined, own⟩
        rcases mem_replace (job, next) member with rfl | kept
        · cases joined
          cases moved
        · exact kept
  · intro worker member failure result cancellation
    rcases mem_replace (job, stage) member with rfl | old
    · rcases moved.cancelled faithful result cancellation with set | earlier
      · exact moved.flag_kept set
      · exact moved.flag_kept (sound.cancelled _ present failure earlier cancellation)
    · exact moved.flag_kept (sound.cancelled worker old failure result cancellation)

theorem sound_of_reached (reached : Reached jobs state) : state.Sound jobs := by
  induction reached with
  | refl => exact sound_start jobs
  | tail _ step ih => exact ih.step step

theorem effort_lt_of_step (step : Step state next) : next.effort < state.effort := by
  obtain ⟨moved⟩ := step
  have less := moved.effort_lt
  simp only [effort, List.map_append, List.map_cons, List.sum_append, List.sum_cons]
  omega

omit [Quantity α] in
theorem exists_joined {workers : List (Job α × Stage α)}
    (all : ∀ worker ∈ workers, ∃ result, worker.2 = .joined result) :
    ∃ results : List (Except (Failure α) (Outcome α)),
      workers.map (·.2) = results.map .joined := by
  induction workers with
  | nil => exact ⟨[], rfl⟩
  | cons worker rest ih =>
      obtain ⟨result, joined⟩ := all worker List.mem_cons_self
      obtain ⟨results, others⟩ := ih fun other member => all other (List.mem_cons_of_mem _ member)
      exact ⟨result :: results, by rw [List.map_cons, joined, others, List.map_cons]⟩

/-- A batch goes on until all its workers have been joined. -/
theorem stuck_iff_joined : (∀ next, ¬Step state next) ↔ ∃ results, state.Joined results := by
  constructor
  · intro stuck
    apply exists_joined
    intro worker member
    by_contra pending
    obtain ⟨before, after, split⟩ := List.append_of_mem member
    obtain ⟨raised, next, moved⟩ := Move.exists_of_not_joined worker.1 state.flag
      (not_exists.mp pending)
    have step : Step ⟨state.flag, before ++ worker :: after⟩ _ := .move moved
    rw [← split] at step
    exact stuck _ step
  · rintro ⟨results, joined⟩ next ⟨moved⟩
    obtain ⟨result, _, last⟩ := List.mem_map.mp (joined ▸ List.mem_map_of_mem
      (List.mem_append_right _ List.mem_cons_self))
    subst last
    cases moved

variable {results : List (Except (Failure α) (Outcome α))}

omit [Quantity α] in
theorem Joined.exists_worker (joined : state.Joined results)
    {result : Except (Failure α) (Outcome α)} (member : result ∈ results) :
    ∃ worker ∈ state.workers, worker.2 = .joined result :=
  List.mem_map.mp (joined ▸ List.mem_map_of_mem member)

/-- Short of a cancellation, a worker was joined with the result of its job alone. -/
theorem Sound.alone (sound : state.Sound jobs) {worker : Job α × Stage α}
    (member : worker ∈ state.workers) {result : Except (Failure α) (Outcome α)}
    (joined : worker.2 = .joined result)
    (kept : ∀ failure, result = .error failure → failure.isCancelled = false) :
    worker.1.run .idle () = result := by
  have faithful := sound.faithful worker member
  rw [joined] at faithful
  rcases faithful with same | ⟨completed, cancelled⟩
  · exact same.symm
  · cases kept _ cancelled

theorem Sound.exists_own_failure (sound : state.Sound jobs) (joined : state.Joined results)
    {failure : Failure α} (member : .error failure ∈ results)
    (cancellation : failure.isCancelled = true) :
    ∃ own, .error own ∈ results ∧ own.isCancelled = false := by
  obtain ⟨worker, present, ended⟩ := joined.exists_worker member
  have set := sound.cancelled worker present failure (by rw [ended]; rfl) cancellation
  obtain ⟨cause, listed, own, last, reason⟩ := sound.raised set
  obtain ⟨result, found, same⟩ := List.mem_map.mp (joined ▸ List.mem_map_of_mem listed)
  rw [last] at same
  cases same
  exact ⟨own, found, reason⟩

theorem Sound.jobs_eq_results (sound : state.Sound jobs) {outcomes : List (Outcome α)}
    (joined : state.Joined (outcomes.map .ok)) :
    jobs.map (·.run .idle ()) = outcomes.map .ok := by
  have each : ∀ worker ∈ state.workers, worker.2 = .joined (worker.1.run .idle ()) := by
    intro worker member
    obtain ⟨result, listed, last⟩ := List.mem_map.mp (joined ▸ List.mem_map_of_mem member)
    obtain ⟨outcome, _, rfl⟩ := List.mem_map.mp listed
    have alone : worker.1.run .idle () = .ok outcome := by
      apply sound.alone member last.symm
      intro failure impossible
      cases impossible
    rw [alone]
    exact last.symm
  have stages := List.map_congr_left each
  rw [joined, ← Function.comp_def Stage.joined, ← List.map_map] at stages
  rw [← sound.jobs_eq, List.map_map]
  exact (List.map_injective_iff.mpr (fun _ _ => Stage.joined.inj) stages).symm

/-- A schedule without failures gives what the jobs give one after the other. -/
theorem Sound.run_eq (sound : state.Sound jobs) {outcomes : List (Outcome α)}
    (joined : state.Joined (outcomes.map .ok)) :
    Batch.run jobs .idle () (fun _ => false) = .ok outcomes := by
  unfold Batch.run
  simp only [Job.work_unbroken]
  rw [sound.jobs_eq_results joined, settle_map_ok]

/-- The first failure of a cause of its own stands with its worker. -/
theorem Sound.exists_first (sound : state.Sound jobs) {failure : Failure α}
    {before after : List (Except (Failure α) (Outcome α))}
    (joined : state.Joined (before ++ .error failure :: after))
    (own : failure.isCancelled = false)
    (first : ∀ other, .error other ∈ before → other.isCancelled = true) :
    ∃ early job late,
      state.workers = early ++ (job, .joined (.error failure)) :: late ∧
      job ∈ jobs ∧ job.run .idle () = .error failure ∧
      ∀ worker ∈ early, ∀ other, worker.2 = .joined (.error other) →
        other.isCancelled = true := by
  have stages : state.workers.map (·.2) =
      before.map .joined ++ .joined (.error failure) :: after.map .joined := by
    rw [joined, List.map_append, List.map_cons]
  obtain ⟨early, rest, split, earlyStages, restStages⟩ := List.map_eq_append_iff.mp stages
  obtain ⟨⟨job, stage⟩, late, rfl, last, _⟩ := List.map_eq_cons_iff.mp restStages
  subst last
  have member : (job, Stage.joined (.error failure)) ∈ state.workers := by simp [split]
  refine ⟨early, job, late, split, ?_, sound.alone member rfl ?_, ?_⟩
  · rw [← sound.jobs_eq]
    exact List.mem_map_of_mem member
  · intro cause same
    cases same
    exact own
  · intro worker present other ended
    obtain ⟨result, listed, same⟩ := List.mem_map.mp (earlyStages ▸ List.mem_map_of_mem present)
    rw [ended] at same
    cases same
    exact first other listed

end State

/-- Every schedule of a batch comes to an end, and only with all workers joined.
The batch then succeeds if and only if every job does alone, with the outcomes
these have. Otherwise it fails as some job does alone: the first that failed and
was not cancelled. -/
theorem schedule_settles {jobs : List (Job α)} {state : State α} (reached : Reached jobs state) :
    (WellFounded fun next state : State α => Step state next) ∧
    state.workers.map (·.1) = jobs ∧
    ((∀ next, ¬Step state next) ↔ ∃ results, state.Joined results) ∧
    ∀ results, state.Joined results →
      ((∃ outcomes, settle results = .ok outcomes) ↔
        ∀ job ∈ jobs, ∃ outcome, job.run .idle () = .ok outcome) ∧
      (∀ outcomes, settle results = .ok outcomes →
        jobs.map (·.run .idle ()) = outcomes.map .ok) ∧
      ∀ failure, settle results = .error failure →
        failure.isCancelled = false ∧
        ∃ before job after,
          state.workers = before ++ (job, .joined (.error failure)) :: after ∧
          job ∈ jobs ∧ job.run .idle () = .error failure ∧
          ∀ worker ∈ before, ∀ other, worker.2 = .joined (.error other) →
            other.isCancelled = true := by
  have sound := State.sound_of_reached reached
  refine ⟨(measure State.effort).wf.mono fun _ _ => State.effort_lt_of_step, sound.jobs_eq,
    State.stuck_iff_joined, ?_⟩
  intro results joined
  rcases settle_cases results with ⟨outcomes, rfl, answer⟩ |
    ⟨failure, before, after, rfl, own, first, answer⟩ | ⟨failure, member, all, _⟩
  · have alone := sound.jobs_eq_results joined
    rw [answer]
    refine ⟨iff_of_true ⟨outcomes, rfl⟩ ?_, ?_, ?_⟩
    · intro job member
      obtain ⟨outcome, _, same⟩ := List.mem_map.mp (alone ▸ List.mem_map_of_mem member)
      exact ⟨outcome, same.symm⟩
    · rintro _ ⟨⟩
      exact alone
    · rintro _ ⟨⟩
  · have found := sound.exists_first joined own first
    have ⟨_, job, _, _, member, failed, _⟩ := found
    rw [answer]
    refine ⟨iff_of_false ?_ ?_, ?_, ?_⟩
    · rintro ⟨_, ⟨⟩⟩
    · intro succeed
      obtain ⟨outcome, same⟩ := succeed job member
      rw [failed] at same
      cases same
    · rintro _ ⟨⟩
    · rintro _ ⟨⟩
      exact ⟨own, found⟩
  · -- Only cancellations: the first of them needed the flag, so another failure.
    obtain ⟨own, listed, reason⟩ := sound.exists_own_failure joined member (all _ member)
    rw [all _ listed] at reason
    cases reason

def rushJob : Job ℚ := ⟨"rush", Pipeline.rush, (ModelParams.autoscaling .eager).fresh, .usual⟩

/-- A job over a forecast no run accepts. -/
def brokenJob : Job ℚ :=
  { rushJob with name := "broken", forecast := ⟨[⟨⟨2025, 1, 1, .wed, 0⟩, -1, -1, -1⟩]⟩ }

def brokenFailure : Failure ℚ := .invalidParameter (.volumeAt ⟨2025, 1, 1, .wed, 0⟩ (-1))

def rushAndBroken (flag : Bool) (rush broken : Stage ℚ) : State ℚ :=
  ⟨flag, [(rushJob, rush), (brokenJob, broken)]⟩

/-- The second job fails and is joined before the first looks at the flag. -/
theorem schedule_settles_overtaken :
    ∃ state : State ℚ, Reached [rushJob, brokenJob] state ∧
      ∃ results, state.Joined results ∧
        results.head? = some (.error (.cancelled 0)) ∧
        settle results = .error brokenFailure ∧ brokenFailure.isCancelled = false ∧
        ∃ job ∈ [rushJob, brokenJob], job.run .idle () = .error brokenFailure := by
  have first {flag raised : Bool} {stage next : Stage ℚ} (other : Stage ℚ)
      (moved : Move rushJob flag stage raised next) :
      Step (rushAndBroken flag stage other) (rushAndBroken raised next other) :=
    @Step.move ℚ _ [] [(brokenJob, other)] _ _ _ _ _ moved
  have second {flag raised : Bool} {stage next : Stage ℚ} (other : Stage ℚ)
      (moved : Move brokenJob flag stage raised next) :
      Step (rushAndBroken flag other stage) (rushAndBroken raised other next) :=
    @Step.move ℚ _ [(rushJob, other)] [] _ _ _ _ _ moved
  have broken : Pipeline.unacceptable? brokenJob.forecast =
      some ⟨⟨2025, 1, 1, .wed, 0⟩, -1, -1, -1⟩ := rfl
  have calm : Pipeline.unacceptable? rushJob.forecast = none := by decide
  have refused : Reached [rushJob, brokenJob]
      (rushAndBroken false .waiting (.ended (.error brokenFailure))) :=
    .single (second .waiting (.refuse broken))
  have raised : Reached [rushJob, brokenJob]
      (rushAndBroken true .waiting (.joined (.error brokenFailure))) :=
    refused.tail (second .waiting .joinFailure)
  have cancelled : Reached [rushJob, brokenJob]
      (rushAndBroken true (.ended (.error (.cancelled 0))) (.joined (.error brokenFailure))) :=
    (raised.tail (first _ (.start calm))).tail (first _ .cancel)
  have reached : Reached [rushJob, brokenJob]
      (rushAndBroken true (.joined (.error (.cancelled 0))) (.joined (.error brokenFailure))) :=
    cancelled.tail (first _ .joinFailure)
  have complete : State.Joined
      (rushAndBroken true (.joined (.error (.cancelled 0))) (.joined (.error brokenFailure)))
      [.error (.cancelled 0), .error brokenFailure] := rfl
  obtain ⟨_, _, _, answers⟩ := schedule_settles reached
  obtain ⟨_, _, failures⟩ := answers _ complete
  obtain ⟨own, _, job, _, _, member, alone, _⟩ := failures brokenFailure rfl
  exact ⟨_, reached, _, complete, rfl, rfl, own, job, member, alone⟩

end Batch

end PipelineCapacity
