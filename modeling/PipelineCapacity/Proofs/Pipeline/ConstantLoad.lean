import Mathlib.Data.Nat.SuccPred
import PipelineCapacity.Proofs.Pipeline.Params
import PipelineCapacity.Proofs.Pipeline.Steps
import PipelineCapacity.Proofs.Scaling.History

/-!
The hourly pipeline under a constant load, in exact arithmetic.

Until the first step down, an hour with idle capacity has served all there was,
and since the last action idle capacity stays idle. A step down averages over
hours since the last action, so one of them had more than half of its capacity
idle: the backlog is gone, and one unit less still serves the load below the
percentage for going up. From there every hour serves exactly its load.
-/

set_option autoImplicit false

namespace PipelineCapacity

open Scaler (sinceAction UpDue DownDue)

structure AutoscalingParams.Damped (params : AutoscalingParams ℚ) : Prop where
  rate_pos : 0 < params.base.maxRate
  upPercent_pos : 0 < params.rule.upPercent
  upPercent_le : params.rule.upPercent ≤ 100
  downPercent_le : params.rule.downPercent ≤ params.rule.upPercent / 2

namespace AutoscalingParams.Damped

variable {params : AutoscalingParams ℚ} {units : Nat}

theorem up_le_capacity (damped : params.Damped) (units : Nat) :
    params.base.maxRate * units * params.rule.upPercent / 100 ≤ params.base.maxRate * units := by
  have capacity : 0 ≤ params.base.maxRate * units :=
    mul_nonneg damped.rate_pos.le (Nat.cast_nonneg units)
  have scaled := mul_le_mul_of_nonneg_left damped.upPercent_le capacity
  rw [div_le_iff₀ (by norm_num)]
  exact scaled

theorem down_lt_capacity (damped : params.Damped) (several : 1 ≤ units) :
    params.base.maxRate * units * params.rule.downPercent / 100 <
      params.base.maxRate * units := by
  have capacity : 0 < params.base.maxRate * units :=
    mul_pos damped.rate_pos (Nat.cast_pos.mpr several)
  have half : params.rule.downPercent < 100 := by
    have small := damped.downPercent_le
    have whole := damped.upPercent_le
    linarith
  rw [div_lt_iff₀ (by norm_num)]
  exact mul_lt_mul_of_pos_left half capacity

/-- A load below the percentage for going down is below that for going up with
one unit less. -/
theorem le_up_of_lt_down (damped : params.Damped) (several : 1 < units) {volume : ℚ}
    (low : volume < params.base.maxRate * units * params.rule.downPercent / 100) :
    volume ≤ params.base.maxRate * (units - 1 : Nat) * params.rule.upPercent / 100 := by
  have rate_nonneg := damped.rate_pos.le
  have capacity : 0 ≤ params.base.maxRate * units := mul_nonneg rate_nonneg (Nat.cast_nonneg units)
  have halved : params.base.maxRate * units * params.rule.downPercent ≤
      params.base.maxRate * params.rule.upPercent * (units / 2) := by
    have scaled := mul_le_mul_of_nonneg_left damped.downPercent_le capacity
    linarith
  have fewer : (units : ℚ) / 2 ≤ (units - 1 : Nat) := by
    have two : (2 : ℚ) ≤ units := Nat.ofNat_le_cast.mpr several
    rw [Nat.cast_sub several.le, Nat.cast_one]
    linarith
  have kept := mul_le_mul_of_nonneg_left fewer (mul_nonneg rate_nonneg damped.upPercent_pos.le)
  rw [lt_div_iff₀ (by norm_num)] at low
  rw [le_div_iff₀ (by norm_num)]
  linarith

end AutoscalingParams.Damped

namespace AutoscalingModel

section

variable {α : Type} [Quantity α]

/-- What the scaler answers to an hour. -/
def decision (model : AutoscalingModel α) (volume : α) : Direction :=
  (model.scaler.observe (model.step volume).1.throughput model.params.base.maxRate).1

def afterHours (model : AutoscalingModel α) (volume : α) : Nat → AutoscalingModel α
  | 0 => model
  | hours + 1 => ((model.afterHours volume hours).step volume).2

theorem reached_afterHours {params : ModelParams α} {model : AutoscalingModel α}
    (reached : Pipeline.Reached params (.autoscaling model)) (volume : α) (hours : Nat) :
    Pipeline.Reached params (.autoscaling (model.afterHours volume hours)) := by
  induction hours with
  | zero => exact reached
  | succ hours ih => exact ih.step volume

end

/-- A damped pipeline whose scaler is where the calls of the log have led it. -/
structure Logged (model : AutoscalingModel ℚ) (log : List (Scaler.Entry ℚ)) : Prop where
  damped : model.params.Damped
  follows : model.scaler.Follows model.params.rule log
  exactSums : model.scaler.Exact

section

variable {model : AutoscalingModel ℚ} {log : List (Scaler.Entry ℚ)} {volume : ℚ}

def entry (model : AutoscalingModel ℚ) (volume : ℚ) : Scaler.Entry ℚ :=
  .observed (model.step volume).1.throughput (model.decision volume)

theorem step_throughput (model : AutoscalingModel ℚ) (volume : ℚ) :
    (model.step volume).1.throughput =
      Min.min (model.queue.backlog + volume) (model.params.base.maxRate * model.scaler.units) :=
  Queue.advance_throughput _ _

theorem step_backlog (model : AutoscalingModel ℚ) (volume : ℚ) :
    (model.step volume).2.queue.backlog =
      Max.max (model.queue.backlog + volume - model.params.base.maxRate * model.scaler.units) 0 :=
  Queue.advance_backlog _ _

theorem Logged.step (logged : model.Logged log) (volume : ℚ) :
    (model.step volume).2.Logged (model.entry volume :: log) :=
  { damped := logged.damped
    follows := logged.follows.observe _ _
    exactSums := logged.exactSums.observe _ _ }

theorem Logged.upDue (logged : model.Logged log) (up : model.decision volume = .up) :
    UpDue model.params.rule log model.scaler.units (model.step volume).1.throughput
      model.params.base.maxRate :=
  (Scaler.observe_answer logged.follows logged.exactSums _ _).1.mp up

theorem Logged.downDue (logged : model.Logged log) (down : model.decision volume = .down) :
    DownDue model.params.rule log model.scaler.units (model.step volume).1.throughput
      model.params.base.maxRate :=
  ((Scaler.observe_answer logged.follows logged.exactSums _ _).2.1.mp down).2

theorem Logged.units_step (logged : model.Logged log) (volume : ℚ) :
    (model.step volume).2.scaler.units = Scaler.unitsAfter
      (.observed (model.step volume).1.throughput (model.decision volume) :: log) :=
  (logged.step volume).follows.units

theorem Logged.le_units_of_up (logged : model.Logged log) (up : model.decision volume = .up) :
    model.scaler.units ≤ (model.step volume).2.scaler.units := by
  rw [logged.units_step volume, up, logged.follows.units]
  exact Scaler.unitsAfter_le_up _ log

theorem Logged.units_of_down (logged : model.Logged log) (down : model.decision volume = .down) :
    (model.step volume).2.scaler.units = model.scaler.units - 1 := by
  rw [logged.units_step volume, down, logged.follows.units]
  rfl

theorem Logged.units_of_maintain (logged : model.Logged log)
    (kept : model.decision volume = .maintain) :
    (model.step volume).2.scaler.units = model.scaler.units := by
  rw [logged.units_step volume, kept, logged.follows.units]
  rfl

/-- Before the first step down: since the last action, an hour with idle
capacity has left no backlog and served the whole load. -/
structure Climbing (model : AutoscalingModel ℚ) (volume : ℚ) (log : List (Scaler.Entry ℚ)) : Prop
    extends Logged model log where
  waiting : 0 ≤ model.queue.backlog
  slack : ∀ served ∈ sinceAction log,
    served < model.params.base.maxRate * model.scaler.units →
      model.queue.backlog = 0 ∧ volume ≤ served

theorem Climbing.slack_step (climbing : model.Climbing volume log) :
    ∀ served ∈ (model.step volume).1.throughput :: sinceAction log,
      served < model.params.base.maxRate * model.scaler.units →
        (model.step volume).2.queue.backlog = 0 ∧ volume ≤ served := by
  intro served member idle
  rw [step_backlog]
  -- An idle hour now has served its whole load; one before it has served this load too.
  rcases List.mem_cons.mp member with now | before
  · rw [now, step_throughput] at idle ⊢
    have enough : model.queue.backlog + volume <
        model.params.base.maxRate * model.scaler.units :=
      (min_lt_iff.mp idle).resolve_right (lt_irrefl _)
    have waiting := climbing.waiting
    rw [max_eq_right (sub_nonpos.mpr enough.le), min_eq_left enough.le]
    exact ⟨rfl, by linarith⟩
  · obtain ⟨emptied, covered⟩ := climbing.slack served before idle
    rw [emptied, zero_add]
    exact ⟨max_eq_right (sub_nonpos.mpr (covered.trans idle.le)), covered⟩

theorem Climbing.step (climbing : model.Climbing volume log)
    (steady : model.decision volume ≠ .down) :
    (model.step volume).2.Climbing volume (model.entry volume :: log) ∧
      model.scaler.units ≤ (model.step volume).2.scaler.units := by
  have logged := climbing.toLogged
  constructor
  · refine ⟨logged.step volume, Queue.advance_backlog_nonneg _ _, ?_⟩
    intro served member idle
    obtain ⟨kept, present⟩ := Scaler.mem_sinceAction_observed member
    rw [logged.units_of_maintain kept] at idle
    exact climbing.slack_step served present idle
  · cases answer : model.decision volume with
    | up => exact logged.le_units_of_up answer
    | down => exact absurd answer steady
    | maintain => exact (logged.units_of_maintain answer).ge

/-- After the first step down: no backlog, a load below the percentage for going
up, and nothing else served since the last action. -/
structure Settled (model : AutoscalingModel ℚ) (volume : ℚ) (log : List (Scaler.Entry ℚ)) : Prop
    extends Logged model log where
  drained : model.queue.backlog = 0
  below : volume ≤
    model.params.base.maxRate * model.scaler.units * model.params.rule.upPercent / 100
  flat : ∀ served ∈ sinceAction log, served = volume

theorem Climbing.turn (climbing : model.Climbing volume log)
    (down : model.decision volume = .down) :
    (model.step volume).2.Settled volume (model.entry volume :: log) ∧
      (model.step volume).2.scaler.units ≤ model.scaler.units := by
  have units := climbing.toLogged.units_of_down down
  have due := climbing.toLogged.downDue down
  obtain ⟨served, member, low⟩ := due.exists_lt
  have idle := low.trans (climbing.damped.down_lt_capacity climbing.follows.units_pos)
  obtain ⟨drained, covered⟩ := climbing.slack_step served member idle
  constructor
  · refine ⟨climbing.toLogged.step volume, drained, ?_, ?_⟩
    · rw [units]
      exact climbing.damped.le_up_of_lt_down due.2.2 (covered.trans_lt low)
    · intro served kept
      have maintained := (Scaler.mem_sinceAction_observed kept).1
      rw [down] at maintained
      cases maintained
  · rw [units]
    exact Nat.sub_le _ 1

theorem Settled.flat_step (settled : model.Settled volume log) :
    (model.step volume).2.queue.backlog = 0 ∧
      ∀ served ∈ (model.step volume).1.throughput :: sinceAction log, served = volume := by
  have fits : volume ≤ model.params.base.maxRate * model.scaler.units :=
    settled.below.trans (settled.damped.up_le_capacity _)
  rw [step_backlog, step_throughput, settled.drained, zero_add, min_eq_left fits]
  refine ⟨max_eq_right (sub_nonpos.mpr fits), ?_⟩
  intro served member
  rcases List.mem_cons.mp member with now | before
  · exact now
  · exact settled.flat served before

theorem Settled.not_up (settled : model.Settled volume log) : model.decision volume ≠ .up := by
  intro up
  obtain ⟨served, member, high⟩ := (settled.toLogged.upDue up).exists_gt
  rw [settled.flat_step.2 served member] at high
  exact absurd settled.below (not_le.mpr high)

theorem Settled.step (settled : model.Settled volume log) :
    (model.step volume).2.Settled volume (model.entry volume :: log) ∧
      (model.step volume).2.scaler.units ≤ model.scaler.units := by
  have logged := settled.toLogged
  obtain ⟨drained, flat⟩ := settled.flat_step
  have flatNext : ∀ served ∈ sinceAction (model.entry volume :: log), served = volume := by
    intro served member
    exact flat served (Scaler.mem_sinceAction_observed member).2
  cases answer : model.decision volume with
  | up => exact absurd answer settled.not_up
  | down =>
      have units := logged.units_of_down answer
      have due := logged.downDue answer
      obtain ⟨served, member, low⟩ := due.exists_lt
      rw [flat served member] at low
      refine ⟨⟨logged.step volume, drained, ?_, flatNext⟩, ?_⟩
      · rw [units]
        exact settled.damped.le_up_of_lt_down due.2.2 low
      · rw [units]
        exact Nat.sub_le _ 1
  | maintain =>
      have units := logged.units_of_maintain answer
      refine ⟨⟨logged.step volume, drained, ?_, flatNext⟩, units.le⟩
      rw [units]
      exact settled.below

/-- A run that climbs up to one hour and never after it. -/
structure Turns (start : AutoscalingModel ℚ) (volume : ℚ) (turn length : Nat) : Prop where
  within : turn ≤ length
  climbs : ∀ hour < turn,
    (start.afterHours volume hour).decision volume ≠ .down ∧
      (start.afterHours volume hour).scaler.units ≤
        (start.afterHours volume (hour + 1)).scaler.units
  settles : ∀ hour, turn ≤ hour → hour < length →
    (start.afterHours volume hour).decision volume ≠ .up ∧
      (start.afterHours volume (hour + 1)).scaler.units ≤
        (start.afterHours volume hour).scaler.units

theorem Climbing.exists_turn {start : AutoscalingModel ℚ} (climbing : start.Climbing volume log)
    (length : Nat) :
    ∃ turn, start.Turns volume turn length ∧
      ((turn = length ∧ ∃ later, (start.afterHours volume length).Climbing volume later) ∨
        ∃ later, (start.afterHours volume length).Settled volume later) := by
  -- While the run climbs its end is the turn; the first step down fixes it.
  induction length with
  | zero =>
      refine ⟨0, ⟨Nat.le_refl 0, ?_, ?_⟩, .inl ⟨rfl, log, climbing⟩⟩
      · intro hour before
        exact absurd before (Nat.not_lt_zero hour)
      · intro hour _ before
        exact absurd before (Nat.not_lt_zero hour)
  | succ length ih =>
      obtain ⟨turn, turns, ⟨atEnd, later, phase⟩ | ⟨later, phase⟩⟩ := ih
      · subst turn
        by_cases down : (start.afterHours volume length).decision volume = .down
        · obtain ⟨settled, fewer⟩ := phase.turn down
          refine ⟨length, ⟨Nat.le_succ length, turns.climbs, ?_⟩, .inr ⟨_, settled⟩⟩
          intro hour reached before
          have now : hour = length := by omega
          rw [now, down]
          exact ⟨by decide, fewer⟩
        · obtain ⟨next, more⟩ := phase.step down
          refine ⟨length + 1, ⟨Nat.le_refl _, ?_, ?_⟩, .inl ⟨rfl, _, next⟩⟩
          · intro hour before
            rcases Nat.lt_succ_iff_lt_or_eq.mp before with early | now
            · exact turns.climbs hour early
            · rw [now]
              exact ⟨down, more⟩
          · intro hour reached before
            omega
      · obtain ⟨next, fewer⟩ := phase.step
        have within := turns.within
        refine ⟨turn, ⟨by omega, turns.climbs, ?_⟩, .inr ⟨_, next⟩⟩
        intro hour reached before
        rcases Nat.lt_succ_iff_lt_or_eq.mp before with early | now
        · exact turns.settles hour reached early
        · rw [now]
          exact ⟨phase.not_up, fewer⟩

theorem Turns.monotoneOn {start : AutoscalingModel ℚ} {turn length : Nat}
    (turns : start.Turns volume turn length) :
    MonotoneOn (fun hour => (start.afterHours volume hour).scaler.units) (Set.Iic turn) := by
  apply monotoneOn_of_le_succ Set.ordConnected_Iic
  intro hour _ _ before
  exact (turns.climbs hour before).2

theorem Turns.antitoneOn {start : AutoscalingModel ℚ} {turn length : Nat}
    (turns : start.Turns volume turn length) :
    AntitoneOn (fun hour => (start.afterHours volume hour).scaler.units)
      (Set.Icc turn length) := by
  apply antitoneOn_of_succ_le Set.ordConnected_Icc
  intro hour _ reached before
  exact (turns.settles hour reached.1 before.2).2

end

end AutoscalingModel

theorem AutoscalingParams.damped {params : AutoscalingParams ℚ} (valid : params.validate = .ok ())
    (up : params.rule.upPercent ≤ 100)
    (down : params.rule.downPercent ≤ params.rule.upPercent / 2) : params.Damped := by
  obtain ⟨base, _, upPercent_pos, _⟩ := validate_eq_ok_iff.mp valid
  exact ⟨(SimpleParams.validate_eq_ok_iff.mp base).1, upPercent_pos, up, down⟩

theorem Pipeline.Reached.logged {params : AutoscalingParams ℚ} (damped : params.Damped)
    {pipeline : Pipeline ℚ} (reached : Reached (.autoscaling params) pipeline) :
    ∃ model log, pipeline = .autoscaling model ∧ model.params = params ∧ model.Logged log ∧
      0 ≤ model.queue.backlog := by
  induction reached with
  | new created =>
      refine ⟨_, [], eq_fresh_of_ofParams created, rfl, ?_, Quantity.zero_rat.ge⟩
      exact ⟨damped, Scaler.follows_ofRule _, Scaler.exact_ofRule _⟩
  | step _ volume ih =>
      obtain ⟨model, log, rfl, same, logged, _⟩ := ih
      exact ⟨_, _, rfl, same, logged.step volume, Queue.advance_backlog_nonneg _ _⟩
  | reset _ ih =>
      obtain ⟨model, log, rfl, same, logged, _⟩ := ih
      exact ⟨model.reset, _, rfl, same, ⟨logged.damped, logged.follows.reset,
        Scaler.exact_reset _⟩, Quantity.zero_rat.ge⟩

namespace AutoscalingModel

/-- From any state right after an action or a reset, whatever backlog it left,
a constant load turns at most once. -/
theorem exists_turn_of_since_eq_zero {params : AutoscalingParams ℚ} (damped : params.Damped)
    {start : AutoscalingModel ℚ}
    (reached : Pipeline.Reached (.autoscaling params) (.autoscaling start))
    (acted : start.scaler.since = 0) (volume : ℚ) (length : Nat) :
    ∃ turn, start.Turns volume turn length := by
  obtain ⟨model, log, same, _, logged, waiting⟩ := reached.logged damped
  cases same
  have none : sinceAction log = [] := by
    apply List.eq_nil_of_length_eq_zero
    rw [← logged.follows.since, acted]
  have climbing : start.Climbing volume log := by
    refine ⟨logged, waiting, ?_⟩
    rw [none]
    intro served absent
    cases absent
  obtain ⟨turn, turns, _⟩ := climbing.exists_turn length
  exact ⟨turn, turns⟩

/-- Three hours of four units' load on a new pipeline, the last of them just
scaled up. -/
def busy : AutoscalingModel ℚ :=
  AutoscalingModel.afterHours
    { params := .eager
      queue := .empty
      scaler := .ofRule AutoscalingParams.eager.rule
      totalCost := Quantity.zero }
    14400 3

theorem busy_reached : Pipeline.Reached (.autoscaling .eager) (.autoscaling busy) := by
  have valid : (ModelParams.autoscaling .eager).validate = .ok () := AutoscalingParams.eager_valid
  exact reached_afterHours (.new (Pipeline.ofParams_of_valid valid)) 14400 3

/-- The backlog takes one unit more before the load of one unit takes three less. -/
example : (List.range 7).map (fun hour => (busy.afterHours 3600 hour).scaler.units) =
    [4, 5, 5, 4, 3, 2, 2] := by
  decide +kernel

/-- A reset pipeline under a constant load never scales up after it has scaled
down: its units rise up to some hour and fall from there on. -/
theorem reset_turns_once {params : AutoscalingParams ℚ} (valid : params.validate = .ok ())
    (up : params.rule.upPercent ≤ 100)
    (down : params.rule.downPercent ≤ params.rule.upPercent / 2)
    {used : AutoscalingModel ℚ}
    (reached : Pipeline.Reached (.autoscaling params) (.autoscaling used)) (volume : ℚ) :
    let run := used.reset.afterHours volume
    (∀ first later, first < later → (run first).decision volume = .down →
      (run later).decision volume ≠ .up) ∧
    ∀ length, ∃ turn ≤ length,
      MonotoneOn (fun hour => (run hour).scaler.units) (Set.Iic turn) ∧
        AntitoneOn (fun hour => (run hour).scaler.units) (Set.Icc turn length) := by
  intro run
  have turning (length : Nat) : ∃ turn, used.reset.Turns volume turn length :=
    exists_turn_of_since_eq_zero (AutoscalingParams.damped valid up down) reached.reset rfl
      volume length
  constructor
  · intro first later order stepped
    obtain ⟨turn, turns⟩ := turning (later + 1)
    have turned : turn ≤ first := by
      by_contra early
      exact (turns.climbs first (not_le.mp early)).1 stepped
    exact (turns.settles later (turned.trans order.le) (Nat.lt_succ_self later)).1
  · intro length
    obtain ⟨turn, turns⟩ := turning length
    exact ⟨turn, turns.within, turns.monotoneOn, turns.antitoneOn⟩

theorem reset_turns_once_busy :
    (AutoscalingParams.eager.validate = .ok () ∧ AutoscalingParams.eager.rule.upPercent ≤ 100 ∧
      AutoscalingParams.eager.rule.downPercent ≤ AutoscalingParams.eager.rule.upPercent / 2 ∧
      Pipeline.Reached (.autoscaling .eager) (.autoscaling busy)) ∧
    (busy.reset.afterHours 7200 3).scaler.units = 4 ∧
    ∃ turn ≤ 24,
      MonotoneOn (fun hour => (busy.reset.afterHours 7200 hour).scaler.units) (Set.Iic turn) ∧
        AntitoneOn (fun hour => (busy.reset.afterHours 7200 hour).scaler.units)
          (Set.Icc turn 24) := by
  have up : AutoscalingParams.eager.rule.upPercent ≤ 100 := by
    norm_num [AutoscalingParams.eager]
  have down : AutoscalingParams.eager.rule.downPercent ≤
      AutoscalingParams.eager.rule.upPercent / 2 := by
    norm_num [AutoscalingParams.eager]
  obtain ⟨_, turning⟩ :=
    reset_turns_once AutoscalingParams.eager_valid up down busy_reached 7200
  exact ⟨⟨AutoscalingParams.eager_valid, up, down, busy_reached⟩, by decide +kernel, turning 24⟩

end AutoscalingModel

end PipelineCapacity
