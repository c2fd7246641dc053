import Mathlib.Data.List.Induction
import PipelineCapacity.Proofs.Scaling.Decision
import PipelineCapacity.Proofs.Scaling.Window

/-!
The scaler against the whole history of its calls.

A scaler keeps two bounded windows, a count of steps and a count of units. A log
keeps every call with the answer it got. The main statement is that the bounded
state always answers what the log asks for: it acts when enough calls have
passed since the last action or reset and the mean over the last calls since
the reset crosses the threshold. Logs are kept newest first.
-/

set_option autoImplicit false

namespace PipelineCapacity.Scaler

variable {α : Type}

inductive Call (α : Type) where
  | observe (throughput unitCapacity : α)
  | reset

inductive Entry (α : Type) where
  | observed (throughput : α) (answer : Direction)
  | cleared

def sinceReset : List (Entry α) → List α
  | .observed throughput _ :: older => throughput :: sinceReset older
  | _ => []

/-- Throughputs observed since the last action or reset. -/
def sinceAction : List (Entry α) → List α
  | .observed throughput .maintain :: older => throughput :: sinceAction older
  | _ => []

def unitsAfter : List (Entry α) → Nat
  | .observed _ .up :: older => if unitsAfter older < maxUnits then unitsAfter older + 1
      else unitsAfter older
  | .observed _ .down :: older => unitsAfter older - 1
  | .observed _ .maintain :: older => unitsAfter older
  | _ => 1

theorem unitsAfter_le_up (throughput : α) (older : List (Entry α)) :
    unitsAfter older ≤ unitsAfter (.observed throughput .up :: older) := by
  change unitsAfter older ≤ if unitsAfter older < maxUnits then unitsAfter older + 1
    else unitsAfter older
  split
  · exact Nat.le_add_right _ 1
  · exact Nat.le_refl _

/-- The last throughputs since the reset, the present one included, as many as
a delay averages over. -/
def recent (log : List (Entry α)) (throughput : α) (delay : Nat) : List α :=
  (throughput :: sinceReset log).take (Nat.max delay 1)

theorem sinceAction_observed (throughput : α) (answer : Direction) (older : List (Entry α)) :
    sinceAction (.observed throughput answer :: older) =
      if answer = .maintain then throughput :: sinceAction older else [] := by
  cases answer <;> rfl

/-- Only an observation that did nothing continues what came before it. -/
theorem mem_sinceAction_observed {throughput sample : α} {answer : Direction}
    {older : List (Entry α)}
    (member : sample ∈ sinceAction (.observed throughput answer :: older)) :
    answer = .maintain ∧ sample ∈ throughput :: sinceAction older := by
  rw [sinceAction_observed] at member
  by_cases kept : answer = .maintain
  · rw [if_pos kept] at member
    exact ⟨kept, member⟩
  · rw [if_neg kept] at member
    cases member

theorem sinceAction_prefix (log : List (Entry α)) : sinceAction log <+: sinceReset log := by
  induction log with
  | nil => exact List.prefix_rfl
  | cons entry older ih =>
      cases entry with
      | cleared => exact List.prefix_rfl
      | observed throughput answer =>
          cases answer with
          | maintain => exact (List.prefix_cons_inj throughput).mpr ih
          | up => exact List.nil_prefix
          | down => exact List.nil_prefix

/-- Once a delay has passed it averages over throughputs since the last action
alone. -/
theorem recent_of_delay_le {log : List (Entry α)} {throughput : α} {delay : Nat}
    (passed : delay ≤ (sinceAction log).length + 1) :
    recent log throughput delay = (throughput :: sinceAction log).take (Nat.max delay 1) := by
  obtain ⟨stale, extended⟩ := sinceAction_prefix log
  have fresh : Nat.max delay 1 ≤ (throughput :: sinceAction log).length := by
    rw [List.length_cons]
    exact Nat.max_le.mpr ⟨passed, Nat.le_add_left 1 _⟩
  unfold recent
  rw [← extended, ← List.cons_append, List.take_append_of_le_length fresh]

theorem recent_ne_nil (log : List (Entry α)) (throughput : α) (delay : Nat) :
    recent log throughput delay ≠ [] := by
  have room : Nat.max delay 1 ≠ 0 := Nat.one_le_iff_ne_zero.mp (Nat.le_max_right delay 1)
  unfold recent
  intro empty
  rcases List.take_eq_nil_iff.mp empty with none | none
  · exact room none
  · exact List.cons_ne_nil _ _ none

theorem mem_of_mem_recent {log : List (Entry α)} {throughput sample : α} {delay : Nat}
    (passed : delay ≤ (sinceAction log).length + 1)
    (member : sample ∈ recent log throughput delay) : sample ∈ throughput :: sinceAction log := by
  rw [recent_of_delay_le passed] at member
  exact List.mem_of_mem_take member

variable [Quantity α]

def call (scaler : Scaler α) : Call α → Entry α × Scaler α
  | .observe throughput unitCapacity =>
      let (answer, next) := scaler.observe throughput unitCapacity
      (.observed throughput answer, next)
  | .reset => (.cleared, scaler.reset)

/-- The log of a sequence of calls on a new scaler, and the scaler after them. -/
def replay (rule : ScalingRule α) (calls : List (Call α)) : List (Entry α) × Scaler α :=
  calls.foldl
    (fun (log, scaler) request =>
      let (entry, next) := scaler.call request
      (entry :: log, next))
    ([], .ofRule rule)

theorem replay_concat (rule : ScalingRule α) (calls : List (Call α)) (request : Call α) :
    replay rule (calls ++ [request]) =
      (((replay rule calls).2.call request).1 :: (replay rule calls).1,
        ((replay rule calls).2.call request).2) := by
  unfold replay
  rw [List.foldl_append]
  rfl

structure Follows (scaler : Scaler α) (rule : ScalingRule α) (log : List (Entry α)) : Prop
    extends Fits scaler rule where
  up : scaler.upWindow.Holds (sinceReset log)
  down : scaler.downWindow.Holds (sinceReset log)
  since : scaler.since = (sinceAction log).length
  units : scaler.units = unitsAfter log
  units_pos : 1 ≤ scaler.units
  units_le : scaler.units ≤ maxUnits

theorem follows_ofRule (rule : ScalingRule α) : (ofRule rule).Follows rule [] :=
  { toFits := fits_ofRule rule
    up := Window.holds_ofCapacity rule.upDelay
    down := Window.holds_ofCapacity rule.downDelay
    since := rfl
    units := rfl
    units_pos := Nat.le_refl 1
    units_le := (by decide : 1 ≤ maxUnits) }

theorem Follows.reset {scaler : Scaler α} {rule : ScalingRule α} {log : List (Entry α)}
    (follows : scaler.Follows rule log) : scaler.reset.Follows rule (.cleared :: log) :=
  { toFits := ⟨follows.rule_eq, follows.upCapacity, follows.downCapacity⟩
    up := Window.holds_clear follows.up.capacity_pos
    down := Window.holds_clear follows.down.capacity_pos
    since := rfl
    units := rfl
    units_pos := Nat.le_refl 1
    units_le := (by decide : 1 ≤ maxUnits) }

theorem Follows.observe {scaler : Scaler α} {rule : ScalingRule α} {log : List (Entry α)}
    (follows : scaler.Follows rule log) (throughput unitCapacity : α) :
    (scaler.observe throughput unitCapacity).2.Follows rule
      (.observed throughput (scaler.observe throughput unitCapacity).1 :: log) := by
  have positive : 1 ≤ (scaler.observe throughput unitCapacity).2.units :=
    observe_units_pos follows.units_pos
  have bounded : (scaler.observe throughput unitCapacity).2.units ≤ maxUnits :=
    observe_units_le follows.units_le
  have fits := follows.toFits.observe throughput unitCapacity
  have up := follows.up.push throughput
  have down := follows.down.push throughput
  obtain ⟨_, course⟩ | ⟨_, _, course⟩ | ⟨_, _, course⟩ :=
    observe_cases scaler throughput unitCapacity
  · rw [course] at positive bounded fits ⊢
    refine ⟨fits, up, down, rfl, ?_, positive, bounded⟩
    change Nat.min (scaler.units + 1) maxUnits =
      if unitsAfter log < maxUnits then unitsAfter log + 1 else unitsAfter log
    rw [← follows.units]
    have limit := follows.units_le
    split
    · next room => exact Nat.min_eq_left room
    · next full => exact (Nat.min_eq_right (by omega)).trans (by omega)
  · rw [course] at positive bounded fits ⊢
    refine ⟨fits, up, down, rfl, ?_, positive, bounded⟩
    exact congrArg (· - 1) follows.units
  · rw [course] at positive bounded fits ⊢
    refine ⟨fits, up, down, ?_, follows.units, positive, bounded⟩
    exact congrArg (· + 1) follows.since

theorem follows_replay (rule : ScalingRule α) (calls : List (Call α)) :
    (replay rule calls).2.Follows rule (replay rule calls).1 := by
  induction calls using List.reverseRecOn with
  | nil => exact follows_ofRule rule
  | append_singleton calls request ih =>
      rw [replay_concat]
      cases request with
      | observe throughput unitCapacity => exact ih.observe throughput unitCapacity
      | reset => exact ih.reset

structure Exact (scaler : Scaler ℚ) : Prop where
  up : scaler.upWindow.Exact
  down : scaler.downWindow.Exact

theorem exact_ofRule (rule : ScalingRule ℚ) : (ofRule rule).Exact :=
  ⟨Window.exact_ofCapacity rule.upDelay, Window.exact_ofCapacity rule.downDelay⟩

theorem exact_reset (scaler : Scaler ℚ) : scaler.reset.Exact :=
  ⟨Window.exact_clear scaler.upWindow, Window.exact_clear scaler.downWindow⟩

theorem Exact.observe {scaler : Scaler ℚ} (exactSums : scaler.Exact)
    (throughput unitCapacity : ℚ) : (scaler.observe throughput unitCapacity).2.Exact := by
  rw [observe_recorded]
  exact ⟨exactSums.up.push throughput, exactSums.down.push throughput⟩

theorem exact_replay (rule : ScalingRule ℚ) (calls : List (Call ℚ)) :
    (replay rule calls).2.Exact := by
  induction calls using List.reverseRecOn with
  | nil => exact exact_ofRule rule
  | append_singleton calls request ih =>
      rw [replay_concat]
      cases request with
      | observe throughput unitCapacity => exact ih.observe throughput unitCapacity
      | reset => exact exact_reset _

variable {scaler : Scaler ℚ} {rule : ScalingRule ℚ} {log : List (Entry ℚ)}

theorem upMean_record (follows : scaler.Follows rule log) (exactSums : scaler.Exact)
    (throughput : ℚ) :
    (scaler.record throughput).upMean = mean (recent log throughput rule.upDelay) := by
  have held := (follows.up.push throughput).mean?_eq (exactSums.up.push throughput)
    (List.cons_ne_nil _ _)
  rw [Window.push_capacity, follows.upCapacity] at held
  exact congrArg (·.getD Quantity.zero) held

theorem downMean_record (follows : scaler.Follows rule log) (exactSums : scaler.Exact)
    (throughput : ℚ) :
    (scaler.record throughput).downMean = mean (recent log throughput rule.downDelay) := by
  have held := (follows.down.push throughput).mean?_eq (exactSums.down.push throughput)
    (List.cons_ne_nil _ _)
  rw [Window.push_capacity, follows.downCapacity] at held
  exact congrArg (·.getD Quantity.zero) held

/-- The log asks for one more unit: the delay has passed, this call included,
and the mean it averages over is above its percentage of the capacity. -/
def UpDue (rule : ScalingRule ℚ) (log : List (Entry ℚ)) (units : Nat)
    (throughput unitCapacity : ℚ) : Prop :=
  rule.upDelay ≤ (sinceAction log).length + 1 ∧
    unitCapacity * units * rule.upPercent / 100 < mean (recent log throughput rule.upDelay)

/-- The log asks for one unit less, if that is not the only one. -/
def DownDue (rule : ScalingRule ℚ) (log : List (Entry ℚ)) (units : Nat)
    (throughput unitCapacity : ℚ) : Prop :=
  rule.downDelay ≤ (sinceAction log).length + 1 ∧
    mean (recent log throughput rule.downDelay) < unitCapacity * units * rule.downPercent / 100 ∧
    1 < units

theorem UpDue.exists_gt {units : Nat} {throughput unitCapacity : ℚ}
    (due : UpDue rule log units throughput unitCapacity) :
    ∃ sample ∈ throughput :: sinceAction log,
      unitCapacity * units * rule.upPercent / 100 < sample := by
  obtain ⟨passed, high⟩ := due
  obtain ⟨sample, member, above⟩ := exists_gt_of_lt_mean (recent_ne_nil _ _ _) high
  exact ⟨sample, mem_of_mem_recent passed member, above⟩

theorem DownDue.exists_lt {units : Nat} {throughput unitCapacity : ℚ}
    (due : DownDue rule log units throughput unitCapacity) :
    ∃ sample ∈ throughput :: sinceAction log,
      sample < unitCapacity * units * rule.downPercent / 100 := by
  obtain ⟨passed, low, _⟩ := due
  obtain ⟨sample, member, below⟩ := exists_lt_of_mean_lt (recent_ne_nil _ _ _) low
  exact ⟨sample, mem_of_mem_recent passed member, below⟩

theorem wantsUp_record_iff (follows : scaler.Follows rule log) (exactSums : scaler.Exact)
    (throughput unitCapacity : ℚ) :
    (scaler.record throughput).wantsUp unitCapacity = true ↔
      UpDue rule log scaler.units throughput unitCapacity := by
  unfold wantsUp UpDue
  rw [Bool.and_eq_true, decide_eq_true_iff, decide_eq_true_iff, upMean_record follows exactSums,
    ← follows.since, ← follows.rule_eq]
  rfl

theorem wantsDown_record_iff (follows : scaler.Follows rule log) (exactSums : scaler.Exact)
    (throughput unitCapacity : ℚ) :
    (scaler.record throughput).wantsDown unitCapacity = true ↔
      DownDue rule log scaler.units throughput unitCapacity := by
  unfold wantsDown DownDue
  rw [Bool.and_eq_true, Bool.and_eq_true, decide_eq_true_iff, decide_eq_true_iff,
    decide_eq_true_iff, downMean_record follows exactSums, ← follows.since, ← follows.rule_eq,
    and_assoc]
  rfl

theorem observe_answer (follows : scaler.Follows rule log) (exactSums : scaler.Exact)
    (throughput unitCapacity : ℚ) :
    let up := UpDue rule log scaler.units throughput unitCapacity
    let down := DownDue rule log scaler.units throughput unitCapacity
    let answer := (scaler.observe throughput unitCapacity).1
    (answer = .up ↔ up) ∧ (answer = .down ↔ ¬up ∧ down) ∧ (answer = .maintain ↔ ¬up ∧ ¬down) := by
  intro up down answer
  have risen : (scaler.record throughput).wantsUp unitCapacity = true ↔ up :=
    wantsUp_record_iff follows exactSums throughput unitCapacity
  have fallen : (scaler.record throughput).wantsDown unitCapacity = true ↔ down :=
    wantsDown_record_iff follows exactSums throughput unitCapacity
  rcases observe_cases scaler throughput unitCapacity with
    ⟨wanted, course⟩ | ⟨calm, wanted, course⟩ | ⟨calm, busy, course⟩
  · have answered : answer = .up := congrArg Prod.fst course
    have due : up := risen.mp wanted
    rw [answered]
    exact ⟨iff_of_true rfl due, iff_of_false (by decide) (fun both => both.1 due),
      iff_of_false (by decide) (fun both => both.1 due)⟩
  · have answered : answer = .down := congrArg Prod.fst course
    have calmLog : ¬up := fun due => Bool.false_ne_true (calm.symm.trans (risen.mpr due))
    have due : down := fallen.mp wanted
    rw [answered]
    exact ⟨iff_of_false (by decide) calmLog, iff_of_true rfl ⟨calmLog, due⟩,
      iff_of_false (by decide) (fun both => both.2 due)⟩
  · have answered : answer = .maintain := congrArg Prod.fst course
    have calmLog : ¬up := fun due => Bool.false_ne_true (calm.symm.trans (risen.mpr due))
    have busyLog : ¬down := fun due => Bool.false_ne_true (busy.symm.trans (fallen.mpr due))
    rw [answered]
    exact ⟨iff_of_false (by decide) calmLog, iff_of_false (by decide) (fun both => busyLog both.2),
      iff_of_true rfl ⟨calmLog, busyLog⟩⟩

/-- After any calls the next observation answers, and changes the units and the
count of steps, as the log of those calls asks for. -/
theorem observe_refines_log (rule : ScalingRule ℚ) (calls : List (Call ℚ))
    (throughput unitCapacity : ℚ) :
    let log := (replay rule calls).1
    let scaler := (replay rule calls).2
    let up := UpDue rule log scaler.units throughput unitCapacity
    let down := DownDue rule log scaler.units throughput unitCapacity
    let answer := (scaler.observe throughput unitCapacity).1
    let next := (scaler.observe throughput unitCapacity).2
    scaler.units = unitsAfter log ∧
      (answer = .up ↔ up) ∧
      (answer = .down ↔ ¬up ∧ down) ∧
      (answer = .maintain ↔ ¬up ∧ ¬down) ∧
      next.units = (match answer with
        | .up => if scaler.units < maxUnits then scaler.units + 1 else scaler.units
        | .down => scaler.units - 1
        | .maintain => scaler.units) ∧
      next.since = if answer = .maintain then (sinceAction log).length + 1 else 0 := by
  intro log scaler up down answer next
  have follows : scaler.Follows rule log := follows_replay rule calls
  obtain ⟨risen, fallen, kept⟩ :=
    observe_answer follows (exact_replay rule calls) throughput unitCapacity
  have counted : next.units = unitsAfter (.observed throughput answer :: log) :=
    (follows.observe throughput unitCapacity).units
  have elapsed : next.since = (sinceAction (.observed throughput answer :: log)).length :=
    (follows.observe throughput unitCapacity).since
  refine ⟨follows.units, risen, fallen, kept, ?_, ?_⟩
  · rw [counted, follows.units]
    cases answer with
    | up => rfl
    | down => rfl
    | maintain => rfl
  · rw [elapsed, sinceAction_observed]
    split
    · exact List.length_cons
    · exact List.length_nil

end PipelineCapacity.Scaler
