import PipelineCapacity.Proofs.Scaling.History

/-!
What a scaler's actions rest on, in any arithmetic.

The windows are not emptied when the count of units changes, yet no action rests
on a sample taken under another count. A delay is both how long a direction
waits since the last action and how many samples it averages over, so by the
time it may act its window holds nothing older. Waiting for a delay before each
unit also bounds how fast units are added.
-/

set_option autoImplicit false

namespace PipelineCapacity.Scaler

open Quantity (ofNat)

section Logs

variable {α : Type} {log : List (Entry α)}

/-- An entry after the last action or reset is that of a call that did nothing. -/
theorem getElem?_of_lt_sinceAction {age : Nat} (recently : age < (sinceAction log).length) :
    ∃ sample, log[age]? = some (.observed sample .maintain) := by
  induction log generalizing age with
  | nil => cases recently
  | cons entry older ih =>
      cases entry with
      | cleared => cases recently
      | observed throughput answer =>
          cases answer with
          | up => cases recently
          | down => cases recently
          | maintain =>
              cases age with
              | zero => exact ⟨throughput, rfl⟩
              | succ age => exact ih (Nat.lt_of_succ_lt_succ recently)

/-- The units are those of any time since the last action or reset. -/
theorem unitsAfter_append {newer older : List (Entry α)}
    (recently : newer.length ≤ (sinceAction (newer ++ older)).length) :
    unitsAfter (newer ++ older) = unitsAfter older := by
  induction newer with
  | nil => rfl
  | cons entry newer ih =>
      cases entry with
      | cleared => cases recently
      | observed throughput answer =>
          cases answer with
          | up => cases recently
          | down => cases recently
          | maintain => exact ih (Nat.le_of_succ_le_succ recently)

end Logs

variable {α : Type} [Quantity α]

theorem replay_append (rule : ScalingRule α) (earlier later : List (Call α)) :
    ∃ newer, (replay rule (earlier ++ later)).1 = newer ++ (replay rule earlier).1 ∧
      newer.length = later.length := by
  induction later using List.reverseRecOn with
  | nil => exact ⟨[], by rw [List.append_nil, List.nil_append], rfl⟩
  | append_singleton later request ih =>
      obtain ⟨newer, logged, counted⟩ := ih
      rw [← List.append_assoc, replay_concat, logged]
      refine ⟨_ :: newer, List.cons_append.symm, ?_⟩
      rw [List.length_cons, List.length_append, counted, List.length_singleton]

section Waiting

variable {scaler : Scaler α} {throughput unitCapacity : α}

theorem observe_eq_up (acted : (scaler.observe throughput unitCapacity).1 = .up) :
    (scaler.record throughput).wantsUp unitCapacity = true := by
  rcases observe_cases scaler throughput unitCapacity with
    ⟨wanted, _⟩ | ⟨_, _, course⟩ | ⟨_, _, course⟩
  · exact wanted
  · rw [course] at acted
    cases acted
  · rw [course] at acted
    cases acted

theorem observe_eq_down (acted : (scaler.observe throughput unitCapacity).1 = .down) :
    (scaler.record throughput).wantsDown unitCapacity = true := by
  rcases observe_cases scaler throughput unitCapacity with
    ⟨_, course⟩ | ⟨_, wanted, _⟩ | ⟨_, _, course⟩
  · rw [course] at acted
    cases acted
  · exact wanted
  · rw [course] at acted
    cases acted

theorem upDelay_le_of_up (acted : (scaler.observe throughput unitCapacity).1 = .up) :
    scaler.rule.upDelay ≤ scaler.since + 1 := by
  have wanted := observe_eq_up acted
  unfold wantsUp at wanted
  rw [Bool.and_eq_true] at wanted
  exact of_decide_eq_true wanted.1

theorem downDelay_le_of_down (acted : (scaler.observe throughput unitCapacity).1 = .down) :
    scaler.rule.downDelay ≤ scaler.since + 1 := by
  have wanted := observe_eq_down acted
  unfold wantsDown at wanted
  rw [Bool.and_eq_true, Bool.and_eq_true] at wanted
  exact of_decide_eq_true wanted.1.1

theorem observe_units_step (positive : 1 ≤ scaler.units) (bounded : scaler.units ≤ maxUnits) :
    (scaler.observe throughput unitCapacity).2.units ≤ scaler.units + 1 ∧
      scaler.units ≤ (scaler.observe throughput unitCapacity).2.units + 1 := by
  rcases observe_cases scaler throughput unitCapacity with
    ⟨_, course⟩ | ⟨_, _, course⟩ | ⟨_, _, course⟩
  · rw [course]
    change Nat.min (scaler.units + 1) maxUnits ≤ _ ∧ _ ≤ Nat.min (scaler.units + 1) maxUnits + 1
    exact ⟨Nat.min_le_left _ _,
      (Nat.le_min.mpr ⟨Nat.le_succ _, bounded⟩).trans (Nat.le_succ _)⟩
  · rw [course]
    change scaler.units - 1 ≤ _ ∧ _ ≤ scaler.units - 1 + 1
    omega
  · rw [course]
    exact ⟨Nat.le_succ _, Nat.le_succ _⟩

/-- Each unit but the first has cost a full delay of calls, and the calls since
the last action come on top. -/
theorem observe_growth {delay calls : Nat} (rising : delay = Nat.max scaler.rule.upDelay 1)
    (spent : (scaler.units - 1) * delay + scaler.since ≤ calls) :
    ((scaler.observe throughput unitCapacity).2.units - 1) * delay +
      (scaler.observe throughput unitCapacity).2.since ≤ calls + 1 := by
  rcases observe_cases scaler throughput unitCapacity with
    ⟨wanted, course⟩ | ⟨_, _, course⟩ | ⟨_, _, course⟩
  · have acted : (scaler.observe throughput unitCapacity).1 = .up := congrArg Prod.fst course
    have waited : delay ≤ scaler.since + 1 :=
      rising ▸ Nat.max_le.mpr ⟨upDelay_le_of_up acted, Nat.le_add_left 1 _⟩
    have added : (Nat.min (scaler.units + 1) maxUnits - 1) * delay ≤
        (scaler.units - 1) * delay + delay := by
      rw [← Nat.succ_mul]
      apply Nat.mul_le_mul_right
      have limit := Nat.min_le_left (scaler.units + 1) maxUnits
      change min (scaler.units + 1) maxUnits - 1 ≤ scaler.units - 1 + 1
      omega
    rw [course]
    change (Nat.min (scaler.units + 1) maxUnits - 1) * delay + 0 ≤ calls + 1
    omega
  · have fewer : (scaler.units - 1 - 1) * delay ≤ (scaler.units - 1) * delay :=
      Nat.mul_le_mul_right _ (Nat.sub_le _ 1)
    rw [course]
    change (scaler.units - 1 - 1) * delay + 0 ≤ calls + 1
    omega
  · rw [course]
    change (scaler.units - 1) * delay + (scaler.since + 1) ≤ calls + 1
    omega

theorem replay_growth (rule : ScalingRule α) (calls : List (Call α)) :
    ((replay rule calls).2.units - 1) * Nat.max rule.upDelay 1 + (replay rule calls).2.since ≤
      (sinceReset (replay rule calls).1).length := by
  induction calls using List.reverseRecOn with
  | nil =>
      change (1 - 1) * _ + 0 ≤ 0
      omega
  | append_singleton calls request ih =>
      rw [replay_concat]
      cases request with
      | observe throughput unitCapacity =>
          have same := (follows_replay rule calls).rule_eq
          exact observe_growth (congrArg (fun rule => Nat.max rule.upDelay 1) same.symm) ih
      | reset =>
          change (1 - 1) * _ + 0 ≤ 0
          omega

end Waiting

/-- What an action rests on after some calls, this one telling a throughput: a
window of exactly as many samples as the delay asks for, this one and those of
the calls right before. None of those calls acted or was a reset, and each found
the present count of units. -/
structure RestsOn (rule : ScalingRule α) (calls : List (Call α)) (throughput : α)
    (window : Window α) (delay : Nat) : Prop where
  counted : window.samples.toList.length = Nat.max delay 1
  mean : window.mean? = some (window.sum / ofNat (Nat.max delay 1))
  fresh : window.samples.toList.reverse <+: throughput :: sinceAction (replay rule calls).1
  quiet : ∀ age, age + 1 < Nat.max delay 1 →
    ∃ sample, (replay rule calls).1[age]? = some (.observed sample .maintain)
  steady : ∀ earlier later, calls = earlier ++ later → later.length < Nat.max delay 1 →
    (replay rule earlier).2.units = (replay rule calls).2.units

/-- An action is as many calls after the one before it as its delay asks for. -/
theorem RestsOn.apart {rule : ScalingRule α} {calls : List (Call α)} {throughput : α}
    {window : Window α} {delay age : Nat} {sample : α} {earlier : Direction}
    (rests : RestsOn rule calls throughput window delay)
    (logged : (replay rule calls).1[age]? = some (.observed sample earlier))
    (acted : earlier ≠ .maintain) : Nat.max delay 1 ≤ age + 1 := by
  by_contra close
  obtain ⟨other, idle⟩ := rests.quiet age (Nat.lt_of_not_le close)
  rw [logged] at idle
  cases idle
  exact acted rfl

theorem restsOn_of_delay_le {rule : ScalingRule α} {calls : List (Call α)} {throughput : α}
    {window : Window α} {delay : Nat} (capacity : window.capacity = Nat.max delay 1)
    (holds : window.Holds (sinceReset (replay rule calls).1))
    (waited : delay ≤ (replay rule calls).2.since + 1) :
    RestsOn rule calls throughput (window.push throughput) delay := by
  have follows := follows_replay rule calls
  have pushed := holds.push throughput
  rw [follows.since] at waited
  have passed : Nat.max delay 1 ≤ (sinceAction (replay rule calls).1).length + 1 :=
    Nat.max_le.mpr ⟨waited, Nat.le_add_left 1 _⟩
  have listed : (window.push throughput).samples.toList.reverse =
      (throughput :: sinceAction (replay rule calls).1).take (Nat.max delay 1) := by
    rw [pushed.listed, Window.push_capacity, capacity, List.reverse_reverse]
    exact recent_of_delay_le waited
  have counted : (window.push throughput).samples.toList.length = Nat.max delay 1 := by
    rw [← List.length_reverse, listed, List.length_take, List.length_cons,
      Nat.min_eq_left passed]
  refine ⟨counted, ?_, ?_, ?_, ?_⟩
  · have size : (window.push throughput).size = Nat.max delay 1 :=
      pushed.counted.trans counted
    have filled : (window.push throughput).isEmpty = false := by
      have present : Nat.max delay 1 ≠ 0 := Nat.one_le_iff_ne_zero.mp (Nat.le_max_right delay 1)
      unfold Window.isEmpty
      rw [size]
      exact beq_eq_false_iff_ne.mpr present
    unfold Window.mean?
    rw [filled, if_neg Bool.false_ne_true, size]
  · rw [listed]
    exact List.take_prefix _ _
  · intro age within
    exact getElem?_of_lt_sinceAction (by omega)
  · rintro earlier later rfl few
    obtain ⟨newer, logged, length⟩ := replay_append rule earlier later
    rw [follows.units, (follows_replay rule earlier).units, logged]
    rw [logged] at passed
    exact (unitsAfter_append (by omega)).symm

/-- After any calls, an action of the next one rests on as many samples as its
delay asks for, all of them taken since the last action or reset and so under
the present units; a call adds or takes one unit at most; and there is at most
one unit more than full delays in the calls since the reset. In exact
arithmetic the means compared are those of the samples held. -/
theorem acts_on_fresh_samples :
    (∀ {β : Type} [Quantity β] (rule : ScalingRule β) (calls : List (Call β))
        (throughput unitCapacity : β),
      let scaler := (replay rule calls).2
      let recorded := scaler.record throughput
      let answer := (scaler.observe throughput unitCapacity).1
      let next := (scaler.observe throughput unitCapacity).2
      (answer = .up → RestsOn rule calls throughput recorded.upWindow rule.upDelay) ∧
        (answer = .down → RestsOn rule calls throughput recorded.downWindow rule.downDelay) ∧
        (∀ age sample earlier,
          (replay rule calls).1[age]? = some (.observed sample earlier) → earlier ≠ .maintain →
            (answer = .up → Nat.max rule.upDelay 1 ≤ age + 1) ∧
              (answer = .down → Nat.max rule.downDelay 1 ≤ age + 1)) ∧
        (next.units ≤ scaler.units + 1 ∧ scaler.units ≤ next.units + 1) ∧
        1 ≤ scaler.units ∧
        scaler.units ≤
          1 + (sinceReset (replay rule calls).1).length / Nat.max rule.upDelay 1) ∧
      ∀ (rule : ScalingRule ℚ) (calls : List (Call ℚ)) (throughput : ℚ),
        let recorded := (replay rule calls).2.record throughput
        recorded.upMean = mean recorded.upWindow.samples.toList ∧
          recorded.downMean = mean recorded.downWindow.samples.toList := by
  constructor
  · intro β _ rule calls throughput unitCapacity scaler recorded answer next
    have follows : scaler.Follows rule _ := follows_replay rule calls
    have waits : (answer = .up → rule.upDelay ≤ scaler.since + 1) ∧
        (answer = .down → rule.downDelay ≤ scaler.since + 1) := by
      rw [← follows.rule_eq]
      exact ⟨upDelay_le_of_up, downDelay_le_of_down⟩
    have up (acted : answer = .up) :
        RestsOn rule calls throughput recorded.upWindow rule.upDelay :=
      restsOn_of_delay_le follows.upCapacity follows.up (waits.1 acted)
    have down (acted : answer = .down) :
        RestsOn rule calls throughput recorded.downWindow rule.downDelay :=
      restsOn_of_delay_le follows.downCapacity follows.down (waits.2 acted)
    refine ⟨up, down, ?_, observe_units_step follows.units_pos follows.units_le,
      follows.units_pos, ?_⟩
    · intro age sample earlier logged acting
      exact ⟨fun acted => (up acted).apart logged acting,
        fun acted => (down acted).apart logged acting⟩
    · have growth := replay_growth rule calls
      have positive : 0 < Nat.max rule.upDelay 1 := Nat.le_max_right rule.upDelay 1
      have full : scaler.units - 1 ≤
          (sinceReset (replay rule calls).1).length / Nat.max rule.upDelay 1 :=
        (Nat.le_div_iff_mul_le positive).mpr ((Nat.le_add_right _ _).trans growth)
      omega
  · intro rule calls throughput recorded
    have follows := follows_replay rule calls
    have sums := exact_replay rule calls
    have upHeld := (follows.up.push throughput).mean_samples
    have downHeld := (follows.down.push throughput).mean_samples
    rw [Window.push_capacity, follows.upCapacity] at upHeld
    rw [Window.push_capacity, follows.downCapacity] at downHeld
    exact ⟨(upMean_record follows sums throughput).trans upHeld.symm,
      (downMean_record follows sums throughput).trans downHeld.symm⟩

end PipelineCapacity.Scaler
