import PipelineCapacity.Proofs.Exact
import PipelineCapacity.Queue

/-!
What updates of the queue do, in exact arithmetic.

One update serves what it can and keeps the rest, so records are neither made
up nor dropped, and none waits while capacity is idle. Updates at one capacity
whose loads never grow add up to a single update with the totals: a backlog
that was worked off cannot come back.
-/

set_option autoImplicit false

namespace PipelineCapacity.Queue

attribute [ext] Queue

theorem advance_throughput (queue : Queue ℚ) (load : Load ℚ) :
    (queue.advance load).1.throughput =
      Min.min (queue.backlog + load.incoming) load.capacity :=
  Quantity.min_rat _ _

theorem advance_backlog (queue : Queue ℚ) (load : Load ℚ) :
    (queue.advance load).2.backlog =
      Max.max (queue.backlog + load.incoming - load.capacity) 0 := by
  change Quantity.max (queue.backlog + load.incoming -
    Quantity.min (queue.backlog + load.incoming) load.capacity) Quantity.zero = _
  rw [Quantity.max_rat, Quantity.min_rat, Quantity.zero_rat]
  rcases le_total (queue.backlog + load.incoming) load.capacity with enough | short
  · rw [min_eq_left enough, sub_self, max_self, max_eq_right (sub_nonpos.mpr enough)]
  · rw [min_eq_right short]

theorem advance_oldestAge (queue : Queue ℚ) (load : Load ℚ) :
    (queue.advance load).2.oldestAge =
      if (queue.advance load).2.backlog = 0 then 0 else queue.oldestAge + load.duration := by
  change (if ((queue.advance load).2.backlog == Quantity.zero) = true then Quantity.zero
    else queue.oldestAge + load.duration) = _
  rw [Quantity.zero_rat]
  by_cases drained : (queue.advance load).2.backlog = 0
  · rw [if_pos drained, if_pos (beq_iff_eq.mpr drained)]
  · rw [if_neg drained, if_neg (fun same => drained (beq_iff_eq.mp same))]

theorem advance_backlog_nonneg (queue : Queue ℚ) (load : Load ℚ) :
    0 ≤ (queue.advance load).2.backlog := by
  rw [advance_backlog]
  exact le_max_right _ _

theorem advance_balance (queue : Queue ℚ) (load : Load ℚ) :
    (queue.advance load).1.throughput + (queue.advance load).2.backlog =
      queue.backlog + load.incoming := by
  rw [advance_throughput, advance_backlog]
  rcases le_total (queue.backlog + load.incoming) load.capacity with enough | short
  · rw [min_eq_left enough, max_eq_right (sub_nonpos.mpr enough), add_zero]
  · rw [min_eq_right short, max_eq_left (sub_nonneg.mpr short), add_sub_cancel]

theorem advance_throughput_le (queue : Queue ℚ) (load : Load ℚ) :
    (queue.advance load).1.throughput ≤ load.capacity := by
  rw [advance_throughput]
  exact min_le_right _ _

theorem advance_throughput_nonneg {queue : Queue ℚ} {load : Load ℚ}
    (waiting : 0 ≤ queue.backlog) (incoming : 0 ≤ load.incoming) (capacity : 0 ≤ load.capacity) :
    0 ≤ (queue.advance load).1.throughput := by
  rw [advance_throughput]
  exact le_min (add_nonneg waiting incoming) capacity

/-- Capacity is left idle only by serving everything. -/
theorem advance_drained {queue : Queue ℚ} {load : Load ℚ}
    (idle : (queue.advance load).1.throughput < load.capacity) :
    (queue.advance load).2.backlog = 0 := by
  rw [advance_throughput, min_lt_iff] at idle
  have enough : queue.backlog + load.incoming < load.capacity :=
    idle.resolve_right (lt_irrefl load.capacity)
  rw [advance_backlog, max_eq_right (sub_nonpos.mpr enough.le)]

def Load.join (first second : Load ℚ) : Load ℚ :=
  { incoming := first.incoming + second.incoming
    capacity := first.capacity + second.capacity
    baseLatency := first.baseLatency
    duration := first.duration + second.duration }

/-- Two updates are one with the joint load, unless the first empties the queue
and the second fills it again. -/
theorem advance_advance (queue : Queue ℚ) (first second : Load ℚ)
    (settled : (queue.advance first).2.backlog = 0 → second.incoming ≤ second.capacity) :
    ((queue.advance first).2.advance second).2 = (queue.advance (first.join second)).2 := by
  have backlog : ((queue.advance first).2.advance second).2.backlog =
      (queue.advance (first.join second)).2.backlog := by
    have merged : (queue.advance (first.join second)).2.backlog =
        Max.max (queue.backlog + first.incoming - first.capacity +
          (second.incoming - second.capacity)) 0 := by
      rw [advance_backlog]
      congr 1
      simp only [Load.join]
      ring
    rw [merged, advance_backlog, add_sub_assoc]
    rcases le_or_gt (queue.backlog + first.incoming - first.capacity) 0 with emptied | kept
    · have drained : (queue.advance first).2.backlog = 0 := by
        rw [advance_backlog, max_eq_right emptied]
      have spare : second.incoming - second.capacity ≤ 0 := sub_nonpos.mpr (settled drained)
      rw [drained, zero_add, max_eq_right spare, max_eq_right (add_nonpos emptied spare)]
    · rw [advance_backlog, max_eq_left kept.le]
  apply Queue.ext backlog
  rw [advance_oldestAge, backlog, advance_oldestAge queue (first.join second)]
  by_cases drained : (queue.advance (first.join second)).2.backlog = 0
  · rw [if_pos drained, if_pos drained]
  · rw [if_neg drained, if_neg drained]
    have waiting : (queue.advance first).2.backlog ≠ 0 := by
      intro emptied
      apply drained
      rw [← backlog, advance_backlog, emptied, zero_add]
      exact max_eq_right (sub_nonpos.mpr (settled emptied))
    rw [advance_oldestAge, if_neg waiting]
    exact add_assoc _ _ _

variable {α : Type} [Quantity α]

def serve (queue : Queue α) (loads : List (Load α)) : Queue α :=
  loads.foldl (fun queue load => (queue.advance load).2) queue

theorem serve_cons (queue : Queue α) (load : Load α) (rest : List (Load α)) :
    queue.serve (load :: rest) = (queue.advance load).2.serve rest := rfl

def Load.withIncoming (load : Load α) (incoming : α) : Load α := { load with incoming }

/-- The load of a number of time-steps that together bring an amount. -/
def Load.over (load : Load ℚ) (steps : Nat) (incoming : ℚ) : Load ℚ :=
  { load with
    incoming
    capacity := steps * load.capacity
    duration := steps * load.duration }

/-- Steps of one capacity whose arrivals never grow end as one long step does. -/
theorem serve_withIncoming (load : Load ℚ) (arrivals : List ℚ) (queue : Queue ℚ)
    (waiting : 0 ≤ queue.backlog) (falling : arrivals.Pairwise (· ≥ ·)) (present : arrivals ≠ []) :
    queue.serve (arrivals.map load.withIncoming) =
      (queue.advance (load.over arrivals.length arrivals.sum)).2 := by
  induction arrivals generalizing queue with
  | nil => exact absurd rfl present
  | cons arrival rest ih =>
      obtain ⟨largest, fallingRest⟩ := List.pairwise_cons.mp falling
      rw [List.map_cons, serve_cons]
      cases rest with
      | nil =>
          simp [serve, Load.over, Load.withIncoming]
      | cons next others =>
          rw [ih _ (advance_backlog_nonneg _ _) fallingRest (List.cons_ne_nil _ _)]
          rw [advance_advance]
          · congr 2
            simp only [Load.join, Load.withIncoming, Load.over, List.length_cons, List.sum_cons,
              Nat.cast_add, Nat.cast_one]
            congr 1 <;> ring
          · intro emptied
            rw [advance_backlog] at emptied
            -- Every later arrival is at most the one that was just served in full.
            have served : queue.backlog + arrival - load.capacity ≤ 0 :=
              (le_max_left _ _).trans emptied.le
            have bound : ∀ amount ∈ next :: others, amount ≤ load.capacity := by
              intro amount member
              have fits := largest amount member
              linarith
            have total := List.sum_le_card_nsmul (next :: others) load.capacity bound
            rw [nsmul_eq_mul] at total
            exact total

end PipelineCapacity.Queue
