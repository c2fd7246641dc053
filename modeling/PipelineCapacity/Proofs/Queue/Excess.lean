import Mathlib.Data.List.Induction
import Mathlib.Order.Bounds.Basic
import PipelineCapacity.Proofs.Queue.Service

/-!
The closed form of the backlog, in exact arithmetic.

Each step adds its excess, what arrives less what can be served, but for the
part of a capacity that finds nothing to serve. So the backlog is the greatest
total excess of the last steps, over every number of them, and what has been
served is the least sum of the arrivals up to a step and the capacities after it.
-/

set_option autoImplicit false

namespace PipelineCapacity.Queue

/-- What the steps with these loads report, one after the other. -/
def services {α : Type} [Quantity α] (queue : Queue α) : List (Load α) → List (Service α)
  | [] => []
  | load :: rest => (queue.advance load).1 :: (queue.advance load).2.services rest

theorem serve_concat (queue : Queue ℚ) (loads : List (Load ℚ)) (load : Load ℚ) :
    queue.serve (loads ++ [load]) = ((queue.serve loads).advance load).2 := by
  unfold serve
  rw [List.foldl_append]
  rfl

/-- Nothing that arrives is lost: it was served or waits. -/
theorem serve_balance (queue : Queue ℚ) (loads : List (Load ℚ)) :
    ((queue.services loads).map (·.throughput)).sum + (queue.serve loads).backlog =
      queue.backlog + (loads.map (·.incoming)).sum := by
  induction loads generalizing queue with
  | nil => simp [services, serve]
  | cons load rest ih =>
      have later := ih (queue.advance load).2
      have once := queue.advance_balance load
      rw [services, serve_cons, List.map_cons, List.map_cons, List.sum_cons, List.sum_cons]
      linarith

def Load.excess (load : Load ℚ) : ℚ := load.incoming - load.capacity

theorem advance_backlog_excess (queue : Queue ℚ) (load : Load ℚ) :
    (queue.advance load).2.backlog = Max.max (queue.backlog + load.excess) 0 := by
  rw [advance_backlog, Load.excess, add_sub_assoc]

def totalExcess (loads : List (Load ℚ)) : ℚ := (loads.map Load.excess).sum

theorem totalExcess_add_capacity (loads : List (Load ℚ)) :
    totalExcess loads + (loads.map (·.capacity)).sum = (loads.map (·.incoming)).sum := by
  unfold totalExcess
  rw [← List.sum_map_add]
  simp only [Load.excess, sub_add_cancel]

/-- The total excess of the steps that are left after the first ones, or of none. -/
def RecentExcess (loads : List (Load ℚ)) (excess : ℚ) : Prop :=
  ∃ count ≤ loads.length, excess = totalExcess (loads.drop count)

theorem recentExcess_concat {loads : List (Load ℚ)} {load : Load ℚ} {excess : ℚ} :
    RecentExcess (loads ++ [load]) excess ↔
      excess = 0 ∨ ∃ earlier, RecentExcess loads earlier ∧ excess = earlier + load.excess := by
  have later {count : Nat} (within : count ≤ loads.length) :
      totalExcess ((loads ++ [load]).drop count) =
        totalExcess (loads.drop count) + load.excess := by
    rw [List.drop_append_of_le_length within]
    simp [totalExcess]
  have none : totalExcess ((loads ++ [load]).drop (loads ++ [load]).length) = 0 := by
    rw [List.drop_length]
    rfl
  constructor
  · rintro ⟨count, within, rfl⟩
    rw [List.length_append, List.length_singleton] at within
    rcases Nat.le_succ_iff.mp within with before | last
    · exact .inr ⟨_, ⟨count, before, rfl⟩, later before⟩
    · subst last
      exact .inl (by simpa using none)
  · rintro (rfl | ⟨_, ⟨count, within, rfl⟩, rfl⟩)
    · exact ⟨_, Nat.le_refl _, none.symm⟩
    · exact ⟨count, within.trans (by simp), (later within).symm⟩

/-- One more step adds its excess to all totals, and there is the empty one. -/
theorem isGreatest_concat {loads : List (Load ℚ)} {backlog : ℚ}
    (greatest : IsGreatest {excess | RecentExcess loads excess} backlog) (load : Load ℚ) :
    IsGreatest {excess | RecentExcess (loads ++ [load]) excess}
      (Max.max (backlog + load.excess) 0) := by
  obtain ⟨reached, bound⟩ := greatest
  constructor
  · refine recentExcess_concat.mpr ?_
    rcases max_choice (backlog + load.excess) 0 with kept | emptied
    · exact .inr ⟨backlog, reached, kept⟩
    · exact .inl emptied
  · intro excess recent
    rcases recentExcess_concat.mp recent with rfl | ⟨earlier, before, rfl⟩
    · exact le_max_right _ _
    · exact le_max_of_le_left (add_le_add_left (bound before) _)

theorem serve_backlog_isGreatest (loads : List (Load ℚ)) :
    IsGreatest {excess | RecentExcess loads excess} (empty.serve loads).backlog := by
  induction loads using List.reverseRecOn with
  | nil =>
      have vacant : (empty : Queue ℚ).backlog = 0 := Quantity.zero_rat
      change IsGreatest _ (empty : Queue ℚ).backlog
      rw [vacant]
      constructor
      · exact ⟨0, Nat.le_refl 0, rfl⟩
      · rintro _ ⟨count, _, rfl⟩
        rw [List.drop_nil]
        exact le_refl 0
  | append_singleton loads load ih =>
      rw [serve_concat, advance_backlog_excess]
      exact isGreatest_concat ih load

/-- The arrivals up to a step and the capacities after it are all arrivals less
the excess after it. -/
theorem arrivals_then_capacities (loads : List (Load ℚ)) (count : Nat) :
    ((loads.take count).map (·.incoming)).sum + ((loads.drop count).map (·.capacity)).sum =
      (loads.map (·.incoming)).sum - totalExcess (loads.drop count) := by
  have parts : (loads.map (·.incoming)).sum =
      ((loads.take count).map (·.incoming)).sum + ((loads.drop count).map (·.incoming)).sum := by
    rw [← List.sum_append, ← List.map_append, List.take_append_drop]
  rw [parts, ← totalExcess_add_capacity (loads.drop count)]
  ring

/-- After any loads the backlog of a queue that was empty is the greatest excess
of arrivals over capacity of the steps from one on. What it has served is the
least sum of the arrivals up to a step and the capacities after it. -/
theorem backlog_throughput_extrema (loads : List (Load ℚ)) :
    IsGreatest
        {excess : ℚ | ∃ count ≤ loads.length,
          excess = ((loads.drop count).map fun load => load.incoming - load.capacity).sum}
        (empty.serve loads).backlog ∧
      IsLeast
        {total : ℚ | ∃ count ≤ loads.length,
          total = ((loads.take count).map (·.incoming)).sum +
            ((loads.drop count).map (·.capacity)).sum}
        ((empty.services loads).map (·.throughput)).sum := by
  have greatest := serve_backlog_isGreatest loads
  refine ⟨greatest, ?_⟩
  obtain ⟨⟨count, within, reached⟩, bound⟩ := greatest
  have vacant : (empty : Queue ℚ).backlog = 0 := Quantity.zero_rat
  have balance := serve_balance empty loads
  rw [vacant, zero_add] at balance
  constructor
  · refine ⟨count, within, ?_⟩
    rw [arrivals_then_capacities, ← reached]
    exact eq_sub_of_add_eq balance
  · rintro _ ⟨other, inside, rfl⟩
    have less := bound ⟨other, inside, rfl⟩
    rw [arrivals_then_capacities]
    linarith

/-- A queue that builds up, drains and builds up again: the last step alone
has the greatest excess. -/
example : (empty.serve [⟨150, 100, 1, 3600⟩, ⟨20, 90, 1, 3600⟩, ⟨130, 100, 1, 3600⟩]).backlog =
    (30 : ℚ) := by decide +kernel

end PipelineCapacity.Queue
