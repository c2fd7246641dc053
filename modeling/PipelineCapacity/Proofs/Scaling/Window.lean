import PipelineCapacity.Proofs.Mean
import PipelineCapacity.Scaling.Window

/-!
The window against the whole sequence of samples pushed into it.

Whatever the arithmetic, a window holds the newest samples up to its capacity,
in order. In exact arithmetic its running sum is their sum, however samples
came and went, so its mean is theirs. Sequences of samples are given newest
first.
-/

set_option autoImplicit false

namespace PipelineCapacity

theorem Samples.size_takeOldest? {α : Type} {samples rest : Samples α} {oldest : α}
    (taken : samples.takeOldest? = some (oldest, rest)) : rest.size = samples.size - 1 := by
  unfold takeOldest? at taken
  split at taken
  · cases taken
    rfl
  · split at taken
    · cases taken
      rfl
    · cases taken

theorem Samples.takeOldest?_of_toList {α : Type} {samples : Samples α} {oldest : α}
    {others : List α} (listed : samples.toList = oldest :: others) :
    ∃ rest, samples.takeOldest? = some (oldest, rest) ∧ rest.toList = others := by
  have view := samples.toList_takeOldest?
  rw [listed] at view
  obtain ⟨⟨first, rest⟩, taken, same⟩ := Option.map_eq_some_iff.mp view
  cases same
  exact ⟨rest, taken, rfl⟩

namespace Window

section

variable {α : Type} [Quantity α]

/-- The window holds the newest of the samples pushed, as many as it may. -/
structure Holds (window : Window α) (pushed : List α) : Prop where
  capacity_pos : 0 < window.capacity
  listed : window.samples.toList = (pushed.take window.capacity).reverse
  counted : window.samples.size = window.samples.toList.length

theorem holds_clear {window : Window α} (positive : 0 < window.capacity) :
    window.clear.Holds [] :=
  ⟨positive, List.take_nil.symm ▸ rfl, rfl⟩

theorem holds_ofCapacity (capacity : Nat) : (ofCapacity capacity : Window α).Holds [] :=
  ⟨lt_of_lt_of_le Nat.one_pos (Nat.le_max_right capacity 1), List.take_nil.symm ▸ rfl, rfl⟩

omit [Quantity α] in
theorem Holds.size_eq {window : Window α} {pushed : List α} (holds : window.Holds pushed) :
    window.samples.size = Nat.min window.capacity pushed.length := by
  rw [holds.counted, holds.listed, List.length_reverse, List.length_take]

theorem evict_capacity (window : Window α) : window.evict.capacity = window.capacity := by
  unfold evict
  split
  · split <;> rfl
  · rfl

theorem Holds.evict {window : Window α} {pushed : List α} (holds : window.Holds pushed) :
    window.evict.samples.toList = (pushed.take (window.capacity - 1)).reverse ∧
      window.evict.samples.size = window.evict.samples.toList.length := by
  have counted := holds.size_eq
  by_cases full : window.samples.size = window.capacity
  · have enough : window.capacity ≤ pushed.length := by
      rw [full] at counted
      exact counted.symm ▸ Nat.min_le_right window.capacity pushed.length
    have nonempty : window.samples.toList ≠ [] := by
      intro empty
      have positive := holds.capacity_pos
      rw [← full, holds.counted, empty] at positive
      exact Nat.lt_irrefl 0 positive
    obtain ⟨oldest, others, filled⟩ := List.exists_cons_of_ne_nil nonempty
    obtain ⟨rest, taken, listed⟩ := Samples.takeOldest?_of_toList filled
    have evicted : window.evict.samples = rest := by
      unfold Window.evict
      rw [if_pos (show (window.size == window.capacity) = true from beq_iff_eq.mpr full), taken]
    have kept : others = (pushed.take (window.capacity - 1)).reverse := by
      have tails := congrArg List.tail (filled.symm.trans holds.listed)
      rw [List.tail_cons, List.tail_reverse, List.dropLast_eq_take, List.length_take,
        List.take_take, min_eq_left enough] at tails
      rw [tails, min_eq_left (Nat.sub_le window.capacity 1)]
    rw [evicted]
    refine ⟨listed.trans kept, ?_⟩
    rw [Samples.size_takeOldest? taken, holds.counted, filled, listed]
    rfl
  · have short : pushed.length ≤ window.capacity - 1 := by
      rcases Nat.le_total window.capacity pushed.length with enough | few
      · exact absurd (counted.trans (Nat.min_eq_left enough)) full
      · have same := counted.trans (Nat.min_eq_right few)
        omega
    have kept : window.evict = window := by
      unfold Window.evict
      exact if_neg (fun same => full (beq_iff_eq.mp same))
    rw [kept]
    refine ⟨?_, holds.counted⟩
    rw [holds.listed, List.take_of_length_le short,
      List.take_of_length_le (short.trans (Nat.sub_le _ 1))]

theorem push_capacity (window : Window α) (sample : α) :
    (window.push sample).capacity = window.capacity := by
  unfold push
  dsimp only
  split <;> exact evict_capacity window

theorem push_samples (window : Window α) (sample : α) :
    (window.push sample).samples = window.evict.samples.add sample := by
  unfold push
  dsimp only
  split <;> rfl

theorem Holds.push {window : Window α} {pushed : List α} (holds : window.Holds pushed)
    (sample : α) : (window.push sample).Holds (sample :: pushed) := by
  obtain ⟨listed, counted⟩ := holds.evict
  refine ⟨?_, ?_, ?_⟩
  · rw [push_capacity]
    exact holds.capacity_pos
  · obtain ⟨room, exact⟩ := Nat.exists_eq_add_of_lt holds.capacity_pos
    rw [push_capacity, push_samples, Samples.toList_add, listed, exact, Nat.zero_add,
      Nat.add_sub_cancel, List.take_succ_cons, List.reverse_cons]
  · rw [push_samples, Samples.toList_add, List.length_append, ← counted]
    rfl

end

def Exact (window : Window ℚ) : Prop := window.sum = window.samples.toList.sum

theorem exact_ofCapacity (capacity : Nat) : (ofCapacity capacity).Exact := Quantity.zero_rat

theorem exact_clear (window : Window ℚ) : window.clear.Exact := Quantity.zero_rat

theorem Exact.evict {window : Window ℚ} (exactSum : window.Exact) : window.evict.Exact := by
  unfold Window.evict
  split
  · cases listed : window.samples.toList with
    | nil =>
        have view := window.samples.toList_takeOldest?
        rw [listed] at view
        rw [Option.map_eq_none_iff.mp view]
        exact exactSum
    | cons oldest others =>
        obtain ⟨rest, taken, left⟩ := Samples.takeOldest?_of_toList listed
        rw [taken]
        change window.sum - oldest = rest.toList.sum
        rw [exactSum, listed, left, List.sum_cons, add_sub_cancel_left]
  · exact exactSum

/-- Correcting the running sum and taking it afresh come to the same. -/
theorem Exact.push {window : Window ℚ} (exactSum : window.Exact) (sample : ℚ) :
    (window.push sample).Exact := by
  have before := exactSum.evict
  unfold Window.push
  dsimp only
  split
  · exact Quantity.sum_rat _
  · change window.evict.sum + sample = (window.evict.samples.add sample).toList.sum
    rw [Samples.toList_add, List.sum_append, List.sum_singleton, before]

end Window

theorem Window.Holds.mean?_eq {window : Window ℚ} {pushed : List ℚ}
    (holds : window.Holds pushed) (exactSum : window.Exact) (present : pushed ≠ []) :
    window.mean? = some (mean (pushed.take window.capacity)) := by
  have kept : (pushed.take window.capacity).length = window.samples.size := by
    rw [holds.counted, holds.listed, List.length_reverse]
  have positive : window.samples.size ≠ 0 := by
    rw [holds.size_eq]
    have capacity_pos := holds.capacity_pos
    have length_pos := List.length_pos_iff.mpr present
    exact (Nat.lt_min.mpr ⟨capacity_pos, length_pos⟩).ne'
  have filled : window.isEmpty = false := beq_eq_false_iff_ne.mpr positive
  have summed : window.sum = (pushed.take window.capacity).sum := by
    rw [exactSum, holds.listed, List.sum_reverse]
  unfold Window.mean?
  rw [filled, if_neg Bool.false_ne_true]
  change some (window.sum / ((window.samples.size : Nat) : ℚ)) = _
  rw [summed, mean, kept]

theorem Window.Holds.mean_samples {window : Window ℚ} {pushed : List ℚ}
    (holds : window.Holds pushed) :
    mean window.samples.toList = mean (pushed.take window.capacity) := by
  unfold mean
  rw [holds.listed, List.sum_reverse, List.length_reverse]

end PipelineCapacity
