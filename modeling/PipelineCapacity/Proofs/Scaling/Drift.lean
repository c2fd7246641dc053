import Mathlib.Data.List.DropRight
import PipelineCapacity.Proofs.Scaling.Window

/-!
How far back the running sum of a window reaches, in any arithmetic.

Nothing is assumed of sums and differences, so a correction may round, and an
amount that is not a number may spoil all that come after it. But after every
full turn the sum is taken afresh from the samples that are held. What a window
shows is therefore a function of the samples of its last full turn and those
since. Sequences of samples are given oldest first.
-/

set_option autoImplicit false

namespace PipelineCapacity.Window

open Quantity (ofNat zero)

section

variable {α : Type} [Quantity α]

/-- Windows that calls lead to, with the samples pushed since the window was new
or was last cleared. -/
inductive Reached (capacity : Nat) : Window α → List α → Prop
  | new : Reached capacity (.ofCapacity capacity) []
  | clear {window : Window α} {pushed : List α} (reached : Reached capacity window pushed) :
      Reached capacity window.clear []
  | push {window : Window α} {pushed : List α} (reached : Reached capacity window pushed)
      (sample : α) : Reached capacity (window.push sample) (pushed ++ [sample])

/-- What a sum becomes when samples enter one by one, and for each of them the
oldest of those held leaves before it. -/
def correct (sum : α) (held entered : List α) : α :=
  (held.zip entered).foldl (fun sum change => sum - change.1 + change.2) sum

theorem correct_nil (sum : α) (held : List α) : correct sum held [] = sum := by
  unfold correct
  rw [List.zip_nil_right]
  rfl

theorem correct_concat {sum oldest : α} {gone rest entered : List α}
    (counted : gone.length = entered.length) (sample : α) :
    correct sum (gone ++ oldest :: rest) (entered ++ [sample]) =
      correct sum (gone ++ oldest :: rest) entered - oldest + sample := by
  have before : (gone ++ oldest :: rest).zip entered = gone.zip entered := by
    conv_lhs => rw [← List.append_nil entered, List.zip_append counted]
    rw [List.zip_nil_right, List.append_nil]
  unfold correct
  rw [before, List.zip_append counted, List.foldl_append, List.zip_cons_cons, List.zip_nil_right]
  rfl

/-- The sum out of the samples of all full turns and those since. Before the
first turn is full nothing leaves. -/
def runningSum (capacity : Nat) (turns since : List α) : α :=
  match turns with
  | [] => since.foldl (· + ·) zero
  | _ => correct (Quantity.sum (turns.rtake capacity)) (turns.rtake capacity) since

theorem runningSum_of_turns {turns : List α} (present : turns ≠ []) (capacity : Nat)
    (since : List α) :
    runningSum capacity turns since =
      correct (Quantity.sum (turns.rtake capacity)) (turns.rtake capacity) since := by
  cases turns with
  | nil => exact absurd rfl present
  | cons first rest => rfl

/-- The mean out of the samples of the last full turn and those since, given
together. -/
def recentMean? (capacity : Nat) (recent : List α) : Option α :=
  if recent = [] then none
  else if recent.length < capacity then some (recent.foldl (· + ·) zero / ofNat recent.length)
  else
    let held := recent.take capacity
    some (correct (Quantity.sum held) held (recent.drop capacity) / ofNat capacity)

structure Turning (window : Window α) (turns since : List α) : Prop where
  holds : window.Holds (turns ++ since).reverse
  whole : window.capacity ∣ turns.length
  turned : window.turned = since.length
  early : since.length < window.capacity
  sum : window.sum = runningSum window.capacity turns since

omit [Quantity α] in
theorem Holds.toList_eq {window : Window α} {pushed : List α}
    (holds : window.Holds pushed.reverse) :
    window.samples.toList = pushed.rtake window.capacity := by
  rw [holds.listed, List.rtake_eq_reverse_take_reverse]

omit [Quantity α] in
theorem rtake_append (turns since : List α) (count : Nat) :
    (turns ++ since).rtake (count + since.length) = turns.rtake count ++ since := by
  unfold List.rtake
  rw [List.length_append, Nat.add_sub_add_right,
    List.drop_append_of_le_length (Nat.sub_le _ count)]

omit [Quantity α] in
/-- Since the last turn as many samples have left as have entered. -/
theorem rtake_of_since {turns since : List α} {count : Nat} (enough : count ≤ turns.length)
    (early : since.length ≤ count) :
    (turns ++ since).rtake count = (turns.rtake count).drop since.length ++ since := by
  obtain ⟨rest, rfl⟩ := Nat.exists_eq_add_of_le' early
  rw [rtake_append]
  unfold List.rtake
  rw [List.drop_drop]
  congr 2
  omega

omit [Quantity α] in
theorem length_rtake_of_le {turns : List α} {count : Nat} (enough : count ≤ turns.length) :
    (turns.rtake count).length = count := by
  unfold List.rtake
  rw [List.length_drop]
  omega

theorem evict_sum_of_full {window : Window α} {oldest : α} {others : List α}
    (full : window.samples.size = window.capacity)
    (listed : window.samples.toList = oldest :: others) :
    window.evict.sum = window.sum - oldest := by
  obtain ⟨rest, taken, _⟩ := Samples.takeOldest?_of_toList listed
  unfold evict
  rw [if_pos (show (window.size == window.capacity) = true from beq_iff_eq.mpr full), taken]

theorem evict_of_room {window : Window α} (room : window.samples.size ≠ window.capacity) :
    window.evict = window := by
  unfold evict
  exact if_neg fun same => room (beq_iff_eq.mp same)

theorem evict_turned (window : Window α) : window.evict.turned = window.turned := by
  unfold evict
  split
  · split <;> rfl
  · rfl

/-- The push that makes a turn full takes the sum afresh. -/
theorem push_of_full_turn {window : Window α} (full : window.turned + 1 = window.capacity)
    (sample : α) :
    (window.push sample).turned = 0 ∧
      (window.push sample).sum = Quantity.sum (window.push sample).samples.toList := by
  unfold push
  dsimp only
  rw [evict_capacity, evict_turned, if_pos full.ge]
  exact ⟨rfl, rfl⟩

theorem push_of_early {window : Window α} (early : window.turned + 1 < window.capacity)
    (sample : α) :
    (window.push sample).turned = window.turned + 1 ∧
      (window.push sample).sum = window.evict.sum + sample := by
  unfold push
  dsimp only
  rw [evict_capacity, evict_turned, if_neg (not_le.mpr early)]
  exact ⟨rfl, rfl⟩

namespace Turning

variable {window : Window α} {turns since : List α}

theorem capacity_le (turning : window.Turning turns since) (present : turns ≠ []) :
    window.capacity ≤ turns.length :=
  Nat.le_of_dvd (List.length_pos_iff.mpr present) turning.whole

theorem size_of_first (turning : window.Turning [] since) :
    window.samples.size = since.length := by
  rw [turning.holds.size_eq, List.length_reverse, List.nil_append]
  exact Nat.min_eq_right turning.early.le

/-- The window is full from the end of the first turn on. -/
theorem size_of_turns (turning : window.Turning turns since) (present : turns ≠ []) :
    window.samples.size = window.capacity := by
  rw [turning.holds.size_eq, List.length_reverse, List.length_append]
  exact Nat.min_eq_left ((turning.capacity_le present).trans (Nat.le_add_right _ _))

/-- The oldest of the samples held at the last turn that are still held. -/
theorem exists_oldest (turning : window.Turning turns since) (present : turns ≠ []) :
    ∃ gone oldest rest, turns.rtake window.capacity = gone ++ oldest :: rest ∧
      gone.length = since.length ∧
      window.samples.toList = oldest :: (rest ++ since) := by
  have enough := turning.capacity_le present
  have inside : since.length < (turns.rtake window.capacity).length := by
    rw [length_rtake_of_le enough]
    exact turning.early
  have left : (turns.rtake window.capacity).drop since.length ≠ [] := by
    rw [ne_eq, List.drop_eq_nil_iff, not_le]
    exact inside
  obtain ⟨oldest, rest, dropped⟩ := List.exists_cons_of_ne_nil left
  refine ⟨(turns.rtake window.capacity).take since.length, oldest, rest, ?_,
    List.length_take_of_le inside.le, ?_⟩
  · rw [← dropped, List.take_append_drop]
  · rw [turning.holds.toList_eq, rtake_of_since enough turning.early.le, dropped, List.cons_append]

/-- A sample that enters replaces the oldest one, if there were turns before. -/
theorem evict_sum (turning : window.Turning turns since) (sample : α) :
    window.evict.sum + sample = runningSum window.capacity turns (since ++ [sample]) := by
  by_cases present : turns = []
  · subst present
    have room : window.samples.size ≠ window.capacity := by
      rw [turning.size_of_first]
      exact turning.early.ne
    rw [evict_of_room room, turning.sum]
    change since.foldl (· + ·) zero + sample = (since ++ [sample]).foldl (· + ·) zero
    rw [List.foldl_append]
    rfl
  · obtain ⟨gone, oldest, rest, held, counted, listed⟩ := turning.exists_oldest present
    rw [evict_sum_of_full (turning.size_of_turns present) listed, turning.sum,
      runningSum_of_turns present, runningSum_of_turns present, held, correct_concat counted]

theorem push (turning : window.Turning turns since) (sample : α) :
    ∃ nextTurns nextSince, nextTurns ++ nextSince = turns ++ since ++ [sample] ∧
      (window.push sample).Turning nextTurns nextSince := by
  have holds := turning.holds.push sample
  rw [← List.reverse_concat] at holds
  have kept := push_capacity window sample
  have turned := turning.turned
  rcases Nat.lt_or_ge (since.length + 1) window.capacity with early | late
  · obtain ⟨count, sum⟩ := push_of_early (turned.symm ▸ early) sample
    refine ⟨turns, since ++ [sample], (List.append_assoc _ _ _).symm, ?_, ?_, ?_, ?_, ?_⟩
    · rwa [← List.append_assoc]
    · exact kept.symm ▸ turning.whole
    · rw [count, turned, List.length_append, List.length_singleton]
    · rwa [kept, List.length_append, List.length_singleton]
    · rw [sum, kept, turning.evict_sum]
  · have full : since.length + 1 = window.capacity := Nat.le_antisymm turning.early late
    obtain ⟨count, sum⟩ := push_of_full_turn (turned.symm ▸ full) sample
    refine ⟨turns ++ since ++ [sample], [], List.append_nil _, ?_, ?_, count, ?_, ?_⟩
    · rwa [List.append_nil]
    · rw [kept, List.length_append, List.length_append, List.length_singleton, Nat.add_assoc, full]
      exact (Nat.dvd_add_self_right).mpr turning.whole
    · exact kept.symm ▸ turning.holds.capacity_pos
    · have present : turns ++ since ++ [sample] ≠ [] := by simp
      rw [sum, holds.toList_eq, kept, runningSum_of_turns present]
      exact (correct_nil _ _).symm

theorem since_length (turning : window.Turning turns since) :
    (turns ++ since).length % window.capacity = since.length := by
  obtain ⟨count, whole⟩ := turning.whole
  rw [List.length_append, whole, Nat.mul_add_mod, Nat.mod_eq_of_lt turning.early]

theorem turns_length (turning : window.Turning turns since) :
    window.capacity * ((turns ++ since).length / window.capacity) = turns.length := by
  have parts := Nat.div_add_mod (turns ++ since).length window.capacity
  rw [turning.since_length, List.length_append] at parts
  rw [List.length_append]
  exact Nat.add_right_cancel parts

theorem mean?_eq (turning : window.Turning turns since) :
    window.mean? = recentMean? window.capacity
      ((turns ++ since).rtake (window.capacity + since.length)) := by
  rw [rtake_append]
  unfold mean? isEmpty size recentMean?
  rw [turning.sum]
  by_cases present : turns = []
  · subst present
    rw [turning.size_of_first, List.rtake_nil, List.nil_append, if_pos turning.early]
    cases since <;> rfl
  · have length := length_rtake_of_le (turning.capacity_le present)
    have positive := turning.holds.capacity_pos
    have reach : ¬(turns.rtake window.capacity ++ since).length < window.capacity := by
      rw [List.length_append, length]
      omega
    have filled : turns.rtake window.capacity ++ since ≠ [] := by
      rw [← List.length_pos_iff]
      omega
    have counted : (window.capacity == 0) = false := beq_eq_false_iff_ne.mpr positive.ne'
    rw [turning.size_of_turns present, counted, if_neg Bool.false_ne_true, if_neg filled,
      if_neg reach, List.take_left' length, List.drop_left' length, runningSum_of_turns present]

end Turning

theorem Reached.turning {capacity : Nat} {window : Window α} {pushed : List α}
    (reached : Reached capacity window pushed) :
    window.capacity = Nat.max capacity 1 ∧
      ∃ turns since, turns ++ since = pushed ∧ window.Turning turns since := by
  induction reached with
  | new =>
      have holds : (ofCapacity capacity : Window α).Holds [] := holds_ofCapacity capacity
      exact ⟨rfl, [], [], rfl, holds, Nat.dvd_zero _, rfl, holds.capacity_pos, rfl⟩
  | @clear window pushed _ ih =>
      obtain ⟨same, turns, since, _, turning⟩ := ih
      have positive := turning.holds.capacity_pos
      exact ⟨same, [], [], rfl, holds_clear positive, Nat.dvd_zero _, rfl, positive, rfl⟩
  | @push window pushed _ sample ih =>
      obtain ⟨same, turns, since, rfl, turning⟩ := ih
      exact ⟨(push_capacity window sample).trans same, turning.push sample⟩

/-- Every sequence of samples can be pushed. -/
theorem reached_pushed (capacity : Nat) (pushed : List α) :
    Reached capacity (pushed.foldl push (ofCapacity capacity)) pushed := by
  induction pushed using List.reverseRecOn with
  | nil => exact .new
  | append_singleton pushed sample ih =>
      rw [List.foldl_append]
      exact ih.push sample

end

theorem Reached.exact {capacity : Nat} {window : Window ℚ} {pushed : List ℚ}
    (reached : Reached capacity window pushed) : window.Exact := by
  induction reached with
  | new => exact exact_ofCapacity capacity
  | clear _ _ => exact exact_clear _
  | push _ sample ih => exact ih.push sample

theorem Reached.mean?_rat {capacity : Nat} {window : Window ℚ} {pushed : List ℚ}
    (reached : Reached capacity window pushed) :
    window.mean? =
      if pushed = [] then none else some (mean (pushed.rtake (Nat.max capacity 1))) := by
  obtain ⟨same, turns, since, rfl, turning⟩ := reached.turning
  by_cases vacant : turns ++ since = []
  · rw [if_pos vacant, turning.mean?_eq, vacant, List.rtake_nil]
    rfl
  · have present : (turns ++ since).reverse ≠ [] :=
      fun none => vacant (List.reverse_eq_nil_iff.mp none)
    rw [if_neg vacant, turning.holds.mean?_eq reached.exact present, ← turning.holds.mean_samples,
      turning.holds.toList_eq, same]

/-- After any pushes a window holds the newest samples in their order. Once it
has been full its sum is that of the samples at the last full turn, taken afresh
and corrected once for each push since, so its mean is the same after all
sequences of samples that agree on the last turn and what came after it. In
exact arithmetic it is the mean of the samples that are held. -/
theorem drift_bounded :
    (∀ (α : Type) [Quantity α] (capacity : Nat) (window : Window α) (pushed : List α),
      Reached capacity window pushed →
        let limit := Nat.max capacity 1
        let turn := limit * (pushed.length / limit)
        let held := (pushed.take turn).rtake limit
        let entered := pushed.drop turn
        window.samples.toList = pushed.rtake limit ∧
        window.size = Nat.min pushed.length limit ∧
        window.turned = pushed.length % limit ∧
        (limit ≤ pushed.length →
          held.length = limit ∧ entered.length = pushed.length % limit ∧
          window.sum = (held.zip entered).foldl
            (fun sum change => sum - change.1 + change.2) (Quantity.sum held)) ∧
        ∀ (other : Window α) (history : List α), Reached capacity other history →
          history.length % limit = pushed.length % limit →
          history.rtake (limit + pushed.length % limit) =
            pushed.rtake (limit + pushed.length % limit) →
          other.mean? = window.mean?) ∧
    ∀ (capacity : Nat) (window : Window ℚ) (pushed : List ℚ), Reached capacity window pushed →
      window.mean? =
        if pushed = [] then none else some (mean (pushed.rtake (Nat.max capacity 1))) := by
  refine ⟨?_, fun capacity window pushed reached => reached.mean?_rat⟩
  intro α _ capacity window pushed reached limit turn held entered
  obtain ⟨same, turns, since, rfl, turning⟩ := reached.turning
  replace same : window.capacity = limit := same
  have counted := turning.since_length
  have whole : turn = turns.length := by
    rw [← turning.turns_length, same]
  rw [same] at counted
  have heldTurns : held = turns.rtake limit := by
    change ((turns ++ since).take turn).rtake limit = _
    rw [whole, List.take_left]
  have enteredSince : entered = since := by
    change (turns ++ since).drop turn = since
    rw [whole, List.drop_left]
  refine ⟨?_, ?_, ?_, ?_, ?_⟩
  · rw [turning.holds.toList_eq, same]
  · have size := turning.holds.size_eq
    rw [List.length_reverse, same] at size
    exact size.trans (Nat.min_comm _ _)
  · rw [turning.turned, counted]
  · intro enough
    have present : turns ≠ [] := by
      intro none
      have early := turning.early
      rw [none, List.nil_append] at enough
      omega
    rw [heldTurns, enteredSince, counted, ← same]
    exact ⟨length_rtake_of_le (turning.capacity_le present), rfl,
      turning.sum.trans (runningSum_of_turns present _ _)⟩
  · intro other history others residue recent
    obtain ⟨otherSame, otherTurns, otherSince, rfl, otherTurning⟩ := others.turning
    replace otherSame : other.capacity = limit := otherSame
    have otherCounted := otherTurning.since_length
    rw [otherSame] at otherCounted
    rw [turning.mean?_eq, otherTurning.mean?_eq, same, otherSame, ← otherCounted, residue, recent,
      counted]

/-- What was pushed before the last turn leaves no trace, not even if the sum
was no number for a while; in exact arithmetic there never is one. -/
theorem drift_bounded_afterSpoiling :
    (∃ window other : Window Float,
      Reached 2 window [0 / 0, 1 / 0, 2, 3, 4] ∧ Reached 2 other [2, 3, 4] ∧
        window.samples.toList = [3, 4] ∧ window.turned = 1 ∧
        window.sum = Quantity.sum [2, 3] - 2 + 4 ∧ other.mean? = window.mean?) ∧
    ∃ exact : Window ℚ, Reached 2 exact [1000, 2, 3, 4] ∧ exact.mean? = some (7 / 2) := by
  obtain ⟨any, rational⟩ := drift_bounded
  constructor
  · obtain ⟨window, reached⟩ : ∃ window : Window Float, Reached 2 window [0 / 0, 1 / 0, 2, 3, 4] :=
      ⟨_, reached_pushed 2 _⟩
    obtain ⟨other, others⟩ : ∃ other : Window Float, Reached 2 other [2, 3, 4] :=
      ⟨_, reached_pushed 2 _⟩
    obtain ⟨listed, _, turned, summed, means⟩ := any Float 2 window _ reached
    exact ⟨window, other, reached, others, listed, turned, (summed (by decide)).2.2,
      means other _ others rfl rfl⟩
  · obtain ⟨exact, reached⟩ : ∃ exact : Window ℚ, Reached 2 exact [1000, 2, 3, 4] :=
      ⟨_, reached_pushed 2 _⟩
    have last : ([1000, 2, 3, 4] : List ℚ).rtake (Nat.max 2 1) = [3, 4] := rfl
    refine ⟨exact, reached, ?_⟩
    rw [rational 2 exact _ reached, if_neg (List.cons_ne_nil _ _), last]
    norm_num [mean]

end PipelineCapacity.Window
