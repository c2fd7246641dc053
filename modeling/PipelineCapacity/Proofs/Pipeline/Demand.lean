import Mathlib.Algebra.BigOperators.Ring.Finset
import Mathlib.Order.Monotone.Basic
import PipelineCapacity.Pipeline.Model
import PipelineCapacity.Proofs.Exact

/-!
How an hour's records fall on its seconds: the shares add up to the whole
records of the hour, and no second has more than one before it. The units that
answer a demand are at least one.
-/

set_option autoImplicit false

namespace PipelineCapacity

theorem secondShare_antitone (total : Nat) : Antitone (secondShare total) := by
  intro first second later
  unfold secondShare
  by_cases extra : second < total % secondsPerHour
  · rw [if_pos extra, if_pos (lt_of_le_of_lt later extra)]
  · rw [if_neg extra]
    exact Nat.le_add_right _ _

theorem sum_secondShare_range (total seconds : Nat) :
    ((List.range seconds).map (secondShare total)).sum =
      seconds * (total / secondsPerHour) + Nat.min seconds (total % secondsPerHour) := by
  induction seconds with
  | zero => simp
  | succ seconds ih =>
      rw [List.range_succ, List.map_append, List.sum_append, ih, List.map_singleton,
        List.sum_singleton, secondShare, Nat.succ_mul]
      change _ = _ + min (seconds + 1) (total % secondsPerHour)
      change _ + min seconds (total % secondsPerHour) + _ = _
      by_cases extra : seconds < total % secondsPerHour
      · rw [if_pos extra, min_eq_left extra.le, min_eq_left extra]
        omega
      · rw [if_neg extra, min_eq_right (not_lt.mp extra),
          min_eq_right (Nat.le_succ_of_le (not_lt.mp extra))]
        omega

theorem sum_secondShare (total : Nat) :
    ((List.range secondsPerHour).map (secondShare total)).sum = total := by
  have left : total % secondsPerHour ≤ secondsPerHour :=
    (Nat.mod_lt total (by decide : 0 < secondsPerHour)).le
  rw [sum_secondShare_range]
  change _ + min secondsPerHour (total % secondsPerHour) = total
  rw [min_eq_right left]
  exact Nat.div_add_mod total secondsPerHour

/-- The whole records of an exact amount, none of a negative one. -/
theorem wholeRecords_rat (records : ℚ) :
    wholeRecords records = Min.min ⌊records⌋.toNat maxWhole := by
  rw [← Quantity.truncate_rat]
  unfold wholeRecords
  by_cases positive : (Quantity.zero : ℚ) < records
  · rw [if_pos (by rw [decide_eq_true positive]; rfl)]
  · rw [if_neg (by rw [decide_eq_false positive, Bool.and_false]; exact Bool.false_ne_true)]
    rw [Quantity.zero_rat, not_lt] at positive
    have whole : ⌊records⌋ ≤ 0 := Int.floor_nonpos positive
    rw [Quantity.truncate_rat, Int.toNat_eq_zero.mpr whole, Nat.zero_min]

theorem wholeRecords_floor {records : ℚ} (nonneg : 0 ≤ records) (bounded : records < 2 ^ 64) :
    (wholeRecords records : ℚ) = (⌊records⌋ : ℚ) := by
  have floorNonneg : 0 ≤ ⌊records⌋ := Int.floor_nonneg.mpr nonneg
  have floorBound : ⌊records⌋ < 2 ^ 64 := by
    rw [Int.floor_lt]
    exact_mod_cast bounded
  have fits : ⌊records⌋.toNat ≤ maxWhole := by
    unfold maxWhole
    omega
  rw [wholeRecords_rat, min_eq_left fits]
  exact_mod_cast congrArg (fun whole : Int => (whole : ℚ)) (Int.toNat_of_nonneg floorNonneg)

theorem spreadOverSeconds_rat (records : ℚ) :
    spreadOverSeconds records =
      ((List.range secondsPerHour).map (secondShare (wholeRecords records))).map Nat.cast := by
  rw [List.map_map]
  rfl

theorem length_spreadOverSeconds {α : Type} [Quantity α] (records : α) :
    (spreadOverSeconds records).length = secondsPerHour := by
  unfold spreadOverSeconds
  rw [List.length_map, List.length_range]

theorem spreadOverSeconds_ne_nil {α : Type} [Quantity α] (records : α) :
    spreadOverSeconds records ≠ [] := by
  apply List.ne_nil_of_length_pos
  rw [length_spreadOverSeconds]
  decide

theorem sum_spreadOverSeconds (records : ℚ) :
    (spreadOverSeconds records).sum = (wholeRecords records : ℚ) := by
  rw [spreadOverSeconds_rat, ← Nat.cast_list_sum, sum_secondShare]

theorem spreadOverSeconds_falling (records : ℚ) :
    (spreadOverSeconds records).Pairwise (· ≥ ·) := by
  rw [spreadOverSeconds_rat, List.map_map]
  apply List.Pairwise.map _ _ List.pairwise_lt_range
  intro first second later
  exact Nat.cast_le.mpr (secondShare_antitone _ later.le)

theorem spreadOverSeconds_nonneg {records amount : ℚ}
    (member : amount ∈ spreadOverSeconds records) : 0 ≤ amount := by
  rw [spreadOverSeconds_rat] at member
  obtain ⟨share, _, rfl⟩ := List.mem_map.mp member
  exact Nat.cast_nonneg share

theorem le_raiseUnits {α : Type} [Quantity α] (incoming unitCapacity : α) (units : Nat) :
    units ≤ raiseUnits incoming unitCapacity units := by
  induction units using raiseUnits.induct incoming unitCapacity with
  | case1 units short ih =>
      rw [raiseUnits, dif_pos short]
      exact (Nat.le_succ units).trans ih
  | case2 units enough =>
      rw [raiseUnits, dif_neg enough]

theorem one_le_unitsFor (incoming unitCapacity : ℚ) : 1 ≤ unitsFor incoming unitCapacity := by
  have atLeastOne : 1 ≤ Quantity.toUnits
      (Quantity.max (Quantity.ceil (incoming / unitCapacity)) Quantity.one) := by
    rw [Quantity.max_rat, Quantity.one_rat, Quantity.toUnits, Quantity.truncate_rat]
    have floor : (1 : ℤ) ≤ ⌊Max.max (Quantity.ceil (incoming / unitCapacity)) 1⌋ :=
      Int.le_floor.mpr (by exact_mod_cast le_max_right _ _)
    have whole : 1 ≤ ⌊Max.max (Quantity.ceil (incoming / unitCapacity)) 1⌋.toNat := by omega
    exact Nat.le_min.mpr ⟨le_min whole (by decide), by decide⟩
  exact atLeastOne.trans (le_raiseUnits incoming unitCapacity _)

end PipelineCapacity
