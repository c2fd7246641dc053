import Mathlib
import PipelineCapacity.Proofs.Decimal.Whole
import PipelineCapacity.Proofs.Pipeline.Demand
import PipelineCapacity.Proofs.Sign

/-!
An hour's records on its seconds, as running programs spread them. The whole
records are those of the amount up to the greatest whole number, each second has
a share of them that differs from any other by one at most, and the first
seconds have the larger shares. No share is rounded.
-/

set_option autoImplicit false

namespace PipelineCapacity

open Float.Model
open Float.Model.UnpackedFloat

namespace Binary64

variable {amount : Float} {exact : ℚ}

/-- The parts of an amount decide how many whole records it has. -/
theorem wholeRecords_unpack (amount : Float) :
    wholeRecords amount =
      if amount.toModel.unpack.isFinite && (UnpackedFloat.zero .positive).lt amount.toModel.unpack
      then amount.toModel.unpack.toUInt64.toNat else 0 := by
  have above : decide ((Quantity.zero : Float) < amount) =
      (UnpackedFloat.zero .positive).lt amount.toModel.unpack := by
    rw [← unpack_zero]
    change decide (decide ((Quantity.zero : Float).toModel.unpack.lt amount.toModel.unpack = true) =
      true) = _
    rw [Bool.decide_eq_true, Bool.decide_eq_true]
  unfold wholeRecords
  rw [above]
  rfl

/-- None of a negative amount, and of any other as many as there are. -/
theorem wholeRecords_of_value? (known : value? amount = some exact) :
    wholeRecords amount = Min.min ⌊exact⌋₊ maxWhole := by
  rw [wholeRecords_unpack]
  unfold value? at known
  cases parts : amount.toModel.unpack with
  | notANumber =>
      rw [parts] at known
      cases known
  | infinity sign =>
      rw [parts] at known
      cases known
  | zero sign =>
      rw [parts] at known
      cases known
      rw [Nat.floor_zero]
      rfl
  | finite sign mantissa exponent positive =>
      rw [parts] at known
      cases known
      cases sign with
      | negative =>
          have below : ((Sign.negative.apply mantissa : Int) : ℚ) * 2 ^ exponent ≤ 0 := by
            apply mul_nonpos_of_nonpos_of_nonneg
            · change ((-(mantissa : Int) : Int) : ℚ) ≤ 0
              simp
            · positivity
          rw [Nat.floor_of_nonpos below]
          rfl
      | positive => exact toNat_toUInt64 positive

theorem wholeRecords_of_not_finite (unknown : value? amount = none) : wholeRecords amount = 0 := by
  rw [wholeRecords_unpack]
  unfold value? at unknown
  cases parts : amount.toModel.unpack with
  | notANumber => rfl
  | infinity sign => rfl
  | zero sign =>
      rw [parts] at unknown
      cases unknown
  | finite sign mantissa exponent positive =>
      rw [parts] at unknown
      cases unknown

end Binary64

section Shares

variable {total second seconds : Nat}

/-- The part of the total that is left for a second and those an hour of seconds
apart, rounded up. -/
theorem secondShare_eq_ceil (inside : second < secondsPerHour) :
    secondShare total second =
      if second < total then ⌈((total : ℚ) - second) / 3600⌉₊ else 0 := by
  unfold secondsPerHour at inside
  by_cases early : second < total
  · have bounds : 0 < secondShare total second ∧
        (secondShare total second - 1) * 3600 + second < total ∧
        total ≤ secondShare total second * 3600 + second := by
      unfold secondShare secondsPerHour
      split <;> omega
    obtain ⟨positive, low, high⟩ := bounds
    rw [if_pos early, eq_comm, Nat.ceil_eq_iff positive.ne', lt_div_iff₀ (by norm_num),
      div_le_iff₀ (by norm_num), lt_sub_iff_add_lt, sub_le_iff_le_add]
    exact ⟨by exact_mod_cast low, by exact_mod_cast high⟩
  · rw [if_neg early]
    unfold secondShare secondsPerHour
    split <;> omega

theorem secondShare_le_succ (total first second : Nat) :
    secondShare total first ≤ secondShare total second + 1 := by
  unfold secondShare
  split <;> split <;> omega

theorem secondShare_lt (bounded : total ≤ maxWhole) (second : Nat) :
    secondShare total second < 2 ^ 53 := by
  unfold maxWhole at bounded
  unfold secondShare secondsPerHour
  split <;> omega

/-- The larger shares come first, so no second falls behind an even flow. -/
theorem le_sum_secondShare (within : seconds ≤ secondsPerHour) :
    seconds * total ≤ 3600 * ((List.range seconds).map (secondShare total)).sum := by
  have split := Nat.div_add_mod total secondsPerHour
  have proper : total % secondsPerHour < secondsPerHour := Nat.mod_lt total (by decide)
  rw [sum_secondShare_range]
  unfold secondsPerHour at *
  generalize total / 3600 = each at *
  generalize total % 3600 = rest at *
  change _ ≤ 3600 * (seconds * each + min seconds rest)
  have spare : seconds * rest ≤ 3600 * min seconds rest := by
    rcases Nat.le_total seconds rest with fewer | more
    · rw [min_eq_left fewer, Nat.mul_comm seconds]
      exact Nat.mul_le_mul_right seconds proper.le
    · rw [min_eq_right more]
      exact Nat.mul_le_mul_right rest within
  calc
    seconds * total = 3600 * (seconds * each) + seconds * rest := by
      rw [← split]
      ring
    _ ≤ 3600 * (seconds * each) + 3600 * min seconds rest := Nat.add_le_add_left spare _
    _ = 3600 * (seconds * each + min seconds rest) := (Nat.mul_add _ _ _).symm

end Shares

/-- A finite amount that is not negative is spread in whole records, rounded down
and at most 2 ^ 64 - 1 of them. Their shares fall from second to second and differ by
one at most, none is lost in a sum of words of 64 places or in the number it is
kept as, and at no second less has come than in an even flow. Any other amount
has no records. -/
theorem spreadOverSeconds_even (records : Float) :
    (∀ amount, Binary64.value? records = some amount → 0 ≤ amount →
      let total := min ⌊amount⌋₊ (2 ^ 64 - 1)
      ∃ shares : List Nat,
        (spreadOverSeconds records).map Binary64.value? =
          shares.map (fun share : Nat => some (share : ℚ)) ∧
        shares.length = 3600 ∧
        shares.Pairwise (· ≥ ·) ∧
        (∀ share ∈ shares, ∀ other ∈ shares, share ≤ other + 1) ∧
        shares.sum = total ∧
        (∀ second < 3600, shares[second]? =
          some (if second < total then ⌈((total : ℚ) - second) / 3600⌉₊ else 0)) ∧
        (∀ share ∈ shares, share < 2 ^ 64) ∧
        ∀ seconds : Nat, seconds ≤ 3600 →
          (seconds : ℚ) * (total : ℚ) / 3600 ≤ ((shares.take seconds).sum : ℚ)) ∧
    (Binary64.value? records = none ∨
        (∃ amount < 0, Binary64.value? records = some amount) →
      spreadOverSeconds records = List.replicate 3600 0) := by
  constructor
  · intro amount known nonneg total
    have counted : wholeRecords records = total := Binary64.wholeRecords_of_value? known
    have bounded : total ≤ maxWhole := min_le_right _ _
    refine ⟨(List.range secondsPerHour).map (secondShare total), ?_, ?_, ?_, ?_, ?_, ?_, ?_, ?_⟩
    · unfold spreadOverSeconds
      rw [counted, List.map_map, List.map_map]
      exact List.map_congr_left fun second _ =>
        Binary64.value?_ofNat (secondShare_lt bounded second)
    · rw [List.length_map, List.length_range]
      rfl
    · apply List.Pairwise.map _ _ List.pairwise_lt_range
      exact fun _ _ later => secondShare_antitone total later.le
    · intro share member other present
      obtain ⟨first, _, rfl⟩ := List.mem_map.mp member
      obtain ⟨second, _, rfl⟩ := List.mem_map.mp present
      exact secondShare_le_succ total first second
    · exact sum_secondShare total
    · intro second inside
      have there : (List.range secondsPerHour)[second]? = some second :=
        List.getElem?_range inside
      rw [List.getElem?_map, there, Option.map_some, secondShare_eq_ceil inside]
    · intro share member
      obtain ⟨second, _, rfl⟩ := List.mem_map.mp member
      exact (secondShare_lt bounded second).trans (by decide)
    · intro seconds within
      have first : min seconds secondsPerHour = seconds := min_eq_left within
      rw [← List.map_take, List.take_range, first, div_le_iff₀ (by norm_num),
        mul_comm _ (3600 : ℚ)]
      exact_mod_cast le_sum_secondShare within
  · intro unfit
    have vacant : wholeRecords records = 0 := by
      rcases unfit with unknown | ⟨amount, negative, known⟩
      · exact Binary64.wholeRecords_of_not_finite unknown
      · rw [Binary64.wholeRecords_of_value? known, Nat.floor_of_nonpos negative.le]
        rfl
    have share (second : Nat) : secondShare 0 second = 0 := rfl
    unfold spreadOverSeconds
    simp only [vacant, share]
    rw [List.map_const', List.length_range]
    exact congrArg (List.replicate secondsPerHour) rfl

/-- Two hours of 3600 records, one more and a half. -/
theorem spreadOverSeconds_even_halfRecord :
    (Binary64.value? 7201.5 = some (14403 / 2) ∧ (0 : ℚ) ≤ 14403 / 2 ∧
      ∃ amount < 0, Binary64.value? (-3) = some amount) ∧
    (∃ shares : List Nat,
      (spreadOverSeconds (7201.5 : Float)).map Binary64.value? =
        shares.map (fun share : Nat => some (share : ℚ)) ∧
      shares.sum = 7201 ∧ shares[0]? = some 3 ∧ shares[1]? = some 2) ∧
    spreadOverSeconds (-3 : Float) = List.replicate 3600 0 := by
  have known : Binary64.value? 7201.5 = some (14403 / 2) := by decide +kernel
  have nonneg : (0 : ℚ) ≤ 14403 / 2 := by norm_num
  have negative : ∃ amount < 0, Binary64.value? (-3) = some amount :=
    ⟨-3, by norm_num, by decide +kernel⟩
  have whole : min ⌊(14403 / 2 : ℚ)⌋₊ (2 ^ 64 - 1) = 7201 := by
    have floor : ⌊(14403 / 2 : ℚ)⌋₊ = 7201 := by
      rw [Nat.floor_eq_iff nonneg]
      norm_num
    rw [floor]
    rfl
  obtain ⟨shares, spread, _, _, _, sum, share, _, _⟩ :=
    (spreadOverSeconds_even 7201.5).1 _ known nonneg
  have first := share 0 (by decide)
  have second := share 1 (by decide)
  rw [whole] at sum first second
  refine ⟨⟨known, nonneg, negative⟩, ⟨shares, spread, sum, ?_, ?_⟩,
    (spreadOverSeconds_even (-3)).2 (.inr negative)⟩
  · rw [first]
    decide +kernel
  · rw [second]
    decide +kernel

end PipelineCapacity
