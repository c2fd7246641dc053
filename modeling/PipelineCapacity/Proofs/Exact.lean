import Mathlib.Algebra.Order.BigOperators.Group.List
import Mathlib.Algebra.Order.Field.Rat
import Mathlib.Data.Rat.Floor
import Mathlib.Tactic.Linarith
import Mathlib.Tactic.Ring
import PipelineCapacity.InvalidParameter

/-!
Exact amounts. Over the rational numbers the operations every rule is written
with are the ordinary ones, every amount is finite and comparable, and the two
checks on amounts are the ordinary comparisons.

Where amounts are only compared with zero, as by the checks, it is enough of an
arithmetic that a product of amounts none of which is below zero is not below
zero either. The rational numbers have this.
-/

set_option autoImplicit false

namespace PipelineCapacity

namespace Quantity

@[simp]
theorem zero_rat : (zero : ℚ) = 0 := Nat.cast_zero

@[simp]
theorem one_rat : (one : ℚ) = 1 := Nat.cast_one

@[simp]
theorem ofNat_rat (count : Nat) : (ofNat count : ℚ) = (count : ℚ) := rfl

@[simp]
theorem min_rat (left right : ℚ) : Quantity.min left right = Min.min left right := by
  unfold Quantity.min isComparable
  rw [if_pos (beq_self_eq_true right)]
  by_cases smaller : left < right
  · rw [if_pos smaller, min_eq_left smaller.le]
  · rw [if_neg smaller, min_eq_right (not_lt.mp smaller)]

@[simp]
theorem max_rat (left right : ℚ) : Quantity.max left right = Max.max left right := by
  unfold Quantity.max isComparable
  rw [if_pos (beq_self_eq_true right)]
  by_cases larger : right < left
  · rw [if_pos larger, max_eq_left larger.le]
  · rw [if_neg larger, max_eq_right (not_lt.mp larger)]

@[simp]
theorem sum_rat (amounts : List ℚ) : Quantity.sum amounts = amounts.sum :=
  List.sum_eq_foldl.symm

@[simp]
theorem ceil_rat (amount : ℚ) : ceil amount = (⌈amount⌉ : ℚ) :=
  congrArg Int.cast (Rat.ceil_eq_neg_floor_neg amount)

theorem truncate_rat (amount : ℚ) : truncate amount = Min.min ⌊amount⌋.toNat maxWhole := rfl

end Quantity

theorem isNonNegative_rat (amount : ℚ) : isNonNegative amount = true ↔ 0 ≤ amount := by
  change (true && !decide (amount < Quantity.zero)) = true ↔ 0 ≤ amount
  rw [Quantity.zero_rat, Bool.true_and, Bool.not_eq_true', decide_eq_false_iff_not, not_lt]

theorem isPositive_rat (amount : ℚ) : isPositive amount = true ↔ 0 < amount := by
  change (true && !decide (amount ≤ Quantity.zero)) = true ↔ 0 < amount
  rw [Quantity.zero_rat, Bool.true_and, Bool.not_eq_true', decide_eq_false_iff_not, not_le]

theorem requireNonNegative_rat {name : String} {amount : ℚ} :
    requireNonNegative name amount = .ok () ↔ 0 ≤ amount := by
  rw [← isNonNegative_rat, requireNonNegative]
  cases isNonNegative amount <;> simp

theorem requirePositive_rat {name : String} {amount : ℚ} :
    requirePositive name amount = .ok () ↔ 0 < amount := by
  rw [← isPositive_rat, requirePositive]
  cases isPositive amount <;> simp

/-- Arithmetic in which no product of amounts that are not negative is negative. -/
class SignRule (α : Type) [Quantity α] : Prop where
  one_not_neg : ¬(Quantity.one : α) < Quantity.zero
  le_of_neg : ∀ amount : α, amount < Quantity.zero → amount ≤ Quantity.zero
  mul_not_neg : ∀ left right : α, ¬left < Quantity.zero → ¬right < Quantity.zero →
    ¬left * right < Quantity.zero

theorem not_neg_of_isPositive {α : Type} [Quantity α] [SignRule α] {amount : α}
    (positive : isPositive amount = true) : ¬amount < Quantity.zero := by
  unfold isPositive at positive
  rw [Bool.and_eq_true, Bool.not_eq_true', decide_eq_false_iff_not] at positive
  exact fun negative => positive.2 (SignRule.le_of_neg amount negative)

instance : SignRule ℚ where
  one_not_neg := by simp
  le_of_neg := fun _ => le_of_lt
  mul_not_neg := by
    intro left right leftSign rightSign
    rw [Quantity.zero_rat, not_lt] at leftSign rightSign ⊢
    exact mul_nonneg leftSign rightSign

end PipelineCapacity
