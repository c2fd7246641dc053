import Mathlib
import PipelineCapacity.Proofs.Decimal.Literal
import PipelineCapacity.Quantity

/-!
Whole numbers in binary floating point. Of a finite amount the places after the
whole ones are cut off exactly, up to the greatest whole number, and a whole
number of at most 53 places is kept as it is.
-/

set_option autoImplicit false

namespace PipelineCapacity.Binary64

open Decimal (Binary)
open Float.Model
open Float.Model.UnpackedFloat

def unpackedValue? : UnpackedFloat → Option ℚ
  | .zero _ => some 0
  | .finite sign mantissa exponent _ => some (sign.apply mantissa * 2 ^ exponent)
  | .infinity _ | .notANumber => none

/-- The rational number that an amount is, if it is finite. -/
def value? (amount : Float) : Option ℚ := unpackedValue? amount.toModel.unpack

theorem value?_float {number : Binary} (canonical : number.Canonical) :
    value? (canonical.float .positive) = some number.value := by
  unfold value?
  rw [canonical.unpack_float]
  rfl

/-- A mantissa moved to the left as far as its exponent says, or to the right, where
places are cut off. -/
theorem roundToInt_positive (mantissa : Nat) (exponent : Int) :
    roundToInt .positive mantissa exponent = ⌊(mantissa * 2 ^ exponent : ℚ)⌋ := by
  generalize moved : (exponent - 0).toNat = left
  generalize cut : (0 - (exponent - left)).toNat = right
  have keeps := (Keeps.exact (mantissa <<< left)).shift right
  have same : (mantissa * 2 ^ exponent : ℚ) = ((mantissa <<< left : Nat) : ℚ) / 2 ^ right := by
    have split : exponent = left - right := by omega
    rw [Nat.shiftLeft_eq, split, zpow_sub₀ two_ne_zero, zpow_natCast, zpow_natCast]
    push_cast
    ring
  unfold roundToInt decreaseExponent shiftToExponent
  dsimp only
  rw [moved, cut, same, eq_comm, Int.floor_eq_iff]
  exact ⟨keeps.low, keeps.high⟩

theorem toNat_ofNatClamp (number : Nat) :
    (UInt64.ofNatClamp number).toNat = Min.min number maxWhole := by
  by_cases small : number < UInt64.size
  · rw [UInt64.toNat_ofNatClamp_of_lt small]
    exact (min_eq_left (Nat.le_of_lt_succ small)).symm
  · rw [UInt64.toNat_ofNatClamp_of_le (not_lt.mp small)]
    exact (min_eq_right ((Nat.pred_le _).trans (not_lt.mp small))).symm

theorem toNat_toUInt64 {mantissa : Nat} {exponent : Int} (positive : 0 < mantissa) :
    (UnpackedFloat.finite .positive mantissa exponent positive).toUInt64.toNat =
      Min.min ⌊(mantissa * 2 ^ exponent : ℚ)⌋₊ maxWhole := by
  change (UInt64.ofNatClamp (roundToInt .positive mantissa exponent).toNat).toNat = _
  rw [toNat_ofNatClamp, roundToInt_positive, Int.floor_toNat]

/-- Whole numbers of at most 53 places are there as they are. -/
theorem value?_ofNat {number : Nat} (small : number < 2 ^ 53) :
    value? (Quantity.ofNat number) = some (number : ℚ) := by
  rcases Nat.eq_zero_or_pos number with rfl | positive
  · rw [Nat.cast_zero]
    rfl
  · have canonical : (Binary.normalized number 0).Canonical :=
      Binary.canonical_normalized positive small (by decide) (by decide)
    have exact : (Binary.normalized number 0).value = number := by
      rw [Binary.value_normalized positive small, zpow_zero, mul_one]
    have covers : (Binary.normalized number 0).Covers (number * 10 ^ (0 : Int)) := by
      rw [zpow_zero, mul_one, ← exact]
      exact Binary.covers_value _
    have same : (Quantity.ofNat number : Float) = canonical.float .positive :=
      Binary.ofScientific_eq canonical positive (by decide) (by decide) covers
    rw [same, value?_float canonical, exact]

end PipelineCapacity.Binary64
