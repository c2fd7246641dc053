import Mathlib
import PipelineCapacity.Proofs.Exact

/-!
Signs of products in binary floating point. Rounding keeps the sign, a zero of
either sign is not below zero, and neither is what is not a number, so running
programs compute with an arithmetic in which no product of amounts that are not
negative is negative.
-/

set_option autoImplicit false

namespace PipelineCapacity

namespace Binary64

open Float.Model (UnpackedFloat Format)
open Float.Model.UnpackedFloat

/-- Neither a negative number nor negative infinity. -/
def NotNegative : UnpackedFloat → Prop
  | .notANumber | .zero _ => True
  | .infinity sign | .finite sign _ _ _ => sign = .positive

theorem lt_zero_eq_false_iff {amount : UnpackedFloat} {sign : Sign} :
    amount.lt (.zero sign) = false ↔ NotNegative amount := by
  cases amount with
  | notANumber => exact iff_of_true rfl trivial
  | zero own => exact iff_of_true rfl trivial
  | infinity own => cases own <;> simp [NotNegative, UnpackedFloat.lt, UnpackedFloat.compare]
  | finite own mantissa exponent _ =>
      cases own <;> simp [NotNegative, UnpackedFloat.lt, UnpackedFloat.compare]

theorem notNegative_round (format : Format) (mantissa : Nat) (exponent : Int)
    (accuracy : Accuracy) :
    NotNegative (roundWithAccuracy format .positive mantissa exponent accuracy) := by
  unfold roundWithAccuracy
  dsimp only
  split
  · trivial
  · rfl

theorem NotNegative.mul {format : Format} {left right : UnpackedFloat}
    (leftSign : NotNegative left) (rightSign : NotNegative right) :
    NotNegative (UnpackedFloat.mul format left right) := by
  cases left with
  | notANumber => cases right <;> trivial
  | zero own => cases right <;> trivial
  | infinity own =>
      cases leftSign
      cases right with
      | notANumber => trivial
      | zero other => trivial
      | infinity other => cases rightSign; rfl
      | finite other _ _ _ => cases rightSign; rfl
  | finite own mantissa exponent _ =>
      cases leftSign
      cases right with
      | notANumber => trivial
      | zero other => trivial
      | infinity other => cases rightSign; rfl
      | finite other _ _ _ =>
          cases rightSign
          exact notNegative_round _ _ _ _

/-- The sign of a bit pattern alone decides. -/
theorem notNegative_unpack {format : Format} {bits : BitVec format.numBits}
    (positive : Sign.ofBitVec (unpackSign bits) = .positive) :
    NotNegative (unpack format bits) := by
  unfold unpack
  dsimp only
  rw [positive]
  split
  · split
    · rfl
    · trivial
  · split
    · split
      · trivial
      · rfl
    · rfl

theorem NotNegative.unpack_pack {format : Format} {amount : UnpackedFloat}
    (sign : NotNegative amount) : NotNegative (unpack format (pack format amount)) := by
  cases amount with
  | notANumber =>
      change NotNegative (unpack format (packedNaN format))
      rw [unpack_packedNaN]
      trivial
  | zero own =>
      change NotNegative (unpack format (packedZero format own))
      rw [unpack_packedZero]
      trivial
  | infinity own =>
      cases sign
      apply notNegative_unpack
      change Sign.ofBitVec (unpackSign (packComponents format .positive _ _)) = .positive
      rw [unpackSign_packComponents, Sign.ofBitVec_toBitVec]
  | finite own mantissa exponent _ =>
      cases sign
      apply notNegative_unpack
      unfold pack
      dsimp only
      split
      · rw [packedInfinity, unpackSign_packComponents, Sign.ofBitVec_toBitVec]
      · split <;> rw [unpackSign_packComponents, Sign.ofBitVec_toBitVec]

theorem unpack_zero : (Quantity.zero : Float).toModel.unpack = .zero .positive := rfl

theorem not_neg_iff {amount : Float} :
    ¬amount < Quantity.zero ↔ NotNegative amount.toModel.unpack := by
  rw [← lt_zero_eq_false_iff, ← unpack_zero, ← Bool.not_eq_true]
  change ¬decide (amount.toModel < (Quantity.zero : Float).toModel) = true ↔ _
  rw [decide_eq_true_iff]
  rfl

end Binary64

instance : SignRule Float where
  one_not_neg := by decide +kernel
  le_of_neg := by
    intro amount negative
    change decide (amount.toModel < (Quantity.zero : Float).toModel) = true at negative
    change decide (amount.toModel ≤ (Quantity.zero : Float).toModel) = true
    rw [decide_eq_true_iff] at negative ⊢
    change (amount.toModel.unpack.compare _ == some .lt) = true at negative
    change (amount.toModel.unpack.compare _).any _ = true
    rw [eq_of_beq negative]
    rfl
  mul_not_neg := by
    intro left right leftSign rightSign
    rw [Binary64.not_neg_iff] at leftSign rightSign ⊢
    exact (leftSign.mul rightSign).unpack_pack

end PipelineCapacity
