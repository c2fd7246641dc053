import Mathlib
import PipelineCapacity.Decimal
import PipelineCapacity.Proofs.Decimal.Rounding

/-!
Binary floating point in its bits. What is written of a finite amount is its sign
and the number that is kept of it, and the two make the amount again.
-/

set_option autoImplicit false

namespace PipelineCapacity.Decimal.Binary

open Float.Model
open Float.Model.UnpackedFloat

variable {number : Binary} {amount : Float}

/-- The number with a sign. -/
def Canonical.unpacked (canonical : number.Canonical) (sign : Sign) : UnpackedFloat :=
  .finite sign number.significand number.exponent canonical.positive

/-- The number with a sign, as it is computed with. -/
def Canonical.float (canonical : number.Canonical) (sign : Sign) : Float :=
  .ofModel (.pack (canonical.unpacked sign))

theorem finite_congr {sign : Sign} {mantissa same : Nat} {exponent equal : Int}
    {positive : 0 < mantissa} {present : 0 < same} (mantissas : mantissa = same)
    (exponents : exponent = equal) :
    UnpackedFloat.finite sign mantissa exponent positive = .finite sign same equal present := by
  subst mantissas exponents
  rfl

theorem toNat_append_one (fraction : BitVec 52) :
    (1#1 ++ fraction).toNat = fraction.toNat + 2 ^ 52 := by
  rw [BitVec.toNat_append, ← Nat.shiftLeft_add_eq_or_of_lt fraction.isLt, add_comm]
  rfl

/-- Nothing of a number is lost in its bits. -/
theorem Canonical.unpack_pack (canonical : number.Canonical) (sign : Sign) :
    UnpackedFloat.unpack .binary64 (UnpackedFloat.pack .binary64 (canonical.unpacked sign)) =
      canonical.unpacked sign := by
  have greatest := canonical.greatest
  have positive := canonical.positive
  have small := canonical.small
  obtain ⟨biased, shifted⟩ := Int.le.dest canonical.least
  have field : (number.exponent + Format.binary64.exponentBias +
      Format.binary64.mantissaBitsWithoutImplicit).toNat = biased + 1 := by
    change (number.exponent + 1023 + 52).toNat = biased + 1
    omega
  have fits : ¬2 ^ Format.binary64.exponentBits ≤ biased + 1 + 1 := by
    change ¬2 ^ 11 ≤ biased + 1 + 1
    omega
  unfold Canonical.unpacked UnpackedFloat.pack
  dsimp only
  rw [field, if_neg fits]
  by_cases full : 2 ^ 52 ≤ number.significand
  · have bits : number.significand.log2 + 1 = Format.binary64.mantissaBits := by
      change number.significand.log2 + 1 = 53
      have lower := (Nat.le_log2 positive.ne').mpr full
      have upper := (Nat.log2_lt positive.ne').mpr small
      omega
    have other : BitVec.ofNat 11 (biased + 1) ≠ -1#11 := by bv_omega
    have present : BitVec.ofNat 11 (biased + 1) ≠ 0#11 := by bv_omega
    rw [if_pos bits]
    unfold UnpackedFloat.unpack
    simp only [unpackMantissa_packComponents, unpackExponent_packComponents,
      unpackSign_packComponents, Sign.ofBitVec_toBitVec]
    rw [if_neg other, if_neg present]
    refine finite_congr ?_ ?_
    · refine (toNat_append_one _).trans ?_
      rw [BitVec.toNat_ofNat]
      omega
    · change ((BitVec.ofNat 11 (biased + 1)).toNat : Int) - (1023 + 52) = number.exponent
      rw [BitVec.toNat_ofNat]
      omega
  · have last : number.exponent = -1074 := by
      by_contra other
      exact full (canonical.full (lt_of_le_of_ne canonical.least (Ne.symm other)))
    have bits : ¬number.significand.log2 + 1 = Format.binary64.mantissaBits := by
      change ¬number.significand.log2 + 1 = 53
      have upper := (Nat.log2_lt positive.ne').mpr (not_le.mp full)
      omega
    have present : BitVec.ofNat 52 number.significand ≠ 0#52 := by bv_omega
    rw [if_neg bits]
    unfold UnpackedFloat.unpack
    simp only [unpackMantissa_packComponents, unpackExponent_packComponents,
      unpackSign_packComponents, Sign.ofBitVec_toBitVec]
    rw [if_neg (by decide), if_pos trivial, dif_neg present]
    refine finite_congr ?_ last.symm
    rw [BitVec.toNat_ofNat]
    exact Nat.mod_eq_of_lt (not_le.mp full)

theorem Canonical.unpack_float (canonical : number.Canonical) (sign : Sign) :
    (canonical.float sign).toModel.unpack = canonical.unpacked sign :=
  canonical.unpack_pack sign

theorem eq_of_unpack {unpacked : UnpackedFloat} (same : amount.toModel.unpack = unpacked) :
    amount = .ofModel (.pack unpacked) := by
  rw [← same]
  exact (Float.ofBits_toBits amount).symm

theorem Canonical.neg_float (canonical : number.Canonical) :
    -canonical.float .positive = canonical.float .negative := by
  change Float.ofModel (.pack (canonical.float .positive).toModel.unpack.neg) = _
  rw [canonical.unpack_float]
  rfl

/-- The sign that is written in front of an amount. -/
def signOf (amount : Float) : Sign := if isNegative amount then .negative else .positive

def bitsOf (amount : Float) : BitVec (Format.numBits .binary64) := amount.toModel.toBits.toBitVec

theorem unpackSign_bitsOf : Sign.ofBitVec (unpackSign (bitsOf amount)) = signOf amount := by
  have bit : (unpackSign (bitsOf amount)).getLsbD 0 = isNegative amount := by
    rw [unpackSign_def, BitVec.getLsbD_extractLsb']
    exact Bool.true_and _
  unfold signOf
  rw [← bit]
  rcases BitVec.eq_zero_or_eq_one (unpackSign (bitsOf amount)) with positive | negative
  · rw [positive]
    rfl
  · rw [negative]
    rfl

theorem unpackExponent_bitsOf :
    (unpackExponent (bitsOf amount)).toNat = amount.toBits.toNat / 2 ^ 52 % 2048 := by
  rw [unpackExponent_def, BitVec.extractLsb'_toNat, Nat.shiftRight_eq_div_pow]
  rfl

theorem unpackMantissa_bitsOf :
    (unpackMantissa (bitsOf amount)).toNat = amount.toBits.toNat % 2 ^ 52 := by
  rw [unpackMantissa_def, BitVec.extractLsb'_toNat]
  rfl

theorem ofFloat_eq (amount : Float) :
    ofFloat amount =
      if (unpackExponent (bitsOf amount)).toNat = 0 then
        ⟨(unpackMantissa (bitsOf amount)).toNat, -1074, false⟩
      else
        ⟨(unpackMantissa (bitsOf amount)).toNat + 2 ^ 52,
          ((unpackExponent (bitsOf amount)).toNat : Int) - 1075,
          (unpackMantissa (bitsOf amount)).toNat == 0 &&
            decide (1 < (unpackExponent (bitsOf amount)).toNat)⟩ := by
  rw [unpackExponent_bitsOf, unpackMantissa_bitsOf]
  unfold ofFloat
  simp only [Nat.pow_eq, beq_iff_eq]

theorem canonical_subnormal {fraction : Nat} (positive : 0 < fraction) (small : fraction < 2 ^ 52) :
    Canonical ⟨fraction, -1074, false⟩ where
  positive := positive
  small := small.trans (by decide)
  least := le_rfl
  greatest := by norm_num
  full := fun above => absurd above (lt_irrefl _)
  narrow := iff_of_false nofun fun both => lt_irrefl _ both.2

theorem canonical_normal {fraction field : Nat} (small : fraction < 2 ^ 52) (present : 0 < field)
    (proper : field < 2047) :
    Canonical ⟨fraction + 2 ^ 52, (field : Int) - 1075, fraction == 0 && decide (1 < field)⟩ where
  positive := Nat.add_pos_right _ (by decide)
  small := by
    change fraction + 2 ^ 52 < 2 ^ 53
    omega
  least := by
    change -1074 ≤ (field : Int) - 1075
    omega
  greatest := by
    change (field : Int) - 1075 ≤ 971
    omega
  full := fun _ => Nat.le_add_left _ _
  narrow := by
    change (fraction == 0 && decide (1 < field)) = true ↔
      fraction + 2 ^ 52 = 2 ^ 52 ∧ -1074 < (field : Int) - 1075
    rw [Bool.and_eq_true, beq_iff_eq, decide_eq_true_iff]
    omega

/-- A finite amount other than zero is the number that is written for it, with its sign. -/
theorem unpack_eq_of_isFinite (finite : amount.isFinite = true) :
    amount.toModel.unpack = .zero (signOf amount) ∨
      ∃ canonical : (ofFloat amount).Canonical,
        amount.toModel.unpack = canonical.unpacked (signOf amount) := by
  have number := ofFloat_eq amount
  have fields : (unpackExponent (bitsOf amount)).toNat < 2 ^ 11 := BitVec.isLt _
  have fractions : (unpackMantissa (bitsOf amount)).toNat < 2 ^ 52 := BitVec.isLt _
  change UnpackedFloat.isFinite (UnpackedFloat.unpack .binary64 (bitsOf amount)) = true at finite
  change UnpackedFloat.unpack .binary64 (bitsOf amount) = _ ∨
    ∃ canonical : (ofFloat amount).Canonical,
      UnpackedFloat.unpack .binary64 (bitsOf amount) = _
  unfold UnpackedFloat.unpack at finite ⊢
  dsimp only at finite ⊢
  rw [unpackSign_bitsOf] at finite ⊢
  by_cases special : unpackExponent (bitsOf amount) = -1#11
  · rw [if_pos special] at finite
    split at finite <;> cases finite
  · rw [if_neg special]
    by_cases subnormal : unpackExponent (bitsOf amount) = 0#11
    · rw [if_pos subnormal]
      by_cases vacant : unpackMantissa (bitsOf amount) = 0#52
      · rw [dif_pos vacant]
        exact .inl rfl
      · right
        have positive : 0 < (unpackMantissa (bitsOf amount)).toNat := by bv_omega
        rw [if_pos (by rw [subnormal]; rfl)] at number
        rw [dif_neg vacant, number]
        exact ⟨canonical_subnormal positive fractions, finite_congr rfl (by rw [subnormal]; rfl)⟩
    · right
      have present : 0 < (unpackExponent (bitsOf amount)).toNat := by bv_omega
      have proper : (unpackExponent (bitsOf amount)).toNat < 2047 := by bv_omega
      rw [if_neg present.ne'] at number
      rw [if_neg subnormal, number]
      exact ⟨canonical_normal fractions present proper, finite_congr (toNat_append_one _) rfl⟩

end PipelineCapacity.Decimal.Binary
