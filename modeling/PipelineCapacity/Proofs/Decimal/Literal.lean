import PipelineCapacity.Decimal
import PipelineCapacity.Proofs.Decimal.Packing

/-!
Reading decimal numbers. Products and quotients are rounded once, so a decimal
number is read as the number that covers it, whether this takes one operation on
exact numbers or the long way.
-/

set_option autoImplicit false

namespace PipelineCapacity.Decimal

open Binary64
open Float.Model
open Float.Model.UnpackedFloat

theorem zpow_of_nonneg (base : ℚ) {exponent : Int} (whole : 0 ≤ exponent) :
    base ^ exponent = base ^ exponent.natAbs := by
  rw [← zpow_natCast, Int.natAbs_of_nonneg whole]

theorem zpow_of_neg (base : ℚ) {exponent : Int} (negative : exponent < 0) :
    base ^ exponent = (base ^ exponent.natAbs)⁻¹ := by
  rw [← zpow_natCast, ← zpow_neg, Int.ofNat_natAbs_of_nonpos negative.le, neg_neg]

namespace Binary

variable {number : Binary} {mantissa other : Nat} {exponent power : Int}

/-- Enough places of a quotient are computed. -/
theorem quotient_places {count : Nat} {last : Int} (positive : 0 < mantissa) (present : 0 < other)
    (last_eq : last = min (exponent - power) (Format.binary64.targetExponent
      (totalExponent mantissa exponent - totalExponent other power)))
    (shifted : last + count = exponent - power) :
    last ≤ Format.binary64.targetExponent (totalExponent (mantissa * 2 ^ count / other) last) := by
  rw [targetExponent_binary64] at last_eq ⊢
  unfold totalExponent at *
  by_cases tiny : last ≤ -1074
  · omega
  · have places : other.log2 + 53 ≤ mantissa.log2 + count := by omega
    have large : 2 ^ 52 ≤ mantissa * 2 ^ count / other := by
      rw [Nat.le_div_iff_mul_le present]
      calc
        2 ^ 52 * other ≤ 2 ^ 52 * 2 ^ (other.log2 + 1) :=
          Nat.mul_le_mul_left _ Nat.lt_log2_self.le
        _ = 2 ^ (other.log2 + 53) := by rw [← pow_add]; congr 1; omega
        _ ≤ 2 ^ (mantissa.log2 + count) := Nat.pow_le_pow_right two_pos places
        _ = 2 ^ mantissa.log2 * 2 ^ count := pow_add _ _ _
        _ ≤ mantissa * 2 ^ count := Nat.mul_le_mul_right _ (Nat.log2_self_le positive.ne')
    have nonzero : mantissa * 2 ^ count / other ≠ 0 := (Nat.two_pow_pos 52).trans_le large |>.ne'
    have bits := (Nat.le_log2 nonzero).mpr large
    omega

theorem div_eq (canonical : number.Canonical) (positive : 0 < mantissa) (present : 0 < other)
    (covers : number.Covers (mantissa * 2 ^ exponent / (other * 2 ^ power))) :
    UnpackedFloat.div .binary64 (.finite .positive mantissa exponent positive)
        (.finite .positive other power present) =
      canonical.unpacked .positive := by
  change roundWithAccuracy .binary64 .positive (mantissa <<< _ / other) _ _ = _
  generalize last_eq : min (exponent - power) (Format.binary64.targetExponent
    (totalExponent mantissa exponent - totalExponent other power)) = last
  obtain ⟨count, shifted⟩ := Int.le.dest (by omega : last ≤ exponent - power)
  have counted : (exponent - power - last).toNat = count := by omega
  have scaled : (mantissa * 2 ^ exponent / (other * 2 ^ power) : ℚ) / 2 ^ last =
      (mantissa * 2 ^ count : Nat) / other := by
    have split : exponent = count + last + power := by omega
    rw [split, zpow_add₀ two_ne_zero, zpow_add₀ two_ne_zero, zpow_natCast]
    push_cast
    field_simp
  rw [counted, Nat.shiftLeft_eq]
  refine roundWithAccuracy_eq canonical covers ?_ ?_ .positive
  · rw [scaled]
    exact .quotient _ present
  · exact quotient_places positive present last_eq.symm shifted

theorem mul_eq (canonical : number.Canonical) (positive : 0 < mantissa) (present : 0 < other)
    (large : 2 ^ 52 ≤ mantissa * other)
    (covers : number.Covers (mantissa * 2 ^ exponent * (other * 2 ^ power))) :
    UnpackedFloat.mul .binary64 (.finite .positive mantissa exponent positive)
        (.finite .positive other power present) =
      canonical.unpacked .positive := by
  change roundWithAccuracy .binary64 .positive (mantissa * other) (exponent + power) .exact = _
  have scaled : (mantissa * 2 ^ exponent * (other * 2 ^ power) : ℚ) / 2 ^ (exponent + power) =
      (mantissa * other : Nat) := by
    rw [zpow_add₀ two_ne_zero]
    push_cast
    field_simp
  refine roundWithAccuracy_eq canonical covers ?_ ?_ .positive
  · rw [scaled]
    exact .exact _
  · have bits := (Nat.le_log2 (Nat.mul_pos positive present).ne').mpr large
    rw [targetExponent_binary64]
    unfold totalExponent
    omega

theorem log2_mul_two_pow (positive : 0 < mantissa) (count : Nat) :
    (mantissa * 2 ^ count).log2 = mantissa.log2 + count := by
  rw [Nat.log2_eq_iff (Nat.mul_pos positive (Nat.two_pow_pos count)).ne', add_right_comm, pow_add,
    pow_add]
  exact ⟨Nat.mul_le_mul_right _ (Nat.log2_self_le positive.ne'),
    Nat.mul_lt_mul_of_pos_right Nat.lt_log2_self (Nat.two_pow_pos count)⟩

theorem round_eq (canonical : number.Canonical) (positive : 0 < mantissa)
    (covers : number.Covers (mantissa * 2 ^ exponent)) :
    UnpackedFloat.round .binary64 .positive mantissa exponent = canonical.unpacked .positive := by
  change roundWithAccuracy .binary64 .positive (mantissa <<< _) (exponent - _) .exact = _
  generalize counted : (exponent - Format.binary64.targetExponent
    (totalExponent mantissa exponent)).toNat = count
  rw [Nat.shiftLeft_eq]
  have scaled : (mantissa * 2 ^ exponent : ℚ) / 2 ^ (exponent - count) =
      (mantissa * 2 ^ count : Nat) := by
    rw [zpow_sub₀ two_ne_zero, zpow_natCast]
    push_cast
    field_simp
  refine roundWithAccuracy_eq canonical covers ?_ ?_ .positive
  · rw [scaled]
    exact .exact _
  · rw [targetExponent_binary64] at counted ⊢
    unfold totalExponent at *
    rw [log2_mul_two_pow positive]
    omega

theorem float_div_float {first second : Binary} (left : first.Canonical) (right : second.Canonical)
    (canonical : number.Canonical) (covers : number.Covers (first.value / second.value)) :
    left.float .positive / right.float .positive = canonical.float .positive := by
  change Float.ofModel (.pack (UnpackedFloat.div .binary64 (left.float .positive).toModel.unpack
    (right.float .positive).toModel.unpack)) = _
  rw [left.unpack_float, right.unpack_float]
  exact congrArg (fun result => Float.ofModel (.pack result))
    (div_eq canonical left.positive right.positive covers)

theorem float_mul_float {first second : Binary} (left : first.Canonical) (right : second.Canonical)
    (full : 2 ^ 52 ≤ first.significand) (canonical : number.Canonical)
    (covers : number.Covers (first.value * second.value)) :
    left.float .positive * right.float .positive = canonical.float .positive := by
  change Float.ofModel (.pack (UnpackedFloat.mul .binary64 (left.float .positive).toModel.unpack
    (right.float .positive).toModel.unpack)) = _
  rw [left.unpack_float, right.unpack_float]
  have large : 2 ^ 52 ≤ first.significand * second.significand :=
    full.trans (Nat.le_mul_of_pos_right _ right.positive)
  exact congrArg (fun result => Float.ofModel (.pack result))
    (mul_eq canonical left.positive right.positive large covers)

/-- A whole number of at most 53 places, moved by some places, as it is kept. -/
def normalized (mantissa : Nat) (exponent : Int) : Binary :=
  ⟨mantissa * 2 ^ (52 - mantissa.log2), exponent + mantissa.log2 - 52,
    mantissa * 2 ^ (52 - mantissa.log2) == 2 ^ 52⟩

theorem canonical_normalized (positive : 0 < mantissa) (small : mantissa < 2 ^ 53)
    (least : -1022 < exponent) (greatest : exponent ≤ 971) :
    (normalized mantissa exponent).Canonical := by
  have few : mantissa.log2 < 53 := (Nat.log2_lt positive.ne').mpr small
  have present := Nat.mul_pos positive (Nat.two_pow_pos (52 - mantissa.log2))
  have bits : (mantissa * 2 ^ (52 - mantissa.log2)).log2 = 52 := by
    rw [log2_mul_two_pow positive]
    omega
  obtain ⟨large, less⟩ := (Nat.log2_eq_iff present.ne').mp bits
  refine ⟨present, less, ?_, ?_, fun _ => large, ?_⟩
  · change -1074 ≤ exponent + mantissa.log2 - 52
    omega
  · change exponent + mantissa.log2 - 52 ≤ 971
    omega
  · change (mantissa * 2 ^ (52 - mantissa.log2) == 2 ^ 52) = true ↔
      mantissa * 2 ^ (52 - mantissa.log2) = 2 ^ 52 ∧ -1074 < exponent + mantissa.log2 - 52
    rw [beq_iff_eq]
    exact ⟨fun same => ⟨same, by omega⟩, And.left⟩

theorem value_normalized (positive : 0 < mantissa) (small : mantissa < 2 ^ 53) :
    (normalized mantissa exponent).value = mantissa * 2 ^ exponent := by
  have few : mantissa.log2 < 53 := (Nat.log2_lt positive.ne').mpr small
  change ((mantissa * 2 ^ (52 - mantissa.log2) : Nat) : ℚ) * 2 ^ (exponent + mantissa.log2 - 52) = _
  have split : exponent = ((52 - mantissa.log2 : Nat) : Int) + (exponent + mantissa.log2 - 52) := by
    omega
  conv_rhs => rw [split, zpow_add₀ two_ne_zero, zpow_natCast]
  push_cast
  ring

theorem toFloat_eq {whole : Nat} (canonical : (normalized whole 0).Canonical) (positive : 0 < whole)
    (small : whole < 2 ^ 53) : whole.toUInt64.toFloat = canonical.float .positive := by
  have same : whole.toUInt64.toNat = whole :=
    UInt64.toNat_ofNat_of_lt' (small.trans (by decide : 2 ^ 53 < 2 ^ 64))
  have covers : (normalized whole 0).Covers (whole * 2 ^ (0 : Int)) := by
    rw [← value_normalized positive small]
    exact covers_value _
  have rounded : UnpackedFloat.normalize .binary64 (whole : Int) 0 .positive =
      canonical.unpacked .positive := by
    unfold UnpackedFloat.normalize
    rw [Int.compare_eq_gt.mpr (by omega)]
    exact round_eq canonical positive covers
  change Float.ofModel
    (.pack (UnpackedFloat.normalize .binary64 (whole.toUInt64.toNat : Int) 0 .positive)) = _
  rw [same, rounded]
  rfl

section Powers

variable {places : Nat} (few : places < 23)

include few

theorem five_pow_lt : 5 ^ places < 2 ^ 53 :=
  (Nat.pow_le_pow_right (by decide) (Nat.lt_succ_iff.mp few)).trans_lt (by decide : 5 ^ 22 < 2 ^ 53)

theorem canonical_power : (normalized (5 ^ places) places).Canonical :=
  canonical_normalized (Nat.pow_pos (by decide)) (five_pow_lt few) (by omega) (by omega)

theorem value_power : (normalized (5 ^ places) places).value = 10 ^ places := by
  rw [value_normalized (Nat.pow_pos (by decide)) (five_pow_lt few), zpow_natCast, Nat.cast_pow,
    ← mul_pow]
  norm_num

end Powers

/-- The powers of ten that are looked up are exact. -/
theorem powers_eq (places : Fin 23) :
    Float.exactlyRepresentablePowersOfTen[places] =
      (canonical_power places.isLt).float .positive := by
  revert places
  decide +kernel

variable {significand : Nat}

/-- Where the significand and the power are exact, one operation is enough. -/
theorem ofScientific_fast (canonical : number.Canonical) (positive : 0 < significand)
    (small : significand < 2 ^ 53) (few : exponent.natAbs < 23)
    (covers : number.Covers (significand * 10 ^ exponent)) :
    (if decide (exponent < 0) = true then
        significand.toUInt64.toFloat / Float.exactlyRepresentablePowersOfTen[exponent.natAbs]
      else
        significand.toUInt64.toFloat * Float.exactlyRepresentablePowersOfTen[exponent.natAbs]) =
      canonical.float .positive := by
  have whole : (normalized significand 0).Canonical :=
    canonical_normalized positive small (by omega) (by omega)
  have exact : (normalized significand 0).value = significand := by
    rw [value_normalized positive small, zpow_zero, mul_one]
  have power : Float.exactlyRepresentablePowersOfTen[exponent.natAbs] =
      (canonical_power few).float .positive := powers_eq ⟨exponent.natAbs, few⟩
  rw [power, toFloat_eq whole positive small]
  by_cases negative : exponent < 0
  · rw [if_pos (decide_eq_true negative)]
    refine float_div_float whole (canonical_power few) canonical ?_
    rw [exact, value_power few, div_eq_mul_inv, ← zpow_of_neg 10 negative]
    exact covers
  · rw [if_neg (by simpa using negative)]
    have full : 2 ^ 52 ≤ (normalized significand 0).significand := by
      refine whole.full ?_
      change -1074 < (0 : Int) + significand.log2 - 52
      omega
    refine float_mul_float whole (canonical_power few) full canonical ?_
    rw [exact, value_power few, ← zpow_of_nonneg 10 (not_lt.mp negative)]
    exact covers

section Bounded

variable (canonical : number.Canonical) (positive : 0 < significand)

include canonical positive

theorem unpacked_ofScientific_eq (least : -2048 ≤ exponent) (greatest : exponent ≤ 2048)
    (covers : number.Covers (significand * 10 ^ exponent)) :
    UnpackedFloat.ofScientific .binary64 significand exponent = canonical.unpacked .positive := by
  have below : ¬exponent < -((2 ^ Format.binary64.exponentBits : Int) + significand.log2) := by
    change ¬exponent < -((2 ^ 11 : Int) + significand.log2)
    omega
  have above : ¬exponent > 2 ^ Format.binary64.exponentBits := by
    change ¬exponent > 2 ^ 11
    omega
  unfold UnpackedFloat.ofScientific
  rw [dif_neg positive.ne', if_neg above, if_neg below]
  by_cases whole : 0 ≤ exponent
  · rw [if_pos whole]
    refine mul_eq canonical _ _ ?_ ?_
    · rw [Nat.shiftLeft_eq]
      calc
        2 ^ 52 ≤ 1 * 2 ^ 53 * 1 := by decide
        _ ≤ significand * 2 ^ 53 * 10 ^ exponent.toNat :=
          Nat.mul_le_mul (Nat.mul_le_mul_right _ positive) (Nat.pow_pos (by decide))
    · have scaled : ((significand <<< 53 : Nat) : ℚ) * 2 ^ (-53 : Int) = significand := by
        rw [Nat.shiftLeft_eq, zpow_neg]
        push_cast
        exact mul_inv_cancel_right₀ (by norm_num) _
      change number.Covers (((significand <<< 53 : Nat) : ℚ) * 2 ^ (-53 : Int) *
        ((10 ^ exponent.toNat : Nat) * 2 ^ (0 : Int)))
      rw [scaled, zpow_zero, mul_one, Nat.cast_pow, ← zpow_natCast, Int.toNat_of_nonneg whole]
      exact covers
  · rw [if_neg whole]
    refine div_eq canonical _ _ ?_
    rw [zpow_zero, mul_one, mul_one, Nat.cast_pow, ← zpow_natCast, div_eq_mul_inv, ← zpow_neg,
      Int.toNat_of_nonneg (by omega), neg_neg]
    exact covers

theorem ofScientific_eq (least : -2048 ≤ exponent) (greatest : exponent ≤ 2048)
    (covers : number.Covers (significand * 10 ^ exponent)) :
    Float.ofScientific significand (exponent < 0) exponent.natAbs = canonical.float .positive := by
  unfold Float.ofScientific
  split
  · rename_i fast
    exact ofScientific_fast canonical positive fast.1 (Nat.lt_succ_iff.mpr fast.2) covers
  · have same : (if decide (exponent < 0) = true then Int.negOfNat exponent.natAbs
        else Int.ofNat exponent.natAbs) = exponent := by
      by_cases negative : exponent < 0
      · rw [if_pos (decide_eq_true negative), Int.negOfNat_eq]
        change -(exponent.natAbs : Int) = exponent
        omega
      · rw [if_neg (by simpa using negative)]
        change (exponent.natAbs : Int) = exponent
        omega
    dsimp only
    rw [same]
    exact congrArg (fun result => Float.ofModel (.pack result))
      (unpacked_ofScientific_eq canonical positive least greatest covers)

end Bounded

theorem ten_zpow_le_two_zpow_least : (10 : ℚ) ^ (-324 : Int) ≤ 2 ^ (-1075 : Int) := by
  have powers : 2 ^ 1075 ≤ 10 ^ 324 := by decide +kernel
  rw [zpow_neg, zpow_neg, inv_le_inv₀ (by positivity) (by positivity)]
  exact_mod_cast powers

theorem two_zpow_lt_ten_zpow_greatest : (2 : ℚ) ^ (1024 : Int) < 10 ^ (309 : Int) := by
  have powers : 2 ^ 1024 < 10 ^ 309 := by decide +kernel
  exact_mod_cast powers

/-- Powers of two of few places beside powers of ten. -/
theorem ten_pow_places (bits : Fin 64) :
    10 ^ (bits.val * 30103 / 100000) ≤ 2 ^ bits.val ∧
      2 ^ (bits.val + 1) ≤ 10 ^ (bits.val * 30103 / 100000 + 2) := by
  revert bits
  decide +kernel

/-- Digits are read as the number that covers what they stand for. -/
theorem nearest?_eq (canonical : number.Canonical) (positive : 0 < significand)
    (short : significand < 2 ^ 64) (covers : number.Covers (significand * 10 ^ exponent)) :
    nearest? significand exponent = some (canonical.float .positive) := by
  have bounds := covers.bounds canonical
  have least := ten_zpow_le_two_zpow_least.trans bounds.1
  have greatest := bounds.2.trans_lt two_zpow_lt_ten_zpow_greatest
  have ten : (1 : ℚ) < 10 := by norm_num
  have bits : significand.log2 < 64 := (Nat.log2_lt positive.ne').mpr short
  obtain ⟨below, above⟩ := ten_pow_places ⟨significand.log2, bits⟩
  dsimp only at below above
  have places : ((significand.log2 * 30103 / 100000 : Nat) : Int) =
      (significand.log2 : Int) * 30103 / 100000 := by norm_cast
  generalize significand.log2 * 30103 / 100000 = count at below above places
  have upper : (count : Int) + exponent < 309 := by
    refine (zpow_lt_zpow_iff_right₀ ten).mp (lt_of_le_of_lt ?_ greatest)
    rw [zpow_add₀ (by norm_num), zpow_natCast]
    refine mul_le_mul_of_nonneg_right ?_ (zpow_nonneg (by norm_num) _)
    exact_mod_cast below.trans (Nat.log2_self_le positive.ne')
  have lower : -324 < (count : Int) + 2 + exponent := by
    refine (zpow_lt_zpow_iff_right₀ ten).mp (least.trans_lt ?_)
    rw [zpow_add₀ (by norm_num)]
    refine mul_lt_mul_of_pos_right ?_ (zpow_pos (by norm_num) _)
    exact_mod_cast Nat.lt_log2_self.trans_le above
  have finite : (canonical.float .positive).isInf = false := by
    change UnpackedFloat.isInf (canonical.float .positive).toModel.unpack = false
    rw [canonical.unpack_float]
    rfl
  have read := ofScientific_eq canonical positive (by omega) (by omega) covers
  unfold nearest?
  dsimp only
  rw [← places, if_neg (by simpa using positive.ne'), if_neg (by omega), if_neg (by omega), read,
    if_neg (by simp [finite])]

end Binary

end PipelineCapacity.Decimal
