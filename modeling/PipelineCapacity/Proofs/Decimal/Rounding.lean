import Mathlib.Algebra.Order.Field.Power
import Mathlib.Data.Int.Log
import Mathlib.Data.Rat.Floor
import Mathlib.Tactic.FieldSimp
import Mathlib.Tactic.Linarith
import PipelineCapacity.Decimal

/-!
Rounding of binary floating point, over the rational numbers. Shifting to the
right keeps what has to be known of the places that are lost, so an amount is
rounded to the number whose interval it lies in, whatever places it came with.
-/

set_option autoImplicit false

namespace PipelineCapacity

open Float.Model
open Float.Model.UnpackedFloat

/-- Between two ends, which count themselves or do not. -/
def Between (closed : Bool) (low high amount : ℚ) : Prop :=
  if closed then low ≤ amount ∧ amount ≤ high else low < amount ∧ amount < high

namespace Between

variable {closed : Bool} {low high amount : ℚ}

theorem of_lt (above : low < amount) (below : amount < high) : Between closed low high amount := by
  cases closed
  · exact ⟨above, below⟩
  · exact ⟨above.le, below.le⟩

theorem low_le (between : Between closed low high amount) : low ≤ amount := by
  cases closed
  · exact between.1.le
  · exact between.1

theorem le_high (between : Between closed low high amount) : amount ≤ high := by
  cases closed
  · exact between.2.le
  · exact between.2

theorem mono {lower higher : ℚ} (between : Between closed low high amount) (below : lower ≤ low)
    (above : high ≤ higher) : Between closed lower higher amount := by
  cases closed
  · exact ⟨below.trans_lt between.1, between.2.trans_le above⟩
  · exact ⟨below.trans between.1, between.2.trans above⟩

theorem mul_iff {factor : ℚ} (positive : 0 < factor) :
    Between closed (low * factor) (high * factor) (amount * factor) ↔
      Between closed low high amount := by
  cases closed
  · exact and_congr (mul_lt_mul_iff_left₀ positive) (mul_lt_mul_iff_left₀ positive)
  · exact and_congr (mul_le_mul_iff_left₀ positive) (mul_le_mul_iff_left₀ positive)

end Between

namespace Binary64

/-- The whole number next to an amount, the even one of two. -/
def Nearest (whole : Nat) (amount : ℚ) : Prop :=
  Between (whole % 2 == 0) (whole - 1 / 2) (whole + 1 / 2) amount

/-- What is known of an amount whose places after the whole ones were cut off:
whether they were at least a half, and whether they were neither nothing nor a half. -/
structure Keeps (kept : ExtendedMantissa) (amount : ℚ) : Prop where
  low : kept.mantissa ≤ amount
  high : amount < kept.mantissa + 1
  round : kept.roundBit = true ↔ kept.mantissa + 1 / 2 ≤ amount
  sticky : kept.stickyBit = false ↔ amount = kept.mantissa ∨ amount = kept.mantissa + 1 / 2

variable {kept : ExtendedMantissa} {amount : ℚ}

theorem Nearest.strict {whole : Nat} (nearest : Nearest whole amount) (odd : ¬whole % 2 = 0) :
    (whole : ℚ) - 1 / 2 < amount ∧ amount < whole + 1 / 2 := by
  unfold Nearest at nearest
  rw [beq_false_of_ne odd] at nearest
  exact nearest

namespace Keeps

/-- Nothing was cut off. -/
theorem sharp_iff (keeps : Keeps kept amount) :
    (kept.roundBit || kept.stickyBit) = false ↔ amount = kept.mantissa := by
  rw [Bool.or_eq_false_iff, ← Bool.not_eq_true, keeps.round, keeps.sticky]
  constructor
  · rintro ⟨small, same | half⟩
    · exact same
    · exact absurd half.ge small
  · intro same
    exact ⟨by linarith, .inl same⟩

theorem half (keeps : Keeps kept amount) : Keeps kept.shiftRightOne (amount / 2) := by
  have low := keeps.low
  have high := keeps.high
  have split : ((kept.mantissa % 2 : Nat) : ℚ) + 2 * (kept.mantissa / 2 : Nat) = kept.mantissa := by
    exact_mod_cast Nat.mod_add_div kept.mantissa 2
  rcases Nat.mod_two_eq_zero_or_one kept.mantissa with even | odd
  · rw [even, Nat.cast_zero, zero_add] at split
    constructor <;> dsimp only [ExtendedMantissa.shiftRightOne]
    · linarith
    · linarith
    · rw [even]
      exact iff_of_false nofun (by linarith)
    · rw [keeps.sharp_iff]
      exact ⟨fun same => .inl (by linarith), by rintro (same | same) <;> linarith⟩
  · rw [odd, Nat.cast_one] at split
    constructor <;> dsimp only [ExtendedMantissa.shiftRightOne]
    · linarith
    · linarith
    · rw [odd]
      exact iff_of_true rfl (by linarith)
    · rw [keeps.sharp_iff]
      exact ⟨fun same => .inr (by linarith), by rintro (same | same) <;> linarith⟩

theorem shift (keeps : Keeps kept amount) (count : Nat) :
    Keeps (kept >>> count) (amount / 2 ^ count) := by
  change Keeps (count.repeat ExtendedMantissa.shiftRightOne kept) _
  induction count with
  | zero => simpa [Nat.repeat] using keeps
  | succ count ih =>
      rw [pow_succ, ← div_div]
      exact ih.half

/-- What is known is enough to round. -/
theorem rounded {whole : Nat} (keeps : Keeps kept amount) (nearest : Nearest whole amount) :
    kept.roundedMantissa = whole := by
  obtain ⟨mantissa, roundBit, stickyBit⟩ := kept
  obtain ⟨low, high, round, sticky⟩ := keeps
  dsimp only at low high round sticky
  have above := nearest.low_le
  have below := nearest.le_high
  have atMost : whole < mantissa + 2 := by
    have : (whole : ℚ) < mantissa + 2 := by linarith
    exact_mod_cast this
  have atLeast : mantissa < whole + 1 := by
    have : (mantissa : ℚ) < whole + 1 := by linarith
    exact_mod_cast this
  cases roundBit with
  | false =>
      have small : amount < mantissa + 1 / 2 := not_le.mp fun large => nomatch round.mpr large
      have down : whole < mantissa + 1 := by
        have : (whole : ℚ) < mantissa + 1 := by linarith
        exact_mod_cast this
      have same : mantissa = whole := by omega
      cases stickyBit <;> exact same
  | true =>
      have large := round.mp rfl
      cases stickyBit with
      | false =>
          -- A tie, which an odd number does not win.
          have half : amount = mantissa + 1 / 2 :=
            (sticky.mp rfl).resolve_left fun same => by linarith
          have even : whole % 2 = 0 := by
            by_contra odd
            obtain ⟨above, below⟩ := nearest.strict odd
            have more : (mantissa : ℚ) < whole := by linarith
            have less : (whole : ℚ) < mantissa + 1 := by linarith
            have more : mantissa < whole := by exact_mod_cast more
            have less : whole < mantissa + 1 := by exact_mod_cast less
            omega
          change mantissa + mantissa % 2 = whole
          omega
      | true =>
          have larger : mantissa + 1 / 2 < amount :=
            lt_of_le_of_ne large fun same => nomatch sticky.mpr (.inr same.symm)
          have up : mantissa < whole := by
            have : (mantissa : ℚ) < whole := by linarith
            exact_mod_cast this
          change mantissa + 1 = whole
          omega

theorem exact (mantissa : Nat) : Keeps (.ofMantissaAndAccuracy mantissa .exact) mantissa := by
  constructor <;> simp [ExtendedMantissa.ofMantissaAndAccuracy]

theorem inexact (mantissa : Nat) {part : ℚ} {relation : Ordering} (positive : 0 < part)
    (proper : part < 1) (half : relation = compare part (1 / 2)) :
    Keeps (.ofMantissaAndAccuracy mantissa (.inexact relation)) (mantissa + part) := by
  have low : (mantissa : ℚ) ≤ mantissa + part := by linarith
  have high : (mantissa : ℚ) + part < mantissa + 1 := by linarith
  have sharp : (mantissa : ℚ) + part ≠ mantissa := by linarith
  cases relation with
  | lt =>
      have less : part < 1 / 2 := compare_lt_iff_lt.mp half.symm
      exact ⟨low, high, iff_of_false nofun (not_le.mpr (add_lt_add_right less _)),
        iff_of_false nofun (not_or.mpr ⟨sharp, (add_lt_add_right less _).ne⟩)⟩
  | eq =>
      have same : part = 1 / 2 := compare_eq_iff_eq.mp half.symm
      subst same
      exact ⟨low, high, iff_of_true rfl le_rfl, iff_of_true rfl (.inr rfl)⟩
  | gt =>
      have more : 1 / 2 < part := compare_gt_iff_gt.mp half.symm
      exact ⟨low, high, iff_of_true rfl (add_le_add_right more.le _),
        iff_of_false nofun (not_or.mpr ⟨sharp, (add_lt_add_right more _).ne'⟩)⟩

theorem quotient (number : Nat) {divisor : Nat} (positive : 0 < divisor) :
    Keeps (.ofMantissaAndAccuracy (number / divisor)
      (accuracyOfFraction (number % divisor) divisor)) (number / divisor) := by
  have split : (divisor : ℚ) * (number / divisor : Nat) + (number % divisor : Nat) = number := by
    exact_mod_cast Nat.div_add_mod number divisor
  have smaller := Nat.mod_lt number positive
  have positive : (0 : ℚ) < divisor := by exact_mod_cast positive
  have amount : (number : ℚ) / divisor =
      (number / divisor : Nat) + (number % divisor : Nat) / divisor := by
    rw [eq_comm, ← sub_eq_zero]
    field_simp
    linarith
  rw [amount]
  generalize number / divisor = whole
  generalize number % divisor = rest at smaller ⊢
  unfold accuracyOfFraction
  by_cases sharp : rest = 0
  · rw [if_pos sharp, sharp, Nat.cast_zero, zero_div, add_zero]
    exact exact whole
  · rw [if_neg sharp]
    have present : (0 : ℚ) < rest := by exact_mod_cast Nat.pos_of_ne_zero sharp
    have smaller : (rest : ℚ) < divisor := by exact_mod_cast smaller
    refine inexact whole (div_pos present positive) ((div_lt_one positive).mpr smaller) ?_
    rcases lt_trichotomy (2 * rest) divisor with less | same | more
    · rw [compare_lt_iff_lt.mpr less, eq_comm, compare_lt_iff_lt, div_lt_iff₀ positive]
      have less : (2 : ℚ) * rest < divisor := by exact_mod_cast less
      linarith
    · rw [compare_eq_iff_eq.mpr same, eq_comm, compare_eq_iff_eq, div_eq_iff positive.ne']
      have same : (2 : ℚ) * rest = divisor := by exact_mod_cast same
      linarith
    · rw [compare_gt_iff_gt.mpr more, eq_comm, compare_gt_iff_gt, lt_div_iff₀ positive]
      have more : (divisor : ℚ) < 2 * rest := by exact_mod_cast more
      linarith

end Keeps

theorem targetExponent_binary64 (total : Int) :
    Format.binary64.targetExponent total = max (total - 53) (-1074) := rfl

/-- The exponent of the last place that is kept of an amount. -/
def lastPlace (amount : ℚ) : Int := max (Int.log 2 amount - 52) (-1074)

/-- The places that are there tell which is the last one that is kept. -/
theorem targetExponent_eq {mantissa : Nat} {exponent : Int} (positive : 0 < amount)
    (low : mantissa ≤ amount / 2 ^ exponent) (high : amount / 2 ^ exponent < mantissa + 1)
    (enough : exponent ≤ Format.binary64.targetExponent (totalExponent mantissa exponent)) :
    Format.binary64.targetExponent (totalExponent mantissa exponent) = lastPlace amount := by
  have unit : (0 : ℚ) < 2 ^ exponent := zpow_pos two_pos exponent
  rw [le_div_iff₀ unit] at low
  rw [div_lt_iff₀ unit] at high
  rw [targetExponent_binary64] at enough ⊢
  unfold lastPlace
  unfold totalExponent at *
  by_cases vacant : mantissa = 0
  · subst vacant
    rw [Nat.cast_zero, zero_add, one_mul] at high
    have less : Int.log 2 amount < exponent := (Int.lt_zpow_iff_log_lt one_lt_two positive).mp high
    rw [Nat.log2_zero] at *
    omega
  · have below : (2 : ℚ) ^ (mantissa.log2 + exponent) ≤ amount := by
      refine le_trans ?_ low
      rw [zpow_add₀ two_ne_zero]
      refine mul_le_mul_of_nonneg_right ?_ unit.le
      exact_mod_cast Nat.log2_self_le vacant
    have above : amount < (2 : ℚ) ^ (mantissa.log2 + exponent + 1) := by
      refine high.trans_le ?_
      rw [add_right_comm, zpow_add₀ two_ne_zero]
      refine mul_le_mul_of_nonneg_right ?_ unit.le
      exact_mod_cast Nat.lt_log2_self
    have lower : mantissa.log2 + exponent ≤ Int.log 2 amount :=
      (Int.zpow_le_iff_le_log one_lt_two positive).mp below
    have upper : Int.log 2 amount < mantissa.log2 + exponent + 1 :=
      (Int.lt_zpow_iff_log_lt one_lt_two positive).mp above
    omega

end Binary64

namespace Decimal.Binary

open Binary64

/-- How a magnitude is kept: in 53 places that are all used, but for the smallest ones. -/
structure Canonical (number : Binary) : Prop where
  positive : 0 < number.significand
  small : number.significand < 2 ^ 53
  least : -1074 ≤ number.exponent
  greatest : number.exponent ≤ 971
  full : -1074 < number.exponent → 2 ^ 52 ≤ number.significand
  narrow : number.narrowBelow = true ↔ number.significand = 2 ^ 52 ∧ -1074 < number.exponent

/-- The amounts that a number stands for, all of which round to it. -/
def Covers (number : Binary) (amount : ℚ) : Prop :=
  Between (number.significand % 2 == 0)
    (number.significand - if number.narrowBelow then 1 / 4 else 1 / 2)
    (number.significand + 1 / 2) (amount / 2 ^ number.exponent)

/-- The magnitude itself. -/
def value (number : Binary) : ℚ := number.significand * 2 ^ number.exponent

variable {number : Binary} {amount : ℚ}

theorem covers_value (number : Binary) : number.Covers number.value := by
  have same : number.value / 2 ^ number.exponent = number.significand :=
    mul_div_cancel_right₀ _ (zpow_ne_zero _ two_ne_zero)
  unfold Covers
  rw [same]
  refine .of_lt ?_ (by linarith)
  split <;> linarith

theorem Covers.nearest (covers : number.Covers amount) :
    Nearest number.significand (amount / 2 ^ number.exponent) :=
  Between.mono covers (by split <;> linarith) le_rfl

/-- Neither too small nor too large to be kept. -/
theorem Covers.bounds (canonical : number.Canonical) (covers : number.Covers amount) :
    (2 : ℚ) ^ (-1075 : Int) ≤ amount ∧ amount ≤ 2 ^ (1024 : Int) := by
  have unit : (0 : ℚ) < 2 ^ number.exponent := zpow_pos two_pos _
  have one : (1 : ℚ) ≤ number.significand := by exact_mod_cast canonical.positive
  have small : (number.significand : ℚ) + 1 ≤ 2 ^ (53 : Int) := by exact_mod_cast canonical.small
  have low := covers.nearest.low_le
  have high := covers.nearest.le_high
  rw [le_div_iff₀ unit] at low
  rw [div_le_iff₀ unit] at high
  constructor
  · rw [show (-1075 : Int) = -1 + -1074 by rfl, zpow_add₀ two_ne_zero, zpow_neg_one]
    calc
      (2 : ℚ)⁻¹ * 2 ^ (-1074 : Int) ≤ 2⁻¹ * 2 ^ number.exponent :=
        mul_le_mul_of_nonneg_left (zpow_le_zpow_right₀ one_le_two canonical.least) (by norm_num)
      _ ≤ (number.significand - 1 / 2) * 2 ^ number.exponent :=
        mul_le_mul_of_nonneg_right (by linarith) unit.le
      _ ≤ amount := low
  · rw [show (1024 : Int) = 53 + 971 by rfl, zpow_add₀ two_ne_zero]
    calc
      amount ≤ (number.significand + 1 / 2) * 2 ^ number.exponent := high
      _ ≤ 2 ^ (53 : Int) * 2 ^ number.exponent :=
        mul_le_mul_of_nonneg_right (by linarith) unit.le
      _ ≤ 2 ^ (53 : Int) * 2 ^ (971 : Int) :=
        mul_le_mul_of_nonneg_left (zpow_le_zpow_right₀ one_le_two canonical.greatest)
          (by positivity)

theorem Covers.positive (canonical : number.Canonical) (covers : number.Covers amount) :
    0 < amount :=
  (zpow_pos two_pos _).trans_le (covers.bounds canonical).1

/-- Amounts below the least significand of an exponent have a place more, and are
rounded up. -/
theorem Covers.lastPlace_eq (canonical : number.Canonical) (covers : number.Covers amount) :
    lastPlace amount = number.exponent ∨
      (number.significand = 2 ^ 52 ∧ -1074 < number.exponent ∧
        lastPlace amount = number.exponent - 1 ∧
        Nearest (2 ^ 53) (amount / 2 ^ (number.exponent - 1))) := by
  have positive := covers.positive canonical
  have unit : (0 : ℚ) < 2 ^ number.exponent := zpow_pos two_pos _
  have small : (number.significand : ℚ) + 1 ≤ 2 ^ 53 := by exact_mod_cast canonical.small
  have least := canonical.least
  have high : amount < 2 ^ (53 + number.exponent) := by
    rw [zpow_add₀ two_ne_zero, ← div_lt_iff₀ unit]
    have below := covers.le_high
    norm_num at small ⊢
    linarith
  have upper : Int.log 2 amount < 53 + number.exponent :=
    (Int.lt_zpow_iff_log_lt one_lt_two positive).mp high
  unfold lastPlace
  by_cases above : -1074 < number.exponent
  · by_cases large : (2 : ℚ) ^ (52 + number.exponent) ≤ amount
    · have lower : 52 + number.exponent ≤ Int.log 2 amount :=
        (Int.zpow_le_iff_le_log one_lt_two positive).mp large
      left
      omega
    · right
      have low := covers.low_le
      have less : amount / 2 ^ number.exponent < 2 ^ 52 := by
        rw [div_lt_iff₀ unit, ← zpow_natCast, ← zpow_add₀ two_ne_zero]
        exact not_le.mp large
      have lead : number.significand = 2 ^ 52 := by
        refine le_antisymm (not_lt.mp fun more => ?_) (canonical.full above)
        have more : (2 : ℚ) ^ 52 + 1 ≤ number.significand := by exact_mod_cast more
        split_ifs at low <;> linarith
      rw [canonical.narrow.mpr ⟨lead, above⟩, if_pos rfl, lead] at low
      have lower : 51 + number.exponent ≤ Int.log 2 amount := by
        refine (Int.zpow_le_iff_le_log one_lt_two positive).mp ?_
        rw [Nat.cast_ofNat, zpow_add₀ two_ne_zero, ← le_div_iff₀ unit]
        norm_num at low ⊢
        linarith
      have upper : Int.log 2 amount < 52 + number.exponent :=
        (Int.lt_zpow_iff_log_lt one_lt_two positive).mp (not_le.mp large)
      have doubled : amount / 2 ^ (number.exponent - 1) = amount / 2 ^ number.exponent * 2 := by
        rw [zpow_sub_one₀ two_ne_zero]
        field_simp
      refine ⟨lead, above, by omega, ?_⟩
      rw [doubled]
      constructor <;> norm_num at low less ⊢ <;> linarith
  · left
    omega

end Decimal.Binary

namespace Binary64

open Decimal (Binary)

variable {number : Binary} {amount : ℚ} {mantissa : Nat} {exponent : Int} {accuracy : Accuracy}

theorem mantissa_ofMantissaAndAccuracy (mantissa : Nat) (accuracy : Accuracy) :
    (ExtendedMantissa.ofMantissaAndAccuracy mantissa accuracy).mantissa = mantissa := by
  cases accuracy with
  | exact => rfl
  | inexact relation => cases relation <;> rfl

/-- The first shift goes to the last place that is kept. -/
theorem exists_shift_eq (positive : 0 < amount)
    (keeps : Keeps (.ofMantissaAndAccuracy mantissa accuracy) (amount / 2 ^ exponent))
    (enough : exponent ≤ Format.binary64.targetExponent (totalExponent mantissa exponent)) :
    ∃ kept, shiftToTargetExponent .binary64 mantissa exponent accuracy = (kept, lastPlace amount) ∧
      Keeps kept (amount / 2 ^ lastPlace amount) := by
  have low := keeps.low
  have high := keeps.high
  rw [mantissa_ofMantissaAndAccuracy] at low high
  have target := targetExponent_eq positive low high enough
  rw [target] at enough
  obtain ⟨count, same⟩ := Int.le.dest enough
  have shifted : (lastPlace amount - exponent).toNat = count := by omega
  unfold shiftToTargetExponent shiftToExponent
  dsimp only
  rw [target, shifted, same]
  refine ⟨_, rfl, ?_⟩
  rw [← same, zpow_add₀ two_ne_zero, zpow_natCast, ← div_div]
  exact keeps.shift count

theorem shift_canonical (canonical : number.Canonical) :
    shiftToTargetExponent .binary64 number.significand number.exponent .exact =
      (⟨number.significand, false, false⟩, number.exponent) := by
  have few : number.significand.log2 < 53 :=
    (Nat.log2_lt canonical.positive.ne').mpr canonical.small
  have least := canonical.least
  have settled : (Format.binary64.targetExponent
      (totalExponent number.significand number.exponent) - number.exponent).toNat = 0 := by
    rw [targetExponent_binary64]
    unfold totalExponent
    omega
  unfold shiftToTargetExponent shiftToExponent
  dsimp only
  rw [settled, Nat.cast_zero, add_zero]
  rfl

/-- A carry into one place more is shifted back. -/
theorem shift_carry (above : -1074 < exponent) :
    shiftToTargetExponent .binary64 (2 ^ 53) (exponent - 1) .exact =
      (⟨2 ^ 52, false, false⟩, exponent) := by
  have once : (Format.binary64.targetExponent (totalExponent (2 ^ 53) (exponent - 1)) -
      (exponent - 1)).toNat = 1 := by
    rw [targetExponent_binary64, totalExponent, Nat.log2_two_pow]
    omega
  unfold shiftToTargetExponent shiftToExponent
  dsimp only
  rw [once, Nat.cast_one, sub_add_cancel]
  rfl

/-- Whatever a number covers is rounded to it. -/
theorem roundWithAccuracy_eq (canonical : number.Canonical) (covers : number.Covers amount)
    (keeps : Keeps (.ofMantissaAndAccuracy mantissa accuracy) (amount / 2 ^ exponent))
    (enough : exponent ≤ Format.binary64.targetExponent (totalExponent mantissa exponent))
    (sign : Sign) :
    roundWithAccuracy .binary64 sign mantissa exponent accuracy =
      .finite sign number.significand number.exponent canonical.positive := by
  obtain ⟨kept, shifted, keeps⟩ := exists_shift_eq (covers.positive canonical) keeps enough
  have settled : shiftToTargetExponent .binary64 kept.roundedMantissa (lastPlace amount) .exact =
      (⟨number.significand, false, false⟩, number.exponent) := by
    rcases covers.lastPlace_eq canonical with same | ⟨lead, above, last, nearest⟩
    · rw [same] at keeps ⊢
      rw [keeps.rounded covers.nearest]
      exact shift_canonical canonical
    · rw [last] at keeps ⊢
      rw [keeps.rounded nearest, lead]
      exact shift_carry above
  unfold roundWithAccuracy
  rw [shifted]
  dsimp only
  rw [settled]
  exact dif_neg canonical.positive.ne'

end Binary64

end PipelineCapacity
