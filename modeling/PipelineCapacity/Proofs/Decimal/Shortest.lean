import PipelineCapacity.Proofs.Decimal.Literal

/-!
The digits that are written for a number stand for it. The interval of a number
is measured in a unit, a point is taken only if it lies in the interval, and a
grid of 17 places has one that does.
-/

set_option autoImplicit false

namespace PipelineCapacity.Decimal

variable {number : Binary} {interval : Interval} {unit : ℚ} {tiesUp : Bool} {point : Nat}

/-- The interval of a number, measured in a unit. -/
structure Interval.Spans (interval : Interval) (number : Binary) (unit : ℚ) : Prop where
  positive : 0 < interval.denominator
  low : interval.low * unit = interval.denominator *
    ((number.significand - if number.narrowBelow then 1 / 4 else 1 / 2) * 2 ^ number.exponent)
  mid : interval.mid * unit = interval.denominator * number.value
  high : interval.high * unit =
    interval.denominator * ((number.significand + 1 / 2) * 2 ^ number.exponent)
  closed : interval.closed = (number.significand % 2 == 0)

theorem Binary.Canonical.spans (canonical : number.Canonical) : number.interval.Spans number 1 := by
  have positive := canonical.positive
  have low : ((4 * number.significand - if number.narrowBelow then 1 else 2 : Nat) : ℚ) =
      4 * (number.significand - if number.narrowBelow then 1 / 4 else 1 / 2) := by
    rw [Nat.cast_sub (by split <;> omega)]
    split <;> push_cast <;> ring
  have quarter : (2 : ℚ) ^ number.exponent = 4 * 2 ^ (number.exponent - 2) := by
    rw [zpow_sub₀ two_ne_zero]
    norm_num
    ring
  unfold Binary.interval
  dsimp only
  by_cases whole : 0 ≤ number.exponent - 2
  · rw [if_pos whole]
    refine ⟨Nat.one_pos, ?_, ?_, ?_, rfl⟩ <;> dsimp only <;>
      simp only [Binary.value, quarter, zpow_of_nonneg 2 whole, Nat.pow_eq, Nat.cast_mul, low] <;>
      push_cast <;> ring
  · rw [if_neg whole]
    refine ⟨Nat.pow_pos two_pos, ?_, ?_, ?_, rfl⟩ <;> dsimp only <;>
      simp only [Binary.value, quarter, zpow_of_neg 2 (not_le.mp whole), Nat.pow_eq, low] <;>
      push_cast <;> field_simp
    ring

namespace Interval

/-- Only points of the interval next to the number are taken. -/
theorem of_point? (found : interval.point? tiesUp = some point) :
    interval.contains point = true ∧ point ≤ interval.mid / interval.denominator + 1 := by
  unfold point? at found
  dsimp only at found
  split at found
  · rename_i below _
    cases found
    exact ⟨below, Nat.le_succ _⟩
  · rename_i _ above
    cases found
    exact ⟨above, le_rfl⟩
  · cases found
  · rename_i below above
    split_ifs at found <;> cases found
    · exact ⟨below, Nat.le_succ _⟩
    · exact ⟨above, le_rfl⟩
    · exact ⟨above, le_rfl⟩
    · exact ⟨below, Nat.le_succ _⟩

theorem not_contains_of_point? (vacant : interval.point? tiesUp = none) :
    interval.contains (interval.mid / interval.denominator) = false ∧
      interval.contains (interval.mid / interval.denominator + 1) = false := by
  unfold point? at vacant
  dsimp only at vacant
  split at vacant
  · cases vacant
  · cases vacant
  · rename_i below above
    exact ⟨below, above⟩
  · split_ifs at vacant

namespace Spans

theorem onGrid (spans : interval.Spans number 1) (exponent : Int) :
    (interval.onGrid exponent).Spans number (10 ^ exponent) := by
  obtain ⟨positive, low, mid, high, closed⟩ := spans
  rw [mul_one] at low mid high
  unfold Interval.onGrid
  dsimp only
  by_cases whole : 0 ≤ exponent
  · rw [if_pos whole]
    refine ⟨Nat.mul_pos positive (Nat.pow_pos (by decide)), ?_, ?_, ?_, closed⟩ <;> dsimp only <;>
      rw [zpow_of_nonneg 10 whole, Nat.pow_eq] <;> push_cast
    · rw [low]; ring
    · rw [mid]; ring
    · rw [high]; ring
  · rw [if_neg whole]
    refine ⟨positive, ?_, ?_, ?_, closed⟩ <;> dsimp only <;>
      rw [zpow_of_neg 10 (not_le.mp whole), Nat.pow_eq] <;> push_cast
    · rw [← low]; field_simp
    · rw [← mid]; field_simp
    · rw [← high]; field_simp

variable (spans : interval.Spans number unit) (fine : 0 < unit)

include spans fine

theorem contains_iff : interval.contains point = true ↔ number.Covers (point * unit) := by
  have positive : (0 : ℚ) < interval.denominator := by exact_mod_cast spans.positive
  have power : (0 : ℚ) < 2 ^ number.exponent := zpow_pos two_pos _
  have scaled : number.Covers (point * unit) ↔
      Between (number.significand % 2 == 0) interval.low interval.high
        ((point * interval.denominator : Nat) : ℚ) := by
    have measured : Between (number.significand % 2 == 0) (interval.low * unit)
        (interval.high * unit) (((point * interval.denominator : Nat) : ℚ) * unit) ↔
        Between (number.significand % 2 == 0) interval.low interval.high
          ((point * interval.denominator : Nat) : ℚ) := Between.mul_iff fine
    unfold Binary.Covers
    rw [← measured, ← Between.mul_iff power, ← Between.mul_iff positive, spans.low, spans.high,
      div_mul_cancel₀ _ power.ne']
    push_cast
    rw [mul_comm _ (interval.denominator : ℚ), mul_comm _ (interval.denominator : ℚ),
      mul_right_comm (point : ℚ)]
  rw [scaled, ← spans.closed]
  unfold Interval.contains Between
  cases interval.closed <;> simp <;> norm_cast

theorem reached_iff : interval.denominator ≤ interval.mid ↔ unit ≤ number.value := by
  have positive : (0 : ℚ) < interval.denominator := by exact_mod_cast spans.positive
  rw [← mul_le_mul_iff_right₀ positive, ← spans.mid, mul_le_mul_iff_left₀ fine, Nat.cast_le]

/-- The number lies between the two points next to it. -/
theorem floor :
    ((interval.mid / interval.denominator : Nat) : ℚ) * unit ≤ number.value ∧
      number.value < (interval.mid / interval.denominator + 1 : Nat) * unit := by
  have split : (interval.denominator : ℚ) * (interval.mid / interval.denominator : Nat) +
      (interval.mid % interval.denominator : Nat) = interval.mid := by
    exact_mod_cast Nat.div_add_mod interval.mid interval.denominator
  have rest : ((interval.mid % interval.denominator : Nat) : ℚ) < interval.denominator := by
    exact_mod_cast Nat.mod_lt interval.mid spans.positive
  have least : (0 : ℚ) ≤ (interval.mid % interval.denominator : Nat) := Nat.cast_nonneg _
  have positive : (0 : ℚ) < interval.denominator := by exact_mod_cast spans.positive
  have mid := spans.mid
  generalize interval.mid / interval.denominator = below at split ⊢
  generalize interval.mid % interval.denominator = part at split rest least
  rw [← split] at mid
  have lower : 0 ≤ part * unit := mul_nonneg least fine.le
  have upper : part * unit < interval.denominator * unit := mul_lt_mul_of_pos_right rest fine
  refine ⟨le_of_mul_le_mul_left ?_ positive, lt_of_mul_lt_mul_left ?_ positive.le⟩
  · linarith
  · push_cast
    linarith

end Spans

end Interval

/-- A grid of 17 places is finer than the interval is wide. -/
theorem grid_lt {grid : ℚ} (canonical : number.Canonical)
    (fine : grid * 10 ^ 16 ≤ number.significand) :
    grid < (if number.narrowBelow then 1 / 4 else 1 / 2) + 1 / 2 := by
  have small : (number.significand : ℚ) + 1 ≤ 2 ^ 53 := by exact_mod_cast canonical.small
  split
  · rename_i narrow
    rw [(canonical.narrow.mp narrow).1] at fine
    norm_num at fine ⊢
    linarith
  · norm_num at small fine ⊢
    linarith

theorem Interval.Spans.exists_point (spans : interval.Spans number unit)
    (canonical : number.Canonical) (positive : 0 < unit) (fine : unit * 10 ^ 16 ≤ number.value)
    (tiesUp : Bool) : ∃ point, interval.point? tiesUp = some point := by
  cases found : interval.point? tiesUp with
  | some point => exact ⟨point, rfl⟩
  | none =>
      exfalso
      obtain ⟨notBelow, notAbove⟩ := not_contains_of_point? found
      obtain ⟨low, high⟩ := spans.floor positive
      rw [← Bool.not_eq_true, spans.contains_iff positive] at notBelow notAbove
      generalize interval.mid / interval.denominator = below at *
      -- Everything in units of the last place of the number.
      have power : (0 : ℚ) < 2 ^ number.exponent := zpow_pos two_pos _
      obtain ⟨grid, same⟩ : ∃ grid, unit = grid * 2 ^ number.exponent :=
        ⟨unit / 2 ^ number.exponent, (div_mul_cancel₀ _ power.ne').symm⟩
      have places (point : Nat) : (point * unit : ℚ) / 2 ^ number.exponent = point * grid := by
        rw [same, ← mul_assoc, mul_div_cancel_right₀ _ power.ne']
      have fine : grid * 10 ^ 16 ≤ number.significand := by
        refine le_of_mul_le_mul_right ?_ power
        rw [same, mul_right_comm] at fine
        exact fine
      have finer := grid_lt canonical fine
      unfold Binary.Covers at notBelow notAbove
      rw [places] at notBelow notAbove
      rw [same, Binary.value, ← mul_assoc] at low high
      have low := le_of_mul_le_mul_right low power
      have high := lt_of_mul_lt_mul_right high power.le
      push_cast at high notAbove
      by_cases near : (number.significand : ℚ) - (if number.narrowBelow then 1 / 4 else 1 / 2) <
          below * grid
      · exact notBelow (.of_lt near (by linarith))
      · refine notAbove (.of_lt ?_ (by linarith))
        split_ifs at finer ⊢ <;> linarith

/-- A power of one number compares with a power of another as some powers do. -/
theorem zpow_le_zpow_of_pow_le {base other : ℚ} (power root : Nat) {exponent places : Int}
    (large : 1 ≤ base) (positive : 0 < other) (known : base ^ power ≤ other ^ root)
    (nonzero : root ≠ 0) (whole : 0 ≤ places) (less : root * exponent ≤ power * places) :
    base ^ exponent ≤ other ^ places := by
  have present : 0 < base := zero_lt_one.trans_le large
  refine le_of_pow_le_pow_left₀ nonzero (zpow_nonneg positive.le _) ?_
  calc
    (base ^ exponent) ^ root = base ^ ((root : Int) * exponent) := by
      rw [← zpow_natCast, ← zpow_mul, mul_comm]
    _ ≤ base ^ ((power : Int) * places) := zpow_le_zpow_right₀ large less
    _ = (base ^ power) ^ places := by rw [zpow_mul, zpow_natCast]
    _ ≤ (other ^ root) ^ places := zpow_le_zpow_left₀ whole (pow_nonneg present.le _) known
    _ = (other ^ places) ^ root := by
      rw [← zpow_natCast, ← zpow_natCast, ← zpow_mul, ← zpow_mul, mul_comm]

section Guess

variable {bits : Int} (least : -1100 ≤ bits) (greatest : bits ≤ 1100)

include least greatest

/-- The exponent that is guessed is hardly too large. -/
theorem ten_zpow_le_two_zpow : (10 : ℚ) ^ (bits * 30103 / 100000 - 1) ≤ 2 ^ bits := by
  by_cases whole : 0 ≤ bits
  · exact zpow_le_zpow_of_pow_le 31 103 (by norm_num) two_pos (by norm_num) (by decide) whole
      (by omega)
  · rw [← inv_le_inv₀ (by positivity) (by positivity), ← zpow_neg, ← zpow_neg]
    exact zpow_le_zpow_of_pow_le 93 28 one_le_two (by norm_num) (by norm_num) (by decide)
      (by omega) (by omega)

/-- The exponent that is guessed is hardly too small. -/
theorem two_zpow_le_ten_zpow : (2 : ℚ) ^ (bits + 2) ≤ 10 ^ (bits * 30103 / 100000 + 3) := by
  by_cases whole : 0 ≤ bits + 2
  · exact zpow_le_zpow_of_pow_le 93 28 one_le_two (by norm_num) (by norm_num) (by decide)
      (by omega) (by omega)
  · rw [← inv_le_inv₀ (by positivity) (by positivity), ← zpow_neg, ← zpow_neg]
    exact zpow_le_zpow_of_pow_le 31 103 (by norm_num) two_pos (by norm_num) (by decide)
      (by omega) (by omega)

end Guess

namespace Interval.Spans

variable (spans : interval.Spans number 1)

include spans

/-- The binary places of the number. -/
theorem bits_bounds (present : 0 < interval.mid) :
    (2 : ℚ) ^ ((interval.mid.log2 : Int) - interval.denominator.log2 - 1) ≤ number.value ∧
      number.value ≤ 2 ^ ((interval.mid.log2 : Int) - interval.denominator.log2 + 1) := by
  have positive : (0 : ℚ) < interval.denominator := by exact_mod_cast spans.positive
  have mid := spans.mid
  rw [mul_one] at mid
  have value : number.value = interval.mid / interval.denominator := by
    rw [mid, mul_div_cancel_left₀ _ positive.ne']
  have midLow : (2 : ℚ) ^ interval.mid.log2 ≤ interval.mid := by
    exact_mod_cast Nat.log2_self_le present.ne'
  have midHigh : (interval.mid : ℚ) ≤ 2 ^ (interval.mid.log2 + 1) := by
    exact_mod_cast Nat.lt_log2_self.le
  have low : (2 : ℚ) ^ interval.denominator.log2 ≤ interval.denominator := by
    exact_mod_cast Nat.log2_self_le spans.positive.ne'
  have high : (interval.denominator : ℚ) ≤ 2 ^ (interval.denominator.log2 + 1) := by
    exact_mod_cast Nat.lt_log2_self.le
  rw [value]
  constructor
  · rw [sub_sub, zpow_sub₀ two_ne_zero, zpow_natCast]
    exact div_le_div₀ (Nat.cast_nonneg _) midLow positive (by exact_mod_cast high)
  · rw [sub_add_eq_add_sub, zpow_sub₀ two_ne_zero, zpow_natCast]
    exact div_le_div₀ (by positivity) (by exact_mod_cast midHigh) (by positivity) low

variable (canonical : number.Canonical)

include canonical

/-- The leading digit stands where it is said to, or one place before. -/
theorem magnitude_bounds :
    (10 : ℚ) ^ (interval.magnitude - 1) ≤ number.value ∧
      number.value ≤ 10 ^ (interval.magnitude + 1) := by
  have covers := number.covers_value
  obtain ⟨least, greatest⟩ := covers.bounds canonical
  have present : 0 < interval.mid := by
    refine Nat.pos_of_ne_zero fun zero => ?_
    have mid := spans.mid
    rw [zero, Nat.cast_zero, zero_mul, zero_eq_mul] at mid
    exact mid.elim (Nat.cast_ne_zero.mpr spans.positive.ne') (covers.positive canonical).ne'
  obtain ⟨low, high⟩ := spans.bits_bounds present
  have lower : -1075 ≤ (interval.mid.log2 : Int) - interval.denominator.log2 + 1 :=
    (zpow_le_zpow_iff_right₀ one_lt_two).mp (least.trans high)
  have upper : (interval.mid.log2 : Int) - interval.denominator.log2 - 1 ≤ 1024 :=
    (zpow_le_zpow_iff_right₀ one_lt_two).mp (low.trans greatest)
  have reached (exponent : Int) :=
    (spans.onGrid exponent).reached_iff (zpow_pos (by norm_num) exponent)
  have grows {exponent other : Int} (less : exponent ≤ other) : (10 : ℚ) ^ exponent ≤ 10 ^ other :=
    zpow_le_zpow_right₀ (by norm_num) less
  unfold Interval.magnitude
  simp only [decide_eq_true_iff, reached]
  generalize (interval.mid.log2 : Int) - interval.denominator.log2 = bits at *
  have guessLow := ten_zpow_le_two_zpow (by omega : -1100 ≤ bits - 1) (by omega)
  have guessHigh := two_zpow_le_ten_zpow (by omega : -1100 ≤ bits - 1) (by omega)
  rw [show bits - 1 + 2 = bits + 1 by ring] at guessHigh
  generalize (bits - 1) * 30103 / 100000 = guess at *
  split_ifs with second first
  · rw [add_sub_assoc, add_assoc]
    exact ⟨second, high.trans guessHigh⟩
  · rw [add_sub_cancel_right]
    exact ⟨first, (not_le.mp second).le.trans (grows (by omega))⟩
  · exact ⟨guessLow.trans low, (not_le.mp first).le.trans (grows (by omega))⟩

end Interval.Spans

/-- The number that digits stand for. -/
def Digits.value (digits : Digits) : ℚ := digits.significand * 10 ^ digits.exponent

theorem Digits.trim_value (digits : Digits) (fuel : Nat) :
    (digits.trim fuel).value = digits.value := by
  induction fuel generalizing digits with
  | zero => rfl
  | succ fuel ih =>
      unfold Digits.trim
      split
      · rename_i last
        have split : 10 * (digits.significand / 10) = digits.significand := by
          have zero := eq_of_beq last
          omega
        rw [ih, Digits.value, Digits.value]
        dsimp only
        conv_rhs => rw [← split]
        rw [zpow_add_one₀ (by norm_num)]
        push_cast
        ring
      · rfl

theorem Digits.trim_le (digits : Digits) (fuel : Nat) :
    (digits.trim fuel).significand ≤ digits.significand := by
  induction fuel generalizing digits with
  | zero => exact le_rfl
  | succ fuel ih =>
      unfold Digits.trim
      split
      · exact (ih _).trans (Nat.div_le_self _ _)
      · exact le_rfl

/-- Digits that a number covers, and not too many. -/
structure Digits.StandFor (digits : Digits) (number : Binary) : Prop where
  covers : number.Covers digits.value
  short : digits.significand < 2 ^ 64

theorem Interval.Spans.floor_le {magnitude : Int} {places : Nat}
    (spans : interval.Spans number (10 ^ (magnitude - places)))
    (high : number.value ≤ 10 ^ (magnitude + 1)) (few : places ≤ 17) :
    interval.mid / interval.denominator ≤ 10 ^ 18 := by
  have positive : (0 : ℚ) < 10 ^ (magnitude - places) := zpow_pos (by norm_num) _
  have low := (spans.floor positive).1.trans high
  have split : magnitude + 1 = (places + 1 : Nat) + (magnitude - places) := by push_cast; ring
  rw [split, zpow_add₀ (by norm_num), zpow_natCast] at low
  have small : interval.mid / interval.denominator ≤ 10 ^ (places + 1) := by
    exact_mod_cast le_of_mul_le_mul_right low positive
  exact small.trans (Nat.pow_le_pow_right (by decide) (by omega))

/-- A point is found with 17 places at the latest. -/
theorem search_standFor (spans : interval.Spans number 1) (canonical : number.Canonical)
    {magnitude : Int} (low : (10 : ℚ) ^ (magnitude - 1) ≤ number.value)
    (high : number.value ≤ 10 ^ (magnitude + 1)) (tiesUp : Bool) {places count : Nat}
    (present : 0 < count) (enough : places + count = 18) :
    (search interval magnitude tiesUp places count).StandFor number := by
  induction count generalizing places with
  | zero => omega
  | succ count ih =>
      have positive : (0 : ℚ) < 10 ^ (magnitude - places) := zpow_pos (by norm_num) _
      have grid := spans.onGrid (magnitude - places)
      unfold search
      dsimp only
      split
      · rename_i point found
        obtain ⟨inside, near⟩ := Interval.of_point? found
        constructor
        · rw [Digits.trim_value]
          exact (grid.contains_iff positive).mp inside
        · have few := grid.floor_le high (by omega)
          exact (Digits.trim_le _ _).trans_lt (near.trans_lt (by omega))
      · rename_i vacant
        refine ih (Nat.pos_of_ne_zero fun zero => ?_) (by omega)
        have fine : (10 : ℚ) ^ (magnitude - places) * 10 ^ 16 ≤ number.value := by
          have last : magnitude - 1 = magnitude - places + (16 : Nat) := by omega
          rw [last, zpow_add₀ (by norm_num), zpow_natCast] at low
          exact low
        obtain ⟨point, found⟩ := grid.exists_point canonical positive fine tiesUp
        rw [vacant] at found
        cases found

/-- The digits that are written for a number stand for it. -/
theorem Binary.Canonical.shortest_standFor (canonical : number.Canonical) (tiesUp : Bool) :
    (number.shortest tiesUp).StandFor number := by
  obtain ⟨low, high⟩ := canonical.spans.magnitude_bounds canonical
  exact search_standFor canonical.spans canonical low high tiesUp (by decide) rfl

end PipelineCapacity.Decimal
