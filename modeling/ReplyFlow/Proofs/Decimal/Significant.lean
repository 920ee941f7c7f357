import ReplyFlow.Proofs.Decimal.Numerals
import ReplyFlow.Proofs.Decimal.Rounding

/-! Rounding to a number of leading digits: no number with so few digits is nearer. -/

set_option autoImplicit false

namespace ReplyFlow.Decimal

/-- A number with at most so many digits between its first and its last digit other than zero. -/
def Brief (count : Nat) (x : ℚ) : Prop :=
  ∃ digits power : ℤ, |digits| < 10 ^ count ∧ x = digits * 10 ^ power

/-- A number with at most so many digits, and none of these is nearer to `x`. -/
structure BriefFor (count : Nat) (x rounded : ℚ) : Prop where
  brief : Brief count rounded
  least : ∀ other, Brief count other → |rounded - x| ≤ |other - x|

variable {count : Nat} {x rounded : ℚ}

theorem Brief.neg (brief : Brief count x) : Brief count (-x) := by
  obtain ⟨digits, power, few, rfl⟩ := brief
  exact ⟨-digits, power, by rwa [abs_neg], by push_cast; ring⟩

theorem BriefFor.neg (near : BriefFor count x rounded) : BriefFor count (-x) (-rounded) where
  brief := near.brief.neg
  least other brief := by
    have closer := near.least (-other) brief.neg
    rw [← abs_neg, ← abs_neg (-other - x)] at closer
    have left : -(rounded - x) = -rounded - -x := by ring
    have right : -(-other - x) = other - -x := by ring
    rwa [left, right] at closer

theorem brief_zero (count : Nat) : Brief count 0 :=
  ⟨0, 0, by rw [abs_zero]; positivity, by simp⟩

theorem briefFor_zero (count : Nat) : BriefFor count 0 0 where
  brief := brief_zero count
  least other _ := by
    rw [sub_self, abs_zero]
    exact abs_nonneg _

/-- Only a number with few digits is kept as it is. -/
theorem BriefFor.eq_iff (near : BriefFor count x rounded) : rounded = x ↔ Brief count x := by
  constructor
  · rintro rfl
    exact near.brief
  · intro brief
    have closer := near.least x brief
    rw [sub_self, abs_zero] at closer
    exact sub_eq_zero.mp (abs_nonpos_iff.mp closer)

/-! ### Leading digits -/

namespace Ratio

variable {ratio : Ratio}

/-- Every value is less than the power of ten above its leading digit. -/
theorem lt_ten_zpow_order (positive : 0 < ratio.num) (some : 0 < ratio.den) :
    ratio.value < (10 : ℚ) ^ (ratio.order + 1) := by
  have scale : (0 : ℚ) < ratio.den := by exact_mod_cast some
  rw [order]
  split
  · next whole =>
    have digits := lt_ten_pow_decimalLength ratio.floor
    have exponent : (decimalLength ratio.floor : Int) - 1 + 1 = decimalLength ratio.floor := by ring
    have next : (ratio.floor + 1 : ℚ) ≤ 10 ^ decimalLength ratio.floor := by exact_mod_cast digits
    rw [exponent, zpow_natCast]
    exact (lt_floor some).trans_le next
  · next fraction =>
    have least := ten_pow_le_of_decimalLength (Nat.div_pos (not_le.mp fraction).le positive)
    rw [Nat.le_div_iff_mul_le positive] at least
    have length : 0 < decimalLength (ratio.den / ratio.num) := Nat.length_toDigits_pos
    generalize decimalLength (ratio.den / ratio.num) = size at *
    have less : (10 : ℚ) ^ (size - 1) * ratio.num ≤ ratio.den := by exact_mod_cast least
    have power : (0 : ℚ) < 10 ^ (size - 1) := by positivity
    dsimp only
    split
    · next exact =>
      have exponent : 1 - (size : Int) + 1 = -((size - 1 : Nat) : Int) + 1 := by omega
      rw [exponent, zpow_add₀ (by norm_num), zpow_neg, zpow_natCast, value, div_lt_iff₀ scale]
      have same : (ratio.num * 10 ^ (size - 1) : ℚ) = ratio.den := by exact_mod_cast exact
      rw [← same]
      have number : (0 : ℚ) < ratio.num := by exact_mod_cast positive
      field_simp
      norm_num
    · next other =>
      have exponent : -(size : Int) + 1 = -((size - 1 : Nat) : Int) := by omega
      have apart : (10 : ℚ) ^ (size - 1) * ratio.num ≠ ratio.den := by
        rw [mul_comm]
        exact_mod_cast other
      rw [exponent, zpow_neg, zpow_natCast, value, div_lt_iff₀ scale, lt_inv_mul_iff₀ power]
      exact lt_of_le_of_ne less apart

end Ratio

/-- A power of ten itself has one digit only. -/
theorem brief_of_le {steps : ℤ} (above : 0 ≤ steps) (below : steps ≤ 10 ^ (count + 1)) (power : ℤ) :
    Brief (count + 1) (steps * 10 ^ power) := by
  rcases below.lt_or_eq with fewer | rfl
  · exact ⟨steps, power, by rwa [abs_of_nonneg above], rfl⟩
  · refine ⟨1, power + (count + 1 : Nat), ?_, ?_⟩
    · rw [abs_one]
      exact one_lt_pow₀ (by norm_num) (Nat.succ_ne_zero count)
    · rw [zpow_add₀ (by norm_num), zpow_natCast]
      push_cast
      ring

/-- What has lower digits lies below all values with this leading digit. -/
theorem le_of_finer {digits lower power : ℤ} (few : |digits| < 10 ^ (count + 1))
    (finer : lower < power) : (digits : ℚ) * 10 ^ lower ≤ 10 ^ count * 10 ^ power := by
  have few : (digits : ℚ) ≤ 10 ^ (count + 1) := by
    exact_mod_cast (le_abs_self digits).trans few.le
  calc (digits : ℚ) * 10 ^ lower ≤ 10 ^ (count + 1) * 10 ^ lower :=
        mul_le_mul_of_nonneg_right few (by positivity)
    _ = 10 ^ count * 10 ^ (lower + 1) := by
        rw [zpow_add₀ (by norm_num), zpow_one]
        ring
    _ ≤ 10 ^ count * 10 ^ power :=
        mul_le_mul_of_nonneg_left (zpow_le_zpow_right₀ (by norm_num) (by omega)) (by positivity)

/-- The steps nearest to a value are the best that its leading digits can do, if as many of these
stand above the steps. -/
theorem briefFor_steps {power steps : ℤ} (low : 10 ^ count * (10 : ℚ) ^ power ≤ x)
    (high : x < 10 ^ (count + 1) * (10 : ℚ) ^ power)
    (near : ∀ other : ℤ, |steps * (10 : ℚ) ^ power - x| ≤ |other * (10 : ℚ) ^ power - x|) :
    BriefFor (count + 1) x (steps * 10 ^ power) := by
  have unit : (0 : ℚ) < 10 ^ power := by positivity
  have least := near (10 ^ count)
  have most := near (10 ^ (count + 1))
  push_cast at least most
  rw [abs_of_nonpos (by linarith : (10 : ℚ) ^ count * 10 ^ power - x ≤ 0), abs_le] at least
  rw [abs_of_pos (by linarith : (0 : ℚ) < 10 ^ (count + 1) * 10 ^ power - x), abs_le] at most
  have above : (10 : ℚ) ^ count ≤ steps := le_of_mul_le_mul_right (by linarith) unit
  have below : (steps : ℚ) ≤ 10 ^ (count + 1) := le_of_mul_le_mul_right (by linarith) unit
  have above : 10 ^ count ≤ steps := by exact_mod_cast above
  have below : steps ≤ 10 ^ (count + 1) := by exact_mod_cast below
  have some : (0 : ℤ) < 10 ^ count := by positivity
  refine ⟨brief_of_le (by omega) below power, ?_⟩
  rintro _ ⟨digits, lower, few, rfl⟩
  rcases le_or_gt power lower with coarse | fine
  · obtain ⟨more, rfl⟩ := Int.le.dest coarse
    have multiple := near (digits * 10 ^ more)
    rw [zpow_add₀ (by norm_num), zpow_natCast]
    push_cast at multiple
    rwa [← mul_assoc, mul_right_comm]
  · have small := le_of_finer few fine
    rw [abs_of_nonpos (by linarith : (digits : ℚ) * 10 ^ lower - x ≤ 0)]
    exact abs_le.mpr ⟨by linarith, by linarith⟩

section

variable {ratio : Ratio} (some : 0 < ratio.den) (power : ℤ)
include some

theorem Ratio.round_shift_least (other : ℤ) :
    |((ratio.shift (-power)).round : ℚ) * 10 ^ power - ratio.value| ≤
      |other * (10 : ℚ) ^ power - ratio.value| := by
  have unit : (0 : ℚ) < 10 ^ power := by positivity
  have scaled := Ratio.value_shift ratio (-power)
  rw [Ratio.value, zpow_neg, ← div_eq_mul_inv] at scaled
  have closer := nearestEven_least (ratio.shift (-power)).num (Ratio.den_shift some (-power)) other
  rw [scaled] at closer
  have spread (number : ℚ) : |number * 10 ^ power - ratio.value| =
      |number - ratio.value / 10 ^ power| * 10 ^ power := by
    rw [← abs_of_pos unit, ← abs_mul, abs_of_pos unit, sub_mul, div_mul_cancel₀ _ unit.ne']
  rw [spread, spread]
  exact mul_le_mul_of_nonneg_right closer unit.le

theorem Ratio.round_shift_pos (low : 10 ^ count * (10 : ℚ) ^ power ≤ ratio.value) :
    0 < (ratio.shift (-power)).round := by
  have positive : (0 : ℚ) < 10 ^ count * 10 ^ power := by positivity
  by_contra none
  have least := round_shift_least some power (10 ^ count)
  rw [Nat.eq_zero_of_not_pos none, Nat.cast_zero, zero_mul, zero_sub, abs_neg,
    abs_of_pos (positive.trans_le low)] at least
  push_cast at least
  rw [abs_of_nonpos (by linarith)] at least
  linarith

end

/-- The leading digits of a value are the best that so many digits can do. -/
theorem significant_spec {ratio : Ratio} (positive : 0 < ratio.num) (some : 0 < ratio.den)
    (count : Nat) :
    (significant ratio (count + 1)).Proper ∧
      BriefFor (count + 1) ratio.value (significant ratio (count + 1)).value := by
  have low := Ratio.ten_zpow_order_le positive some
  have high := Ratio.lt_ten_zpow_order positive some
  obtain ⟨power, same⟩ : ∃ power : ℤ, ratio.order - ((count + 1 : Nat) : ℤ) + 1 = power := ⟨_, rfl⟩
  have order : ratio.order = count + power := by
    push_cast at same
    omega
  rw [order, zpow_add₀ (by norm_num), zpow_natCast] at low
  rw [order, add_right_comm, zpow_add₀ (by norm_num), ← Nat.cast_succ, zpow_natCast] at high
  obtain ⟨proper, worth⟩ := Numeral.ofScaled_spec (Ratio.round_shift_pos some power low) power
  have brief : BriefFor (count + 1) ratio.value (((ratio.shift (-power)).round : ℤ) * 10 ^ power) :=
    briefFor_steps low high (Ratio.round_shift_least some power)
  rw [Int.cast_natCast, ← worth] at brief
  rw [significant, same]
  exact ⟨proper, brief⟩

end ReplyFlow.Decimal
