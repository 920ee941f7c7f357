import ReplyFlow.Decimal.Numeral
import ReplyFlow.Proofs.Decimal.Sums

/-! A numeral among the values that are rounded to a number is read as this number.

What is read is a product with a power of ten, or a quotient by one. Either is rounded once, from
its exact value, which is a fraction in units of the least positive number.
-/

set_option autoImplicit false

namespace ReplyFlow.Decimal

open Float.Model
open Float.Model.Format (binary64)
open Float.Model.UnpackedFloat (Accuracy ExtendedMantissa Sign)

/-! ### Fractions near a number -/

/-- A whole number is what a quotient is rounded to if it is no more than half away, and even where
it is half away. -/
theorem nearestEven_eq {num den whole : Nat} (some : 0 < den)
    (low : 4 * whole * den ≤ 4 * num + 2 * den) (high : 4 * num ≤ 4 * whole * den + 2 * den)
    (odd : whole % 2 = 1 →
      4 * whole * den < 4 * num + 2 * den ∧ 4 * num < 4 * whole * den + 2 * den) :
    nearestEven num den = whole := by
  have parts := Nat.div_add_mod num den
  have inside := Nat.mod_lt num some
  rw [nearestEven]
  generalize num / den = quotient at parts ⊢
  generalize num % den = rest at parts inside ⊢
  rw [Nat.mul_assoc] at low high odd
  have apart {a b : Nat} (less : a < b) : a * den + den ≤ b * den := by
    rw [← Nat.succ_mul]
    exact Nat.mul_le_mul_right den less
  rw [Nat.mul_comm den] at parts
  rcases Nat.lt_trichotomy whole quotient with less | rfl | more
  · have gap := apart less
    omega
  · split_ifs <;> omega
  · rcases Nat.lt_or_ge (quotient + 1) whole with far | near
    · have gap := apart far
      rw [Nat.succ_mul quotient] at gap
      omega
    · obtain rfl : whole = quotient + 1 := by omega
      rw [Nat.succ_mul quotient] at low high odd
      split_ifs <;> omega

/-- How many quarters of the last digit lie between a number and the values below it that are not
rounded to it. There are fewer where the last digit of the numbers below is half as great. -/
def quarters (mantissa power : Nat) : Nat :=
  if mantissa = 2 ^ 52 ∧ 0 < power then 1 else 2

/-- A value, in units of the least positive number, that is rounded to `mantissa * 2 ^ power`. -/
structure Near (value : ℚ) (mantissa power : Nat) : Prop where
  low : 4 * mantissa * 2 ^ power ≤ 4 * value + quarters mantissa power * 2 ^ power
  high : 4 * value ≤ 4 * mantissa * 2 ^ power + 2 * 2 ^ power
  odd : mantissa % 2 = 1 →
    4 * mantissa * 2 ^ power < 4 * value + quarters mantissa power * 2 ^ power ∧
      4 * value < 4 * mantissa * 2 ^ power + 2 * 2 ^ power

/-- The same inequalities between whole numbers. -/
theorem Near.of_quotient {num den mantissa power : Nat} (some : 0 < den)
    (near : Near (num / den) mantissa power) :
    4 * (mantissa * (2 ^ power * den)) ≤
        4 * num + quarters mantissa power * (2 ^ power * den) ∧
      4 * num ≤ 4 * (mantissa * (2 ^ power * den)) + 2 * (2 ^ power * den) ∧
      (mantissa % 2 = 1 →
        4 * (mantissa * (2 ^ power * den)) <
            4 * num + quarters mantissa power * (2 ^ power * den) ∧
          4 * num < 4 * (mantissa * (2 ^ power * den)) + 2 * (2 ^ power * den)) := by
  have scale : (0 : ℚ) < den := by exact_mod_cast some
  have whole : (num / den : ℚ) * den = num := div_mul_cancel₀ _ scale.ne'
  have middle : 4 * mantissa * 2 ^ power * den =
      ((4 * (mantissa * (2 ^ power * den)) : Nat) : ℚ) := by
    push_cast
    ring
  have raised (steps : Nat) : (4 * (num / den) + steps * 2 ^ power) * den =
      ((4 * num + steps * (2 ^ power * den) : Nat) : ℚ) := by
    rw [add_mul, mul_assoc, whole]
    push_cast
    ring
  have value : 4 * (num / den) * den = ((4 * num : Nat) : ℚ) := by
    rw [mul_assoc, whole]
    push_cast
    rfl
  have upper : (4 * mantissa * 2 ^ power + 2 * 2 ^ power) * den =
      ((4 * (mantissa * (2 ^ power * den)) + 2 * (2 ^ power * den) : Nat) : ℚ) := by
    push_cast
    ring
  obtain ⟨low, high, odd⟩ := near
  refine ⟨?_, ?_, fun tie => ?_⟩
  · have scaled := mul_le_mul_of_nonneg_right low scale.le
    rw [middle, raised] at scaled
    exact_mod_cast scaled
  · have scaled := mul_le_mul_of_nonneg_right high scale.le
    rw [value, upper] at scaled
    exact_mod_cast scaled
  · obtain ⟨below, above⟩ := odd tie
    have scaled := mul_lt_mul_of_pos_right below scale
    have scaled' := mul_lt_mul_of_pos_right above scale
    rw [middle, raised] at scaled
    rw [value, upper] at scaled'
    exact ⟨by exact_mod_cast scaled, by exact_mod_cast scaled'⟩

/-- A fraction has so many whole digits beyond 53, and is rounded to a multiple of the last one. -/
structure Rounding (num den last rounded : Nat) : Prop where
  place : (num / den).log2 - 52 = last
  result : nearestEven num (den * 2 ^ last) = rounded
  positive : 0 < rounded
  bound : rounded ≤ 2 ^ 53
  many : 2 ^ 52 ≤ rounded ∨ last = 0

theorem log2_quotient {num den place : Nat} (some : 0 < den)
    (least : 2 ^ 52 * (2 ^ place * den) ≤ num) (less : num < 2 ^ 53 * (2 ^ place * den)) :
    (num / den).log2 = 52 + place := by
  rw [← Nat.mul_assoc, ← Nat.pow_add] at least less
  have above := (Nat.le_div_iff_mul_le some).mpr least
  have below := (Nat.div_lt_iff_lt_mul some).mpr less
  rw [Nat.add_right_comm 52 1 place] at below
  have positive := (Nat.two_pow_pos _).trans_le above
  exact (Nat.log2_eq_iff positive.ne').mpr ⟨above, below⟩

theorem Near.exists_rounding {num den mantissa power : Nat} (some : 0 < den)
    (positive : 0 < mantissa) (few : mantissa < 2 ^ 53) (many : 2 ^ 52 ≤ mantissa ∨ power = 0)
    (near : Near (num / den) mantissa power) :
    ∃ last rounded, Rounding num den last rounded ∧ rounded * 2 ^ last = mantissa * 2 ^ power := by
  obtain ⟨low, high, odd⟩ := near.of_quotient some
  have scale : 0 < 2 ^ power * den := Nat.mul_pos (Nat.two_pow_pos power) some
  have fewer : quarters mantissa power ≤ 2 := by
    rw [quarters]
    split <;> omega
  have most : mantissa * (2 ^ power * den) + 2 ^ power * den ≤ 2 ^ 53 * (2 ^ power * den) := by
    rw [← Nat.succ_mul]
    exact Nat.mul_le_mul_right _ few
  have slack := Nat.mul_le_mul_right (2 ^ power * den) fewer
  by_cases same : 2 ^ 52 * (2 ^ power * den) ≤ num ∨ power = 0
  · -- The number and the fraction have the same last digit.
    refine ⟨power, mantissa, ⟨?_, ?_, positive, few.le, many⟩, rfl⟩
    · rcases same with least | rfl
      · rw [log2_quotient some least (by omega), Nat.add_sub_cancel_left]
      · have less : num / den < 2 ^ 53 := (Nat.div_lt_iff_lt_mul some).mpr (by omega)
        have digits : (num / den).log2 < 53 := by
          rcases Nat.eq_zero_or_pos (num / den) with zero | more
          · rw [zero]
            decide
          · exact (Nat.log2_lt more.ne').mpr less
        omega
    · refine nearestEven_eq (Nat.mul_pos some (Nat.two_pow_pos power)) ?_ ?_ fun tie => ?_
      all_goals rw [Nat.mul_comm den, Nat.mul_assoc]
      · omega
      · omega
      · have strict := odd tie
        omega
  · -- The number is the least one with its last digit, and the fraction lies below it.
    rw [not_or, Nat.not_le] at same
    obtain ⟨less, above⟩ := same
    have full := many.resolve_right above
    have least : mantissa = 2 ^ 52 := by
      refine full.antisymm' (Nat.le_of_not_lt fun greater => ?_)
      have gap : 2 ^ 52 * (2 ^ power * den) + 2 ^ power * den ≤ mantissa * (2 ^ power * den) := by
        rw [← Nat.succ_mul]
        exact Nat.mul_le_mul_right _ greater
      omega
    rw [quarters, if_pos ⟨least, by omega⟩, least] at low
    obtain ⟨before, rfl⟩ : ∃ before, power = before + 1 := ⟨power - 1, by omega⟩
    have half : 2 ^ (before + 1) * den = 2 * (2 ^ before * den) := by
      rw [Nat.pow_succ]
      ring
    rw [half] at low less
    have digits : (num / den).log2 = 52 + before := log2_quotient some (by omega) (by omega)
    refine ⟨before, 2 ^ 53, ⟨?_, ?_, by decide, Nat.le_refl _, .inl (by decide)⟩, ?_⟩
    · rw [digits, Nat.add_sub_cancel_left]
    · refine nearestEven_eq (Nat.mul_pos some (Nat.two_pow_pos before)) ?_ ?_ nofun
      all_goals rw [Nat.mul_comm den, Nat.mul_assoc]
      · omega
      · omega
    · rw [least, Nat.pow_succ]
      ring

/-! ### Products and quotients -/

/-- Digits that are gained by a power of two are whole ones, once there is one. -/
theorem log2_mul_two_pow_div {num den power : Nat} (some : 0 < den)
    (enough : 2 ^ 52 ≤ num / den ∨ power = 0) :
    (num * 2 ^ power / den).log2 = (num / den).log2 + power := by
  rcases enough with many | rfl
  · have positive : num / den ≠ 0 := by omega
    have low := Nat.log2_self_le positive
    have high := @Nat.lt_log2_self (num / den)
    have scale := Nat.two_pow_pos power
    rw [Nat.le_div_iff_mul_le some] at low
    rw [Nat.div_lt_iff_lt_mul some] at high
    have above : 2 ^ ((num / den).log2 + power) ≤ num * 2 ^ power / den := by
      rw [Nat.le_div_iff_mul_le some, Nat.pow_add, Nat.mul_right_comm]
      exact Nat.mul_le_mul_right _ low
    have below : num * 2 ^ power / den < 2 ^ ((num / den).log2 + power + 1) := by
      rw [Nat.div_lt_iff_lt_mul some, Nat.add_right_comm, Nat.pow_add, Nat.mul_right_comm]
      exact Nat.mul_lt_mul_of_pos_right high scale
    have more := (Nat.two_pow_pos _).trans_le above
    exact (Nat.log2_eq_iff more.ne').mpr ⟨above, below⟩
  · simp

/-- A fraction that is a whole number of units is rounded like this number. -/
theorem nearestTo_roundWithAccuracy (sign : Sign) {num den power value : Nat} (some : 0 < den)
    (positive : 0 < value) (enough : 2 ^ 52 ≤ num / den ∨ power = 0)
    (exact : num * 2 ^ power = value * den) :
    NearestTo (sign.apply value) (UnpackedFloat.roundWithAccuracy binary64 sign (num / den)
      ((power : Int) - 1074) (UnpackedFloat.accuracyOfFraction (num % den) den)) := by
  have digits := log2_mul_two_pow_div some enough
  rw [exact, Nat.mul_div_cancel _ some] at digits
  have wide : power ≤ lastDigit value := by
    rw [lastDigit, digits]
    rcases enough with more | rfl
    · have size := (Nat.le_log2 (by omega)).mpr more
      omega
    · exact Nat.zero_le _
  have result : nearestEven num (den * 2 ^ (lastDigit value - power)) =
      nearestEven value (2 ^ lastDigit value) := by
    rw [← nearestEven_mul_right num _ (Nat.two_pow_pos power), exact, Nat.mul_assoc, ← Nat.pow_add,
      Nat.sub_add_cancel wide, Nat.mul_comm den, nearestEven_mul_right _ _ some]
  obtain ⟨more, bound, many⟩ := digits_nearestEven positive
  obtain ⟨canonical, rounded⟩ := roundWithAccuracy_eq sign some (by rw [lastDigit, digits]) wide
    result more bound many
  refine ⟨canonical, fun other short => ?_⟩
  rw [rounded, sub_apply, abs_apply, ← abs_sub_apply sign other]
  exact nearest_le _ (short.apply sign)

/-- The divided number gets so many digits that the quotient has 53 of them. -/
theorem exists_div {m n power : Nat} {e f : Int} (some : 0 < m) (more : 0 < n)
    (difference : e - f = (power : Int) - 1074) :
    ∃ num place : Nat,
      UnpackedFloat.div binary64 (.finite .positive m e some) (.finite .positive n f more) =
        UnpackedFloat.roundWithAccuracy binary64 .positive (num / n) ((place : Int) - 1074)
          (UnpackedFloat.accuracyOfFraction (num % n) n) ∧
      (2 ^ 52 ≤ num / n ∨ place = 0) ∧ num * 2 ^ place = m * 2 ^ power := by
  let place := min power (m.log2 + power - n.log2 - 53)
  have target : min (e - f) (binary64.targetExponent (totalExponent m e - totalExponent n f)) =
      (place : Int) - 1074 := by
    change min (e - f) (max ((m.log2 : Int) + 1 + e - (n.log2 + 1 + f) - 53) (-1074)) = _
    omega
  have shift : (e - f - ((place : Int) - 1074)).toNat = power - place := by omega
  have core : UnpackedFloat.divCore binary64 m e n f =
      (m * 2 ^ (power - place) / n, (place : Int) - 1074,
        UnpackedFloat.accuracyOfFraction (m * 2 ^ (power - place) % n) n) := by
    rw [UnpackedFloat.divCore, target, shift, Nat.shiftLeft_eq]
  refine ⟨m * 2 ^ (power - place), place, by rw [UnpackedFloat.div, core]; rfl, ?_, ?_⟩
  · rcases Nat.eq_zero_or_pos place with none | positive
    · exact .inr none
    · left
      rw [Nat.le_div_iff_mul_le more]
      calc 2 ^ 52 * n ≤ 2 ^ 52 * 2 ^ (n.log2 + 1) := Nat.mul_le_mul_left _ Nat.lt_log2_self.le
        _ = 2 ^ (n.log2 + 53) := by rw [← Nat.pow_add]; congr 1; omega
        _ ≤ 2 ^ (m.log2 + (power - place)) := Nat.pow_le_pow_right two_pos (by omega)
        _ = 2 ^ m.log2 * 2 ^ (power - place) := Nat.pow_add ..
        _ ≤ m * 2 ^ (power - place) := Nat.mul_le_mul_right _ (Nat.log2_self_le some.ne')
  · rw [Nat.mul_assoc, ← Nat.pow_add, Nat.sub_add_cancel (min_le_left _ _)]

section

variable {mantissa last : Nat} (positive : 0 < mantissa) (few : mantissa < 2 ^ 53)
  (many : 2 ^ 52 ≤ mantissa ∨ last = 0)

include few many

theorem round_of_near {num den power : Nat} (some : 0 < den)
    (enough : 2 ^ 52 ≤ num / den ∨ power = 0)
    (near : Near ((num * 2 ^ power : Nat) / den) mantissa last) :
    UnpackedFloat.roundWithAccuracy binary64 .positive (num / den) ((power : Int) - 1074)
        (UnpackedFloat.accuracyOfFraction (num % den) den) =
      .finite .positive mantissa ((last : Int) - 1074) positive := by
  obtain ⟨place, rounded, rounding, same⟩ := near.exists_rounding some positive few many
  obtain ⟨digits, result, positive', bound, full⟩ := rounding
  rw [log2_mul_two_pow_div some enough] at digits
  have wide : power ≤ place := by
    rcases enough with more | rfl
    · have size := (Nat.le_log2 (by omega)).mpr more
      omega
    · exact Nat.zero_le _
  have scaled : den * 2 ^ place = den * 2 ^ (place - power) * 2 ^ power := by
    rw [Nat.mul_assoc, ← Nat.pow_add, Nat.sub_add_cancel wide]
  rw [scaled, nearestEven_mul_right _ _ (Nat.two_pow_pos power)] at result
  obtain ⟨canonical, value⟩ := roundWithAccuracy_eq .positive some digits wide result positive'
    bound full
  have other : Canonical (.finite .positive mantissa ((last : Int) - 1074) positive) :=
    .finite few (by omega) (by omega)
  refine eq_of_sameNumber (sameNumber_of_units canonical other ?_) nofun
  have exponent : ((last : Int) - 1074 + 1074).toNat = last := by omega
  rw [value, same, units, exponent]

theorem mul_of_near {m n power : Nat} {e f : Int} {some : 0 < m} {more : 0 < n}
    (sum : e + f = (power : Int) - 1074) (full : 2 ^ 52 ≤ m)
    (near : Near (m * n * 2 ^ power) mantissa last) :
    UnpackedFloat.mul binary64 (.finite .positive m e some) (.finite .positive n f more) =
      .finite .positive mantissa ((last : Int) - 1074) positive := by
  have enough : 2 ^ 52 ≤ m * n / 1 ∨ power = 0 := by
    rw [Nat.div_one]
    exact .inl (full.trans (Nat.le_mul_of_pos_right m more))
  have whole := round_of_near positive few many Nat.one_pos enough
    (by push_cast; rwa [div_one])
  rw [Nat.div_one, Nat.mod_one] at whole
  rw [UnpackedFloat.mul, sum]
  exact whole

theorem div_of_near {m n power : Nat} {e f : Int} {some : 0 < m} {more : 0 < n}
    (difference : e - f = (power : Int) - 1074) (near : Near (m * 2 ^ power / n) mantissa last) :
    UnpackedFloat.div binary64 (.finite .positive m e some) (.finite .positive n f more) =
      .finite .positive mantissa ((last : Int) - 1074) positive := by
  obtain ⟨num, place, quotient, enough, scaled⟩ := exists_div some more difference
  rw [quotient]
  refine round_of_near positive few many more enough ?_
  rw [scaled]
  push_cast
  exact near

end

/-! ### Whole numbers and powers of ten -/

/-- A whole number that is a binary64 number has 53 digits there. -/
theorem exists_of_units {number : UnpackedFloat} (canonical : Canonical number)
    {n digits depth : Nat} (deepest : depth = 1074) (some : 0 < n) (few : n < 2 ^ digits)
    (exact : units number = n * 2 ^ depth) :
    ∃ mantissa exponent positive, number = .finite .positive mantissa exponent positive ∧
      2 ^ 52 ≤ mantissa ∧ -52 ≤ exponent ∧ exponent + 52 < digits ∧
      (mantissa * 2 ^ exponent : ℚ) = n := by
  have large : 0 < n * 2 ^ depth := Nat.mul_pos some (Nat.two_pow_pos depth)
  cases number with
  | notANumber | infinity => nomatch canonical
  | zero sign =>
    change (0 : Int) = _ at exact
    norm_cast at exact
    omega
  | finite sign m e positive =>
    obtain ⟨power, lowest, short, full, value⟩ := exists_units canonical
    obtain rfl : e = power - depth := by rw [deepest]; exact lowest
    rw [value] at exact
    obtain ⟨rfl, same⟩ : sign = .positive ∧ m * 2 ^ power = n * 2 ^ depth := by
      cases sign with
      | negative =>
        change -((m * 2 ^ power : Nat) : Int) = _ at exact
        norm_cast at exact
        omega
      | positive =>
        change ((m * 2 ^ power : Nat) : Int) = _ at exact
        exact ⟨rfl, by exact_mod_cast exact⟩
    have above : 2 ^ depth < 2 ^ (53 + power) := by
      calc 2 ^ depth ≤ n * 2 ^ depth := Nat.le_mul_of_pos_left _ some
        _ = m * 2 ^ power := same.symm
        _ < 2 ^ 53 * 2 ^ power := Nat.mul_lt_mul_of_pos_right short (Nat.two_pow_pos power)
        _ = 2 ^ (53 + power) := (Nat.pow_add ..).symm
    have high := (Nat.pow_lt_pow_iff_right Nat.one_lt_two).mp above
    have least : 2 ^ 52 ≤ m := full.resolve_right (by omega)
    have below : 2 ^ (52 + power) < 2 ^ (digits + depth) := by
      calc 2 ^ (52 + power) = 2 ^ 52 * 2 ^ power := Nat.pow_add ..
        _ ≤ m * 2 ^ power := Nat.mul_le_mul_right _ least
        _ = n * 2 ^ depth := same
        _ < 2 ^ digits * 2 ^ depth := Nat.mul_lt_mul_of_pos_right few (Nat.two_pow_pos depth)
        _ = 2 ^ (digits + depth) := (Nat.pow_add ..).symm
    have low := (Nat.pow_lt_pow_iff_right Nat.one_lt_two).mp below
    refine ⟨m, _, positive, rfl, least, by omega, by omega, ?_⟩
    have units : (m * 2 ^ power : ℚ) = n * 2 ^ depth := by exact_mod_cast same
    rw [zpow_sub₀ two_ne_zero, ← mul_div_assoc, zpow_natCast, zpow_natCast, units,
      mul_div_cancel_right₀ _ (pow_ne_zero depth two_ne_zero)]

/-- A whole number of 53 digits is kept as it is. -/
theorem exists_unpack_toFloat {n : Nat} (some : 0 < n) (few : n < 2 ^ 53) :
    ∃ mantissa exponent positive,
      n.toUInt64.toFloat.toModel.unpack = .finite .positive mantissa exponent positive ∧
      2 ^ 52 ≤ mantissa ∧ -52 ≤ exponent ∧ exponent + 52 < 53 ∧
      (mantissa * 2 ^ exponent : ℚ) = n := by
  -- A power as great as this one is not to be evaluated.
  obtain ⟨depth, deepest⟩ : ∃ depth, depth = 1074 := ⟨_, rfl⟩
  have nearest := nearestTo_normalize (n : Int) depth .positive
  have short : Short ((n : Int) * 2 ^ depth) :=
    ⟨n, depth, by rw [Nat.abs_cast]; exact_mod_cast few.le, rfl⟩
  have exact := nearest.least _ short
  rw [sub_self, abs_zero, abs_nonpos_iff, sub_eq_zero] at exact
  obtain ⟨mantissa, exponent, positive, same, full, low, high, value⟩ :=
    exists_of_units nearest.canonical deepest some few exact
  refine ⟨mantissa, exponent, positive, ?_, full, low, high, value⟩
  have word : n.toUInt64.toNat = n := Nat.mod_eq_of_lt (few.trans (by decide))
  have stored : n.toUInt64.toFloat.toModel.unpack = UnpackedFloat.unpack binary64
      (UnpackedFloat.pack binary64 (.normalize binary64 (n.toUInt64.toNat : Int) 0 .positive)) :=
    rfl
  have canonical := nearest.canonical
  rw [same] at canonical
  have none : (depth : Int) - 1074 = 0 := by omega
  rw [none] at same
  rw [stored, word, same, unpack_pack_finite canonical, if_pos (by omega)]

theorem units_powerOfTen : ∀ power : Fin 23,
    units Float.exactlyRepresentablePowersOfTen[power].toModel.unpack =
      10 ^ power.val * 2 ^ 1074 := by
  decide +kernel

theorem exists_unpack_powerOfTen {power : Nat} (bound : power < 23) :
    ∃ mantissa exponent positive,
      (Float.exactlyRepresentablePowersOfTen[power]).toModel.unpack =
        .finite .positive mantissa exponent positive ∧
      2 ^ 52 ≤ mantissa ∧ -52 ≤ exponent ∧ exponent + 52 < 92 ∧
      (mantissa * 2 ^ exponent : ℚ) = 10 ^ power := by
  obtain ⟨depth, deepest⟩ : ∃ depth, depth = 1074 := ⟨_, rfl⟩
  have exact := units_powerOfTen ⟨power, bound⟩
  have stored := stored_unpack (Float.exactlyRepresentablePowersOfTen[power])
  have few : 10 ^ power < 2 ^ 92 :=
    (Nat.pow_le_pow_right (by decide) (Nat.le_of_lt_succ bound)).trans_lt (by decide)
  have some : 0 < 10 ^ power := Nat.pow_pos (by decide)
  rw [← deepest] at exact
  change units (Float.exactlyRepresentablePowersOfTen[power]).toModel.unpack =
    10 ^ power * 2 ^ depth at exact
  generalize (Float.exactlyRepresentablePowersOfTen[power]).toModel.unpack = number at *
  have canonical : Canonical number := by
    cases stored with
    | undefined | infinity =>
      change (0 : Int) = _ at exact
      have large : (0 : Int) < 10 ^ power * 2 ^ depth := by positivity
      omega
    | zero sign => exact .zero sign
    | finite canonical _ => exact canonical
  obtain ⟨mantissa, exponent, positive, same, full, low, high, value⟩ :=
    exists_of_units canonical deepest some few (by exact_mod_cast exact)
  exact ⟨mantissa, exponent, positive, same, full, low, high, by exact_mod_cast value⟩

/-! ### Decimal numbers -/

/-- Products and quotients of great numbers are exact until they are rounded. -/
theorem exists_ofScientific {count depth : Nat} {power : Int} (deepest : depth = 1074)
    (some : 0 < count) (high : power ≤ 2048) (low : -(2048 + (count.log2 : Int)) ≤ power) :
    ∃ num den place : Nat,
      UnpackedFloat.ofScientific binary64 count power =
        UnpackedFloat.roundWithAccuracy binary64 .positive (num / den) ((place : Int) - 1074)
          (UnpackedFloat.accuracyOfFraction (num % den) den) ∧
      0 < den ∧ (2 ^ 52 ≤ num / den ∨ place = 0) ∧
      ((num * 2 ^ place : Nat) / den : ℚ) = count * 10 ^ power * 2 ^ depth := by
  have bits : (2 : Int) ^ binary64.exponentBits = 2048 := rfl
  have digits : binary64.mantissaBits = 53 := rfl
  rw [UnpackedFloat.ofScientific, dif_neg some.ne', bits, if_neg (by omega), if_neg (by omega)]
  split
  · next above =>
    -- The whole number gets 53 more digits, so that the product has enough of them.
    obtain ⟨exponent, rfl⟩ := Int.eq_ofNat_of_zero_le above
    obtain ⟨place, sum⟩ : ∃ place : Nat, -((binary64.mantissaBits : Nat) : Int) + 0 =
        (place : Int) - 1074 := ⟨1021, rfl⟩
    have wide := Nat.mul_le_mul_right (2 ^ 53) some
    have product := Nat.le_mul_of_pos_right (count * 2 ^ 53)
      (Nat.pow_pos (n := exponent) (by decide : 0 < 10))
    refine ⟨count * 2 ^ 53 * 10 ^ exponent, 1, place, ?_, Nat.one_pos, ?_, ?_⟩
    · rw [UnpackedFloat.mul, sum, digits, Nat.shiftLeft_eq, Nat.div_one, Nat.mod_one,
        Int.toNat_natCast]
      rfl
    · rw [Nat.div_one]
      omega
    · have whole : depth = 53 + place := by omega
      rw [whole, zpow_natCast, pow_add]
      push_cast
      ring
  · next below =>
    obtain ⟨exponent, same⟩ : ∃ exponent : Nat, power = -exponent := ⟨(-power).toNat, by omega⟩
    have difference : (0 : Int) - 0 = (depth : Int) - 1074 := by omega
    obtain ⟨num, place, quotient, enough, scaled⟩ := exists_div some
      (Nat.pow_pos (n := (-power).toNat) (by decide : 0 < 10)) difference
    refine ⟨num, _, place, quotient, Nat.pow_pos (by decide), enough, ?_⟩
    have positive : (-power).toNat = exponent := by omega
    rw [scaled, positive, same, zpow_neg, zpow_natCast]
    push_cast
    field_simp

section

variable {count mantissa last depth : Nat} {power : Int} (deepest : depth = 1074)
  (positive : 0 < mantissa) (few : mantissa < 2 ^ 53) (many : 2 ^ 52 ≤ mantissa ∨ last = 0)
  (range : last ≤ 2045) (near : Near (count * 10 ^ power * 2 ^ depth) mantissa last)

include few many range in
theorem unpack_pack_last :
    UnpackedFloat.unpack binary64 (UnpackedFloat.pack binary64
        (.finite .positive mantissa ((last : Int) - 1074) positive)) =
      .finite .positive mantissa ((last : Int) - 1074) positive := by
  have canonical : Canonical (.finite .positive mantissa ((last : Int) - 1074) positive) :=
    .finite few (by omega) (by omega)
  rw [unpack_pack_finite canonical, if_pos (by omega)]

include deepest few many range near

/-- A product of two binary64 numbers. -/
theorem unpack_mul_powerOfTen {exponent : Nat} (same : power = exponent) (some : 0 < count)
    (small : count < 2 ^ 53) (bound : exponent < 23) :
    (count.toUInt64.toFloat * Float.exactlyRepresentablePowersOfTen[exponent]).toModel.unpack =
      .finite .positive mantissa ((last : Int) - 1074) positive := by
  obtain ⟨m, e, _, left, full, low, _, first⟩ := exists_unpack_toFloat some small
  obtain ⟨n, f, _, right, _, low', _, second⟩ := exists_unpack_powerOfTen bound
  obtain ⟨place, sum⟩ : ∃ place : Nat, e + f = (place : Int) - 1074 :=
    ⟨(e + f + 1074).toNat, by omega⟩
  have scale : (2 : ℚ) ^ place = 2 ^ e * 2 ^ f * 2 ^ depth := by
    rw [← zpow_natCast, ← zpow_natCast, ← zpow_add₀ two_ne_zero, ← zpow_add₀ two_ne_zero]
    congr 1
    omega
  have value : (count * 10 ^ power * 2 ^ depth : ℚ) = m * n * 2 ^ place := by
    rw [scale, same, zpow_natCast, ← first, ← second]
    ring
  rw [value] at near
  change UnpackedFloat.unpack binary64 (UnpackedFloat.pack binary64
    (.mul binary64 count.toUInt64.toFloat.toModel.unpack
      (Float.exactlyRepresentablePowersOfTen[exponent]).toModel.unpack)) = _
  rw [left, right, mul_of_near positive few many sum full near,
    unpack_pack_last positive few many range]

/-- A quotient of two binary64 numbers. -/
theorem unpack_div_powerOfTen {exponent : Nat} (same : power = -exponent) (some : 0 < count)
    (small : count < 2 ^ 53) (bound : exponent < 23) :
    (count.toUInt64.toFloat / Float.exactlyRepresentablePowersOfTen[exponent]).toModel.unpack =
      .finite .positive mantissa ((last : Int) - 1074) positive := by
  obtain ⟨m, e, _, left, _, low, _, first⟩ := exists_unpack_toFloat some small
  obtain ⟨n, f, nonzero, right, _, _, high, second⟩ := exists_unpack_powerOfTen bound
  obtain ⟨place, difference⟩ : ∃ place : Nat, e - f = (place : Int) - 1074 :=
    ⟨(e - f + 1074).toNat, by omega⟩
  have scale : (2 : ℚ) ^ place = 2 ^ e / 2 ^ f * 2 ^ depth := by
    rw [← zpow_natCast, ← zpow_natCast, ← zpow_sub₀ two_ne_zero, ← zpow_add₀ two_ne_zero]
    congr 1
    omega
  have value : (count * 10 ^ power * 2 ^ depth : ℚ) = m * 2 ^ place / n := by
    rw [scale, same, zpow_neg, zpow_natCast, ← first, ← second]
    field_simp
  rw [value] at near
  change UnpackedFloat.unpack binary64 (UnpackedFloat.pack binary64
    (.div binary64 count.toUInt64.toFloat.toModel.unpack
      (Float.exactlyRepresentablePowersOfTen[exponent]).toModel.unpack)) = _
  rw [left, right, div_of_near positive few many difference near,
    unpack_pack_last positive few many range]

omit range in
theorem ofScientific_of_near (some : 0 < count) (high : power ≤ 2048)
    (low : -(2048 + (count.log2 : Int)) ≤ power) :
    UnpackedFloat.ofScientific binary64 count power =
      .finite .positive mantissa ((last : Int) - 1074) positive := by
  obtain ⟨num, den, place, rounded, more, enough, same⟩ :=
    exists_ofScientific deepest some high low
  rw [rounded]
  exact round_of_near positive few many more enough (same ▸ near)

omit deepest few many range in
include positive in
/-- Even the least of these values is half a unit. -/
theorem half_le_of_near : 1 / 2 ≤ (count * 10 ^ power * 2 ^ depth : ℚ) := by
  have low := near.low
  have scale : (1 : ℚ) ≤ 2 ^ last := one_le_pow₀ one_le_two
  have some : (1 : ℚ) ≤ mantissa := by exact_mod_cast positive
  have fewer : (quarters mantissa last : ℚ) ≤ 2 := by
    rw [quarters]
    split <;> norm_num
  have slack := mul_le_mul_of_nonneg_right fewer (zero_le_one.trans scale)
  have step := mul_le_mul_of_nonneg_right some (zero_le_one.trans scale)
  linarith

omit many in
theorem lt_of_near {top : Nat} (limit : top = 1024) :
    (count * 10 ^ power : ℚ) < 2 ^ top := by
  have high := near.high
  have scale : (0 : ℚ) < 2 ^ last := by positivity
  have most : (mantissa + 1 : ℚ) ≤ 2 ^ 53 := by exact_mod_cast few
  have step := mul_le_mul_of_nonneg_right most scale.le
  have wide : (2 : ℚ) ^ 53 * 2 ^ last ≤ 2 ^ top * 2 ^ depth := by
    rw [← pow_add, ← pow_add]
    exact pow_le_pow_right₀ one_le_two (by omega)
  refine lt_of_mul_lt_mul_right ?_ (by positivity : (0 : ℚ) ≤ 2 ^ depth)
  linarith

end

theorem lt_ten_pow_decimalLength (count : Nat) : count < 10 ^ decimalLength count :=
  (Nat.length_toDigits_le_iff (by decide) Nat.length_toDigits_pos).mp (Nat.le_refl _)

theorem ten_pow_le_of_decimalLength {count : Nat} (some : 0 < count) :
    10 ^ (decimalLength count - 1) ≤ count := by
  rcases Nat.eq_zero_or_pos (decimalLength count - 1) with none | positive
  · rw [none]
    exact some
  · refine Nat.le_of_not_lt fun less => ?_
    have shorter := (Nat.length_toDigits_le_iff (by decide) positive).mpr less
    rw [decimalLength] at shorter positive
    omega

/-- A decimal number of moderate size, in which the powers of two are easily compared with. -/
theorem lt_of_ten_zpow {low high : Int} (less : (2 : ℚ) ^ low < 10 ^ high) (below : high ≤ 0) :
    low < 3 * high := by
  obtain ⟨steps, rfl⟩ : ∃ steps : Nat, high = -steps := ⟨(-high).toNat, by omega⟩
  have eight : (10 : ℚ) ^ (-(steps : Int)) ≤ 2 ^ (3 * -(steps : Int)) := by
    rw [zpow_mul, zpow_neg, zpow_neg, zpow_natCast, zpow_natCast]
    exact inv_anti₀ (by positivity) (pow_le_pow_left₀ (by norm_num) (by norm_num) steps)
  exact (zpow_lt_zpow_iff_right₀ one_lt_two).mp (less.trans_le eight)

theorem lt_of_lt_two_zpow {low high : Int} (less : (10 : ℚ) ^ low < 2 ^ high) (above : 0 ≤ low) :
    3 * low < high := by
  obtain ⟨steps, rfl⟩ := Int.eq_ofNat_of_zero_le above
  have eight : (2 : ℚ) ^ (3 * (steps : Int)) ≤ 10 ^ (steps : Int) := by
    rw [zpow_mul, zpow_natCast, zpow_natCast]
    exact pow_le_pow_left₀ (by positivity) (by norm_num) steps
  exact (zpow_lt_zpow_iff_right₀ one_lt_two).mp (eight.trans_lt less)

/-- A decimal number is read as the number that its value is rounded to. -/
theorem unpack_ofDecimal {count mantissa last depth : Nat} {power : Int} (deepest : depth = 1074)
    (positive : 0 < mantissa) (few : mantissa < 2 ^ 53) (many : 2 ^ 52 ≤ mantissa ∨ last = 0)
    (range : last ≤ 2045) (near : Near (count * 10 ^ power * 2 ^ depth) mantissa last) :
    (ofDecimal count power).toModel.unpack =
      .finite .positive mantissa ((last : Int) - 1074) positive := by
  have half := half_le_of_near positive near
  have limit := lt_of_near deepest few range near rfl
  have some : 0 < count := by
    rcases Nat.eq_zero_or_pos count with rfl | some
    · norm_num at half
    · exact some
  -- The value lies well inside the range in which no number is decided by its size.
  have digits := lt_ten_pow_decimalLength count
  have least := ten_pow_le_of_decimalLength some
  have length : 0 < decimalLength count := Nat.length_toDigits_pos
  have low : -400 ≤ (decimalLength count : Int) + power := by
    have below : (2 : ℚ) ^ (-((depth : Int) + 1)) ≤ count * 10 ^ power := by
      rw [zpow_neg, zpow_add_one₀ two_ne_zero, zpow_natCast, inv_eq_one_div,
        div_le_iff₀ (by positivity)]
      linarith
    have above : (count * 10 ^ power : ℚ) < 10 ^ ((decimalLength count : Int) + power) := by
      rw [zpow_add₀ (by norm_num), zpow_natCast]
      exact mul_lt_mul_of_pos_right (by exact_mod_cast digits) (by positivity)
    have bound := lt_of_ten_zpow (below.trans_lt above)
    omega
  have high : (decimalLength count : Int) + power ≤ 400 := by
    have below : (10 : ℚ) ^ ((decimalLength count - 1 : Nat) + power) ≤ count * 10 ^ power := by
      rw [zpow_add₀ (by norm_num), zpow_natCast]
      exact mul_le_mul_of_nonneg_right (by exact_mod_cast least) (by positivity)
    have bound := lt_of_lt_two_zpow (below.trans_lt (by rwa [← zpow_natCast] at limit))
    omega
  have wide : decimalLength count ≤ count.log2 + 1 :=
    (Nat.length_toDigits_le_iff (by decide) (Nat.succ_pos _)).mpr
      (Nat.lt_log2_self.trans_le (Nat.pow_le_pow_left (by decide) _))
  have unknown : ¬ ((decide (count = 0) || decide ((decimalLength count : Int) + power < -400)) =
      true) := by
    simp only [Bool.or_eq_true, decide_eq_true_eq]
    omega
  rw [ofDecimal, if_neg unknown, if_neg (by omega)]
  split
  · next above =>
    obtain ⟨exponent, rfl⟩ := Int.eq_ofNat_of_zero_le above
    rw [Int.toNat_natCast, Float.ofScientific]
    split
    · next fast =>
      exact unpack_mul_powerOfTen deepest positive few many range near rfl some fast.1
        (Nat.lt_succ_of_le fast.2)
    · change UnpackedFloat.unpack binary64 (UnpackedFloat.pack binary64
        (.ofScientific binary64 count exponent)) = _
      rw [ofScientific_of_near deepest positive few many near some (by omega) (by omega),
        unpack_pack_last positive few many range]
  · next below =>
    obtain ⟨exponent, rfl⟩ : ∃ exponent : Nat, power = -exponent := ⟨(-power).toNat, by omega⟩
    rw [neg_neg, Int.toNat_natCast, Float.ofScientific]
    split
    · next fast =>
      exact unpack_div_powerOfTen deepest positive few many range near rfl some fast.1
        (Nat.lt_succ_of_le fast.2)
    · change UnpackedFloat.unpack binary64 (UnpackedFloat.pack binary64
        (.ofScientific binary64 count (Int.negOfNat exponent))) = _
      rw [Int.negOfNat_eq, Int.ofNat_eq_natCast,
        ofScientific_of_near deepest positive few many near some (by omega) (by omega),
        unpack_pack_last positive few many range]

end ReplyFlow.Decimal
