import ReplyFlow.Decimal.Rounding
import ReplyFlow.Proofs.Decimal.Packing

/-! A sum of binary64 numbers is the number nearest to the exact sum.

Finite numbers are counted in units of the least positive one, so that exact sums are whole.
-/

set_option autoImplicit false

namespace ReplyFlow.Decimal

open Float.Model
open Float.Model.Format (binary64)
open Float.Model.UnpackedFloat (Accuracy ExtendedMantissa Sign)

theorem nearestEven_mul_right (num den : Nat) {scale : Nat} (positive : 0 < scale) :
    nearestEven (num * scale) (den * scale) = nearestEven num den := by
  have left : 2 * (num * scale % (den * scale)) = 2 * (num % den) * scale := by
    rw [Nat.mul_mod_mul_right, Nat.mul_assoc]
  simp only [nearestEven, left, Nat.mul_div_mul_right _ _ positive, Nat.mul_lt_mul_right positive]

/-- A quotient whose remainder has been moved into the two residual bits. -/
structure Residual (num den : Nat) (extended : ExtendedMantissa) : Prop where
  mantissa : extended.mantissa = num / den
  round : extended.roundBit ↔ den ≤ 2 * (num % den)
  sticky : extended.stickyBit ↔ num % den ≠ 0 ∧ 2 * (num % den) ≠ den

theorem Residual.one_more {num den : Nat} {extended : ExtendedMantissa} (some : 0 < den)
    (residual : Residual num den extended) : Residual num (den * 2) extended.shiftRightOne := by
  obtain ⟨mantissa, round, sticky⟩ := residual
  have parts : num % (den * 2) = num % den + den * (num / den % 2) := Nat.mod_mul
  have inside := Nat.mod_lt num some
  constructor
  · rw [ExtendedMantissa.shiftRightOne, mantissa, Nat.div_div_eq_div_mul]
  · rw [ExtendedMantissa.shiftRightOne, mantissa, bne_iff_ne, parts]
    rcases Nat.mod_two_eq_zero_or_one (num / den) with even | odd
    · rw [even]
      omega
    · rw [odd]
      omega
  · rw [ExtendedMantissa.shiftRightOne, Bool.or_eq_true, round, sticky, parts]
    rcases Nat.mod_two_eq_zero_or_one (num / den) with even | odd
    · rw [even]
      omega
    · rw [odd]
      omega

theorem residual_quotient (num : Nat) {den : Nat} (some : 0 < den) :
    Residual num den (ExtendedMantissa.ofMantissaAndAccuracy (num / den)
      (UnpackedFloat.accuracyOfFraction (num % den) den)) := by
  rw [UnpackedFloat.accuracyOfFraction]
  split
  · next exact =>
    rw [ExtendedMantissa.ofMantissaAndAccuracy]
    constructor
    · rfl
    · simp [exact, Nat.pos_iff_ne_zero.mp some]
    · simp [exact]
  · next inexact =>
    rcases order : compare (2 * (num % den)) den with _ | _ | _ <;>
      rw [ExtendedMantissa.ofMantissaAndAccuracy]
    · have less := Nat.compare_eq_lt.mp order
      constructor <;> simp [inexact] <;> omega
    · have half := Nat.compare_eq_eq.mp order
      constructor <;> simp [inexact] <;> omega
    · have more := Nat.compare_eq_gt.mp order
      constructor <;> simp [inexact] <;> omega

theorem residual_shiftRight (num : Nat) {den : Nat} (some : 0 < den) (shift : Nat) :
    Residual num (den * 2 ^ shift) (ExtendedMantissa.ofMantissaAndAccuracy (num / den)
      (UnpackedFloat.accuracyOfFraction (num % den) den) >>> shift) := by
  induction shift with
  | zero =>
    rw [Nat.pow_zero, Nat.mul_one]
    exact residual_quotient num some
  | succ shift ih =>
    rw [Nat.pow_succ, ← Nat.mul_assoc]
    exact ih.one_more (Nat.mul_pos some (Nat.two_pow_pos shift))

/-- The residual bits are enough to round. -/
theorem Residual.roundedMantissa {num den : Nat} {extended : ExtendedMantissa} (some : 0 < den)
    (residual : Residual num den extended) :
    extended.roundedMantissa = nearestEven num den := by
  obtain ⟨mantissa, round, sticky⟩ := residual
  cases extended with
  | mk whole roundBit stickyBit =>
    subst mantissa
    rw [nearestEven]
    cases roundBit <;> cases stickyBit
    all_goals
      simp only [Bool.false_eq_true, false_iff, true_iff] at round sticky
      simp only [ExtendedMantissa.roundedMantissa, ExtendedMantissa.accuracy,
        Accuracy.roundToNearestEven]
    · rw [if_pos (by omega)]
    · rw [if_pos (by omega)]
    · rw [if_neg (by omega), if_neg (by omega)]
      split <;> omega
    · rw [if_neg (by omega), if_pos (by omega)]

/-! ### Rounding of one number -/

/-- How many units the last digit of a number stands for. -/
def lastDigit (number : Nat) : Nat :=
  number.log2 - 52

/-- The number with 53 digits nearest to `number`. -/
def nearest (number : Nat) : Nat :=
  nearestEven number (2 ^ lastDigit number) * 2 ^ lastDigit number

def units : UnpackedFloat → Int
  | .finite sign mantissa exponent _ => sign.apply ((mantissa * 2 ^ (exponent + 1074).toNat : Nat))
  | _ => 0

theorem log2_mul_two_pow {mantissa : Nat} (positive : 0 < mantissa) (power : Nat) :
    (mantissa * 2 ^ power).log2 = mantissa.log2 + power := by
  have scale := Nat.two_pow_pos power
  rw [Nat.log2_eq_iff (Nat.mul_pos positive scale).ne', Nat.pow_add, Nat.pow_succ, Nat.pow_add,
    Nat.mul_right_comm, ← Nat.pow_succ]
  exact ⟨Nat.mul_le_mul_right _ (Nat.log2_self_le positive.ne'),
    Nat.mul_lt_mul_of_pos_right Nat.lt_log2_self scale⟩

theorem targetExponent_eq (mantissa power : Nat) :
    binary64.targetExponent (totalExponent mantissa ((power : Int) - 1074)) =
      ((mantissa.log2 + power - 52 : Nat) : Int) - 1074 := by
  change max ((mantissa.log2 : Int) + 1 + ((power : Int) - 1074) - 53) (-1074) = _
  omega

theorem shiftToTargetExponent_eq (mantissa power : Nat) (accuracy : Accuracy) :
    UnpackedFloat.shiftToTargetExponent binary64 mantissa ((power : Int) - 1074) accuracy =
      (ExtendedMantissa.ofMantissaAndAccuracy mantissa accuracy
          >>> (mantissa.log2 + power - 52 - power),
        ((max power (mantissa.log2 + power - 52) : Nat) : Int) - 1074) := by
  have amount : (((mantissa.log2 + power - 52 : Nat) : Int) - 1074 - ((power : Int) - 1074)).toNat
      = mantissa.log2 + power - 52 - power := by omega
  rw [UnpackedFloat.shiftToTargetExponent, targetExponent_eq, UnpackedFloat.shiftToExponent, amount]
  congr 1
  omega

/-- Where one digit too many comes out of the first rounding, the second shift takes it away. -/
theorem roundWithAccuracy_eq (sign : Sign) {num den power last rounded : Nat} (some : 0 < den)
    (lowest : (num / den).log2 + power - 52 = last) (enough : power ≤ last)
    (result : nearestEven num (den * 2 ^ (last - power)) = rounded)
    (positive : 0 < rounded) (bound : rounded ≤ 2 ^ 53) (many : 2 ^ 52 ≤ rounded ∨ last = 0) :
    let number := UnpackedFloat.roundWithAccuracy binary64 sign (num / den) ((power : Int) - 1074)
      (UnpackedFloat.accuracyOfFraction (num % den) den)
    Canonical number ∧ units number = sign.apply (rounded * 2 ^ last : Nat) := by
  have whole := (residual_shiftRight num some (last - power)).roundedMantissa
    (Nat.mul_pos some (Nat.two_pow_pos _))
  have exponent (k : Nat) : ((k : Int) - 1074 + 1074).toNat = k := by omega
  rw [UnpackedFloat.roundWithAccuracy, shiftToTargetExponent_eq, lowest]
  -- rounding up can carry as far as `2 ^ 53`, which has a digit too many
  rcases bound.lt_or_eq with fewer | more
  · have digits := (Nat.log2_lt positive.ne').mpr fewer
    have second : UnpackedFloat.shiftToTargetExponent binary64 rounded ((last : Int) - 1074) .exact
        = (⟨rounded, false, false⟩, (last : Int) - 1074) := by
      have still : rounded.log2 + last - 52 - last = 0 := by omega
      have same : max last (rounded.log2 + last - 52) = last := by omega
      rw [shiftToTargetExponent_eq, still, same]
      rfl
    simp only [whole, result, Nat.max_eq_right enough, second, dif_neg positive.ne', units,
      exponent]
    exact ⟨.finite fewer (by omega) (by omega), trivial⟩
  · subst more
    have second : UnpackedFloat.shiftToTargetExponent binary64 (2 ^ 53) ((last : Int) - 1074) .exact
        = (⟨2 ^ 52, false, false⟩, ((last + 1 : Nat) : Int) - 1074) := by
      have once : 53 + last - 52 - last = 1 := by omega
      have next : max last (53 + last - 52) = last + 1 := by omega
      rw [shiftToTargetExponent_eq, Nat.log2_two_pow, once, next]
      rfl
    have left : (2 ^ 52 : Nat) ≠ 0 := by decide
    have same : 2 ^ 52 * 2 ^ (last + 1) = 2 ^ 53 * 2 ^ last := by
      rw [Nat.pow_succ]
      omega
    simp only [whole, result, Nat.max_eq_right enough, second, dif_neg left, units, exponent]
    exact ⟨.finite (by decide) (by omega) (.inl (by decide)), by rw [same]⟩

theorem lt_lastDigit (number : Nat) : number < 2 ^ 53 * 2 ^ lastDigit number := by
  calc number < 2 ^ (number.log2 + 1) := Nat.lt_log2_self
    _ ≤ 2 ^ (53 + lastDigit number) := Nat.pow_le_pow_right two_pos (by rw [lastDigit]; omega)
    _ = 2 ^ 53 * 2 ^ lastDigit number := Nat.pow_add ..

/-- Numbers with more than 53 digits are rounded to 53 digits, the others are kept. -/
theorem lastDigit_le {number : Nat} (positive : 0 < number) :
    lastDigit number = 0 ∨ 2 ^ 52 * 2 ^ lastDigit number ≤ number := by
  by_cases few : number.log2 ≤ 52
  · left
    rw [lastDigit]
    omega
  · right
    have digits : 52 + lastDigit number = number.log2 := by
      rw [lastDigit]
      omega
    rw [← Nat.pow_add, digits]
    exact Nat.log2_self_le positive.ne'

theorem digits_nearestEven {number : Nat} (positive : 0 < number) :
    let rounded := nearestEven number (2 ^ lastDigit number)
    0 < rounded ∧ rounded ≤ 2 ^ 53 ∧ (2 ^ 52 ≤ rounded ∨ lastDigit number = 0) := by
  intro rounded
  have scale := Nat.two_pow_pos (lastDigit number)
  have quotient : number / 2 ^ lastDigit number < 2 ^ 53 :=
    (Nat.div_lt_iff_lt_mul scale).mpr (lt_lastDigit number)
  have near : rounded = number / 2 ^ lastDigit number
      ∨ rounded = number / 2 ^ lastDigit number + 1 :=
    (nearestEven_cases number (2 ^ lastDigit number)).imp And.left And.left
  rcases lastDigit_le positive with exact | many
  · rw [exact, Nat.pow_zero, Nat.div_one] at near quotient
    exact ⟨by omega, by omega, .inr exact⟩
  · have digits := (Nat.le_div_iff_mul_le scale).mpr many
    exact ⟨by omega, by omega, .inl (by omega)⟩

theorem round_eq (sign : Sign) {mantissa : Nat} (positive : 0 < mantissa) (power : Nat) :
    let number := UnpackedFloat.round binary64 sign mantissa ((power : Int) - 1074)
    Canonical number ∧ units number = sign.apply (nearest (mantissa * 2 ^ power) : Nat) := by
  let last := mantissa.log2 + power - 52
  let drop := power - last
  have amount : ((power : Int) - 1074 - ((last : Int) - 1074)).toNat = drop := by omega
  have lower : (power : Int) - 1074 - (drop : Int) = ((power - drop : Nat) : Int) - 1074 := by omega
  have digits : lastDigit (mantissa * 2 ^ power) = last := by
    rw [lastDigit, log2_mul_two_pow positive]
  have scaled : mantissa * 2 ^ drop * 2 ^ (power - drop) = mantissa * 2 ^ power := by
    rw [Nat.mul_assoc, ← Nat.pow_add]
    congr 2
    omega
  obtain ⟨some, bound, many⟩ := digits_nearestEven (Nat.mul_pos positive (Nat.two_pow_pos power))
  rw [nearest]
  rw [digits] at some bound many ⊢
  have lowest : (mantissa * 2 ^ drop / 1).log2 + (power - drop) - 52 = last := by
    rw [Nat.div_one, log2_mul_two_pow positive]
    omega
  have result : nearestEven (mantissa * 2 ^ drop) (1 * 2 ^ (last - (power - drop))) =
      nearestEven (mantissa * 2 ^ power) (2 ^ last) := by
    rw [Nat.one_mul, ← nearestEven_mul_right _ _ (Nat.two_pow_pos (power - drop)), scaled,
      ← Nat.pow_add]
    congr 2
    omega
  have whole := roundWithAccuracy_eq sign Nat.one_pos lowest (by omega) result some bound many
  rw [Nat.div_one, Nat.mod_one] at whole
  rw [UnpackedFloat.round, targetExponent_eq, UnpackedFloat.decreaseExponent, amount, lower,
    Nat.shiftLeft_eq]
  exact whole

/-! ### The nearest number -/

/-- A whole number of units with 53 digits at most, and the next greater one. -/
def Short (number : Int) : Prop :=
  ∃ (digits : Int) (power : Nat), |digits| ≤ 2 ^ 53 ∧ number = digits * 2 ^ power

theorem short_zero : Short 0 :=
  ⟨0, 0, by decide, rfl⟩

theorem Short.neg {number : Int} (short : Short number) : Short (-number) := by
  obtain ⟨digits, power, few, rfl⟩ := short
  exact ⟨-digits, power, by rwa [abs_neg], by ring⟩

/-- No other multiple of the last digit is nearer. -/
theorem nearest_le_multiple (number : Nat) (factor : Int) :
    |(nearest number : Int) - number| ≤ |factor * 2 ^ lastDigit number - number| := by
  obtain ⟨low, high⟩ := nearestEven_error number (Nat.two_pow_pos (lastDigit number))
  have positive : (0 : Int) < 2 ^ lastDigit number := by positivity
  rw [nearest]
  generalize nearestEven number (2 ^ lastDigit number) = rounded at low high ⊢
  zify at low high ⊢
  generalize (2 : Int) ^ lastDigit number = step at *
  rcases lt_trichotomy factor rounded with less | same | more
  · have apart : (factor + 1) * step ≤ rounded * step := by
      gcongr
      omega
    exact (abs_le.mpr ⟨by linarith, by linarith⟩).trans (neg_le_abs _)
  · rw [same]
  · have apart : (rounded + 1) * step ≤ factor * step := by
      gcongr
      omega
    exact (abs_le.mpr ⟨by linarith, by linarith⟩).trans (le_abs_self _)

/-- A number with lower digits has no more than 53 of them, so it lies below the least multiple that
the rounded number may be. -/
theorem nearest_le (number : Nat) {other : Int} (short : Short other) :
    |(nearest number : Int) - number| ≤ |other - number| := by
  obtain ⟨digits, power, few, rfl⟩ := short
  -- either the other number is a multiple of the last digit itself, or it lies below all of them
  by_cases coarse : lastDigit number ≤ power
  · have multiple : digits * 2 ^ power
        = digits * 2 ^ (power - lastDigit number) * 2 ^ lastDigit number := by
      rw [mul_assoc, ← pow_add, Nat.sub_add_cancel coarse]
    rw [multiple]
    exact nearest_le_multiple number _
  · have some : 0 < number := by
      by_contra none
      rw [Nat.eq_zero_of_not_pos none] at coarse
      exact coarse (Nat.zero_le _)
    have low : (2 : Int) ^ 52 * 2 ^ lastDigit number ≤ number := by
      have least := (lastDigit_le some).resolve_left (by omega)
      exact_mod_cast least
    have small : digits * 2 ^ power ≤ 2 ^ 52 * 2 ^ lastDigit number := by
      calc digits * 2 ^ power ≤ 2 ^ 53 * 2 ^ power := by
            gcongr
            exact (le_abs_self digits).trans few
        _ = 2 ^ 52 * 2 ^ (power + 1) := by ring
        _ ≤ 2 ^ 52 * 2 ^ lastDigit number := by
            gcongr
            · norm_num
            · omega
    calc |(nearest number : Int) - number|
        ≤ |(2 : Int) ^ 52 * 2 ^ lastDigit number - number| := nearest_le_multiple number _
      _ ≤ |digits * 2 ^ power - number| := by
        rw [abs_of_nonpos (by linarith), abs_of_nonpos (by linarith)]
        linarith

theorem apply_mul (sign : Sign) (number factor : Int) :
    sign.apply number * factor = sign.apply (number * factor) := by
  cases sign with
  | negative => exact Int.neg_mul number factor
  | positive => rfl

theorem abs_apply (sign : Sign) (number : Int) : |sign.apply number| = |number| := by
  cases sign with
  | negative => exact abs_neg number
  | positive => rfl

theorem sub_apply (sign : Sign) (number other : Int) :
    sign.apply number - sign.apply other = sign.apply (number - other) := by
  cases sign with
  | negative => exact (neg_sub_neg number other).trans (neg_sub number other).symm
  | positive => rfl

theorem abs_sub_apply (sign : Sign) (number other : Int) :
    |sign.apply number - other| = |number - sign.apply other| := by
  cases sign with
  | negative =>
    change |(-number) - other| = |number - -other|
    rw [← abs_neg]
    ring_nf
  | positive => rfl

theorem Canonical.exists_power {sign : Sign} {mantissa : Nat} {exponent : Int}
    {positive : 0 < mantissa} (canonical : Canonical (.finite sign mantissa exponent positive)) :
    ∃ power : Nat, exponent = (power : Int) - 1074 := by
  cases canonical with
  | finite few least many => exact ⟨(exponent + 1074).toNat, by omega⟩

theorem Canonical.short {number : UnpackedFloat} (canonical : Canonical number) :
    Short (units number) := by
  cases canonical with
  | zero => exact short_zero
  | @finite sign mantissa exponent positive few least many =>
    refine ⟨sign.apply mantissa, (exponent + 1074).toNat, ?_, ?_⟩
    · rw [abs_apply, Nat.abs_cast]
      exact_mod_cast few.le
    · rw [units, apply_mul]
      push_cast
      rfl

/-- The number with 53 digits nearest to an exact value; where two of them are, one of the two. -/
structure NearestTo (value : Int) (number : UnpackedFloat) : Prop where
  canonical : Canonical number
  least : ∀ other, Short other → |units number - value| ≤ |other - value|

theorem Short.apply {number : Int} (short : Short number) (sign : Sign) :
    Short (sign.apply number) := by
  cases sign with
  | negative => exact short.neg
  | positive => exact short

theorem nearestTo_round (sign : Sign) {mantissa : Nat} (positive : 0 < mantissa) (power : Nat) :
    NearestTo (sign.apply mantissa * 2 ^ power)
      (UnpackedFloat.round binary64 sign mantissa ((power : Int) - 1074)) := by
  obtain ⟨canonical, rounded⟩ := round_eq sign positive power
  have exact : sign.apply mantissa * 2 ^ power = sign.apply (mantissa * 2 ^ power : Nat) := by
    rw [apply_mul]
    push_cast
    rfl
  refine ⟨canonical, fun other short => ?_⟩
  rw [rounded, exact, sub_apply, abs_apply, ← abs_sub_apply sign other]
  exact nearest_le _ (short.apply sign)

theorem nearestTo_zero (sign : Sign) : NearestTo 0 (.zero sign) :=
  ⟨.zero sign, fun other _ => by simp [units]⟩

theorem nearestTo_normalize (mantissa : Int) (power : Nat) (zeroSign : Sign) :
    NearestTo (mantissa * 2 ^ power)
      (UnpackedFloat.normalize binary64 mantissa ((power : Int) - 1074) zeroSign) := by
  rw [UnpackedFloat.normalize]
  split
  · next less =>
    have negative : mantissa < 0 := Int.compare_eq_lt.mp less
    have size : ((-mantissa).toNat : Int) = -mantissa := Int.toNat_of_nonneg (by omega)
    have value : mantissa = Sign.negative.apply (-mantissa).toNat := by
      rw [size]
      exact (neg_neg mantissa).symm
    conv => enter [1, 1]; rw [value]
    exact nearestTo_round .negative (by omega) power
  · next same =>
    rw [Int.compare_eq_eq.mp same, Int.zero_mul]
    exact nearestTo_zero zeroSign
  · next more =>
    have positive : 0 < mantissa := Int.compare_eq_gt.mp more
    have value : mantissa = Sign.positive.apply mantissa.toNat :=
      (Int.toNat_of_nonneg (by omega)).symm
    conv => enter [1, 1]; rw [value]
    exact nearestTo_round .positive (by omega) power

theorem Canonical.nearestTo {number : UnpackedFloat} (canonical : Canonical number) :
    NearestTo (units number) number :=
  ⟨canonical, fun other _ => by simp⟩

theorem nearestTo_add_finite {first second : Sign} {m n p q : Nat} {some : 0 < m}
    {more : 0 < n} :
    NearestTo (first.apply m * 2 ^ p + second.apply n * 2 ^ q)
      (UnpackedFloat.add binary64 (.finite first m ((p : Int) - 1074) some)
        (.finite second n ((q : Int) - 1074) more)) := by
  let least := min p q
  have lower : min ((p : Int) - 1074) ((q : Int) - 1074) = (least : Int) - 1074 := by omega
  have left : ((p : Int) - 1074 - ((least : Int) - 1074)).toNat = p - least := by omega
  have right : ((q : Int) - 1074 - ((least : Int) - 1074)).toNat = q - least := by omega
  have total : first.apply m * 2 ^ p + second.apply n * 2 ^ q
      = (first.apply (m <<< (p - least) : Nat) + second.apply (n <<< (q - least) : Nat))
        * 2 ^ least := by
    rw [Nat.shiftLeft_eq, Nat.shiftLeft_eq, add_mul, apply_mul, apply_mul, apply_mul, apply_mul]
    push_cast
    rw [mul_assoc, mul_assoc, ← pow_add, ← pow_add, Nat.sub_add_cancel (min_le_left p q),
      Nat.sub_add_cancel (min_le_right p q)]
  rw [UnpackedFloat.add]
  simp only [lower, UnpackedFloat.decreaseExponent, left, right]
  rw [total]
  exact nearestTo_normalize _ least .positive

/-- A sum is rounded once, from the exact sum. -/
theorem nearestTo_add {a b : UnpackedFloat} (left : Canonical a) (right : Canonical b) :
    NearestTo (units a + units b) (UnpackedFloat.add binary64 a b) := by
  cases a with
  | notANumber | infinity => nomatch left
  | zero sign =>
    have none : units (.zero sign) = 0 := rfl
    rw [none, zero_add]
    cases b with
    | notANumber | infinity => nomatch right
    | zero other =>
      rw [UnpackedFloat.add]
      split
      · exact nearestTo_zero sign
      · exact nearestTo_zero .positive
    | finite => exact right.nearestTo
  | finite first m e some =>
    cases b with
    | notANumber | infinity => nomatch right
    | zero other =>
      have none : units (.zero other) = 0 := rfl
      rw [none, add_zero]
      exact left.nearestTo
    | finite second n f more =>
      obtain ⟨p, rfl⟩ := left.exists_power
      obtain ⟨q, rfl⟩ := right.exists_power
      have exponent (k : Nat) : ((k : Int) - 1074 + 1074).toNat = k := by omega
      simp only [units, exponent, Nat.cast_mul, ← apply_mul, Nat.cast_pow, Nat.cast_ofNat]
      exact nearestTo_add_finite

end ReplyFlow.Decimal
