import ReplyFlow.Proofs.Decimal.Quotients

/-! Whole numbers, and numbers that are not negative.

A rounded number has no lower digits than the exact one: either it is exact, or all its digits lie
higher up. So sums and products of whole numbers are whole, however great they are, and three
decimals are enough for them.
-/

set_option autoImplicit false

namespace ReplyFlow.Decimal

open Float.Model
open Float.Model.Format (binary64)
open Float.Model.UnpackedFloat (Sign)

variable {a b : UnpackedFloat} {x y : Float}

/-! ### Numbers without low digits -/

/-- No digits stand below the given one. This is so of all that is not finite. -/
def Coarse (power : Nat) (number : UnpackedFloat) : Prop :=
  (2 : Int) ^ power ∣ units number

theorem NearestTo.le_abs {value : Int} {number : UnpackedFloat} (nearest : NearestTo value number)
    {other : Int} (short : Short other) (below : other ≤ |value|) : other ≤ |units number| := by
  rcases abs_cases value with ⟨same, _⟩ | ⟨same, _⟩
  · exact (nearest.ge_of_pos short (same ▸ below)).trans (le_abs_self _)
  · have closer := nearest.least _ short.neg
    rw [abs_of_nonneg (by linarith : 0 ≤ -other - value)] at closer
    linarith [le_abs_self (units number - value), neg_le_abs (units number)]

/-- Either a number is exact, or its last digit is above the given one. -/
theorem NearestTo.coarse {value : Int} {number : UnpackedFloat} {power : Nat}
    (nearest : NearestTo value number) (multiple : (2 : Int) ^ power ∣ value) :
    Coarse power number := by
  obtain ⟨factor, rfl⟩ := multiple
  rw [mul_comm] at nearest
  by_cases few : |factor| ≤ 2 ^ 53
  · have exact := nearest.least _ ⟨factor, power, few, rfl⟩
    rw [sub_self, abs_zero, abs_nonpos_iff, sub_eq_zero] at exact
    rw [Coarse, exact]
    exact dvd_mul_left _ _
  · have great : (2 : Int) ^ 53 * 2 ^ power ≤ |factor * 2 ^ power| := by
      rw [abs_mul_two_pow]
      exact mul_le_mul_of_nonneg_right (not_le.mp few).le (by positivity)
    have bound := nearest.le_abs ⟨2 ^ 53, power, le_of_eq (by norm_num), rfl⟩ great
    cases number with
    | notANumber | infinity => nomatch nearest.canonical
    | zero => exact dvd_zero _
    | finite sign m e positive =>
      obtain ⟨p, rfl, digits, -, same⟩ := exists_units nearest.canonical
      rw [same, abs_apply, Nat.abs_cast] at bound
      have above : 2 ^ (53 + power) < 2 ^ (53 + p) := by
        rw [Nat.pow_add, Nat.pow_add]
        calc 2 ^ 53 * 2 ^ power ≤ m * 2 ^ p := by exact_mod_cast bound
          _ < 2 ^ 53 * 2 ^ p := Nat.mul_lt_mul_of_pos_right digits (Nat.two_pow_pos p)
      have above := (Nat.pow_lt_pow_iff_right Nat.one_lt_two).mp above
      rw [Coarse, same, Nat.cast_mul, ← apply_mul, Nat.cast_pow, Nat.cast_ofNat]
      exact dvd_mul_of_dvd_right (pow_dvd_pow 2 (by omega)) _

/-- What is infinite or undefined. -/
inductive Unbounded : UnpackedFloat → Prop where
  | undefined : Unbounded .notANumber
  | infinity (sign : Sign) : Unbounded (.infinity sign)

theorem Stored.canonical_or_unbounded (stored : Stored a) : Canonical a ∨ Unbounded a := by
  cases stored with
  | undefined => exact .inr .undefined
  | infinity sign => exact .inr (.infinity sign)
  | zero sign => exact .inl (.zero sign)
  | finite canonical => exact .inl canonical

/-- What is stored for a number. -/
def repack (number : UnpackedFloat) : UnpackedFloat :=
  .unpack binary64 (UnpackedFloat.pack binary64 number)

theorem Unbounded.repack_eq (unbounded : Unbounded a) : repack a = a := by
  cases unbounded with
  | undefined => exact UnpackedFloat.unpack_packedNaN
  | infinity sign => exact unpack_pack_infinity sign

theorem Unbounded.coarse_repack (unbounded : Unbounded a) (power : Nat) :
    Coarse power (repack a) := by
  rw [unbounded.repack_eq]
  cases unbounded <;> exact dvd_zero _

theorem Coarse.repack {power : Nat} (coarse : Coarse power a) (canonical : Canonical a) :
    Coarse power (Decimal.repack a) := by
  rcases unpack_pack_or canonical with same | ⟨⟨sign, lost⟩, _⟩
  · rw [Decimal.repack, same]
    exact coarse
  · rw [Decimal.repack, lost]
    exact dvd_zero _

theorem NearestTo.coarse_repack {value : Int} {power : Nat} (nearest : NearestTo value a)
    (multiple : (2 : Int) ^ power ∣ value) : Coarse power (repack a) :=
  (nearest.coarse multiple).repack nearest.canonical

/-! ### Arithmetic -/

theorem unbounded_add (unbounded : Unbounded a ∨ Unbounded b) :
    Unbounded (UnpackedFloat.add binary64 a b) := by
  rcases unbounded with left | right
  · cases left with
    | undefined => exact .undefined
    | infinity sign =>
      cases b with
      | notANumber => exact .undefined
      | infinity other => cases sign <;> cases other <;> constructor
      | zero | finite => exact .infinity sign
  · cases right with
    | undefined => cases a <;> exact .undefined
    | infinity sign =>
      cases a with
      | notANumber => exact .undefined
      | infinity other => cases sign <;> cases other <;> constructor
      | zero | finite => exact .infinity sign

theorem coarse_add {power : Nat} (left : Stored a) (right : Stored b) (first : Coarse power a)
    (second : Coarse power b) : Coarse power (repack (UnpackedFloat.add binary64 a b)) := by
  rcases left.canonical_or_unbounded with left | left
  · rcases right.canonical_or_unbounded with right | right
    · exact (nearestTo_add left right).coarse_repack (dvd_add first second)
    · exact (unbounded_add (.inr right)).coarse_repack power
  · exact (unbounded_add (.inl left)).coarse_repack power

theorem Stored.neg (stored : Stored a) : Stored a.neg := by
  cases stored with
  | undefined => exact .undefined
  | infinity sign => exact .infinity _
  | zero sign => exact .zero _
  | finite canonical range =>
    cases canonical with
    | finite few least many => exact .finite (.finite few least many) range

theorem Stored.repack_eq (stored : Stored a) : repack a = a := by
  cases stored with
  | undefined => exact Unbounded.undefined.repack_eq
  | infinity sign => exact (Unbounded.infinity sign).repack_eq
  | zero sign => exact unpack_pack_zero sign
  | finite canonical range => exact (unpack_pack_finite canonical).trans (if_pos range)

theorem neg_apply (sign : Sign) (number : Int) : (-sign).apply number = -sign.apply number := by
  cases sign with
  | positive => rfl
  | negative => exact (neg_neg number).symm

theorem units_neg (a : UnpackedFloat) : units a.neg = -units a := by
  cases a with
  | finite sign m e positive => exact neg_apply sign _
  | notANumber | infinity | zero => rfl

theorem Coarse.neg {power : Nat} (coarse : Coarse power a) : Coarse power a.neg := by
  rw [Coarse, units_neg]
  exact dvd_neg.mpr coarse

theorem sub_eq_add_neg (a b : UnpackedFloat) :
    UnpackedFloat.sub binary64 a b = UnpackedFloat.add binary64 a b.neg := by
  cases a with
  | finite sign m e positive =>
    cases b with
    | finite other n f more =>
      simp only [UnpackedFloat.sub, UnpackedFloat.add, UnpackedFloat.neg, neg_apply]
      rfl
    | notANumber | infinity | zero => rfl
  | notANumber | infinity | zero => cases b <;> rfl

theorem unpack_sub (x y : Float) :
    (x - y).toModel.unpack =
      repack (UnpackedFloat.add binary64 x.toModel.unpack y.toModel.unpack.neg) := by
  rw [← sub_eq_add_neg]
  rfl

theorem unbounded_mul (unbounded : Unbounded a ∨ Unbounded b) :
    Unbounded (UnpackedFloat.mul binary64 a b) := by
  rcases unbounded with left | right
  · cases left with
    | undefined => exact .undefined
    | infinity sign => cases b <;> constructor
  · cases right with
    | undefined => cases a <;> exact .undefined
    | infinity sign => cases a <;> constructor

/-- Where all digits stand above a place, so does the last one of the mantissa. -/
theorem lt_of_coarse {sign : Sign} {mantissa last power : Nat} (few : mantissa < 2 ^ 53)
    (positive : 0 < mantissa)
    (coarse : (2 : Int) ^ power ∣ sign.apply (mantissa * 2 ^ last : Nat)) : power < last + 53 := by
  have whole : 2 ^ power ∣ mantissa * 2 ^ last := by
    rw [← Int.natCast_dvd_natCast, Nat.cast_pow, Nat.cast_ofNat, ← dvd_abs]
    rwa [← dvd_abs, abs_apply] at coarse
  have bound := Nat.le_of_dvd (Nat.mul_pos positive (Nat.two_pow_pos last)) whole
  rw [Nat.add_comm]
  refine (Nat.pow_lt_pow_iff_right Nat.one_lt_two).mp (bound.trans_lt ?_)
  rw [Nat.pow_add]
  exact Nat.mul_lt_mul_of_pos_right few (Nat.two_pow_pos last)

section

variable {sign other : Sign} {m n p q place power depth : Nat} (scale : p + q = place + depth)
include scale

/-- A product has all its digits if one of the factors has. -/
theorem nearestTo_mul_finite (deepest : depth = 1074) (some : 0 < m) (more : 0 < n)
    (full : 2 ^ 52 ≤ m) :
    NearestTo ((sign * other).apply (m * n * 2 ^ place : Nat))
      (UnpackedFloat.mul binary64 (.finite sign m ((p : Int) - 1074) some)
        (.finite other n ((q : Int) - 1074) more)) := by
  have exponent : (p : Int) - 1074 + ((q : Int) - 1074) = (place : Int) - 1074 := by omega
  have digits : 2 ^ 52 ≤ m * n / 1 := by
    rw [Nat.div_one]
    exact full.trans (Nat.le_mul_of_pos_right m more)
  have nearest := nearestTo_roundWithAccuracy (sign * other) Nat.one_pos
    (Nat.mul_pos (Nat.mul_pos some more) (Nat.two_pow_pos place)) (.inl digits)
    (Nat.mul_one _).symm
  rw [Nat.div_one, Nat.mod_one] at nearest
  rw [UnpackedFloat.mul, exponent]
  exact nearest

theorem dvd_mul_apply {first second : Nat} (sum : first + second = power + depth)
    (coarse : (2 : Int) ^ first ∣ sign.apply (m * 2 ^ p : Nat))
    (rough : (2 : Int) ^ second ∣ other.apply (n * 2 ^ q : Nat)) :
    (2 : Int) ^ power ∣ (sign * other).apply (m * n * 2 ^ place : Nat) := by
  rw [← dvd_abs, abs_apply, dvd_abs] at coarse rough ⊢
  have product := mul_dvd_mul coarse rough
  rw [← pow_add, sum, pow_add, ← Nat.cast_mul, Nat.mul_mul_mul_comm, ← Nat.pow_add, scale,
    Nat.pow_add, ← Nat.mul_assoc, Nat.cast_mul _ (2 ^ depth), Nat.cast_pow, Nat.cast_ofNat]
    at product
  exact Int.dvd_of_mul_dvd_mul_right (by positivity) product

end

/-- The places of two factors add up to that of their product. -/
theorem coarse_mul {first second power depth : Nat} (deepest : depth = 1074)
    (left : Stored a) (right : Stored b) (coarse : Coarse first a) (other : Coarse second b)
    (sum : first + second = power + depth) (above : 53 ≤ first) (high : 106 ≤ power) :
    Coarse power (repack (UnpackedFloat.mul binary64 a b)) := by
  rcases left.canonical_or_unbounded with left | left
  · rcases right.canonical_or_unbounded with right | right
    · cases a with
      | notANumber | infinity => nomatch left
      | zero sign =>
        cases b with
        | notANumber | infinity => nomatch right
        | zero | finite => exact (nearestTo_zero _).coarse_repack (dvd_zero _)
      | finite sign m e some =>
        cases b with
        | notANumber | infinity => nomatch right
        | zero => exact (nearestTo_zero _).coarse_repack (dvd_zero _)
        | finite sign' n f more =>
          obtain ⟨p, rfl, few, many, same⟩ := exists_units left
          obtain ⟨q, rfl, few', -, same'⟩ := exists_units right
          rw [Coarse, same] at coarse
          rw [Coarse, same'] at other
          have low := lt_of_coarse few some coarse
          have low' := lt_of_coarse few' more other
          obtain ⟨place, scale⟩ : ∃ place, p + q = place + depth := ⟨p + q - depth, by omega⟩
          have full := many.resolve_right (by omega)
          exact (nearestTo_mul_finite scale deepest some more full).coarse_repack
            (dvd_mul_apply scale sum coarse other)
    · exact (unbounded_mul (.inr right)).coarse_repack power
  · exact (unbounded_mul (.inl left)).coarse_repack power

/-! ### Whole numbers -/

theorem near_self {mantissa power : Nat} : Near (mantissa * 2 ^ power) mantissa power := by
  have step : (0 : ℚ) < 2 ^ power := by positivity
  have some : (0 : ℚ) < quarters mantissa power := by
    rw [quarters]
    split <;> norm_num
  have slack := mul_pos some step
  constructor
  · linarith
  · linarith
  · exact fun _ => ⟨by linarith, by linarith⟩

/-- A number with 53 digits is a binary64 number. -/
theorem exists_canonical {n power depth : Nat} (deepest : depth = 1074) (positive : 0 < n)
    (few : n < 2 ^ 53) (place : power ≤ depth) :
    ∃ mantissa last : Nat, 0 < mantissa ∧ mantissa < 2 ^ 53 ∧ (2 ^ 52 ≤ mantissa ∨ last = 0) ∧
      last ≤ 2045 ∧ mantissa * 2 ^ last = n * 2 ^ power := by
  have nearest := nearestTo_normalize (n : Int) power .positive
  have exact := nearest.least _ ⟨n, power, by rw [Nat.abs_cast]; exact_mod_cast few.le, rfl⟩
  rw [sub_self, abs_zero, abs_nonpos_iff, sub_eq_zero] at exact
  have large : 0 < n * 2 ^ power := Nat.mul_pos positive (Nat.two_pow_pos power)
  have canonical := nearest.canonical
  generalize UnpackedFloat.normalize binary64 _ _ _ = number at exact canonical
  cases number with
  | notANumber | infinity => nomatch canonical
  | zero =>
    change (0 : Int) = _ at exact
    norm_cast at exact
    omega
  | finite sign m e some =>
    obtain ⟨last, rfl, digits, many, same⟩ := exists_units canonical
    have value : m * 2 ^ last = n * 2 ^ power := by
      rw [same] at exact
      cases sign <;> simp only [Sign.apply] at exact <;> norm_cast at exact
      omega
    refine ⟨m, last, some, digits, many, ?_, value⟩
    have below : 2 ^ last < 2 ^ (53 + power) := by
      calc 2 ^ last ≤ m * 2 ^ last := Nat.le_mul_of_pos_left _ some
        _ = n * 2 ^ power := value
        _ < 2 ^ 53 * 2 ^ power := Nat.mul_lt_mul_of_pos_right few (Nat.two_pow_pos power)
        _ = 2 ^ (53 + power) := (Nat.pow_add ..).symm
    have bound := (Nat.pow_lt_pow_iff_right Nat.one_lt_two).mp below
    omega

theorem nearestTo_ofScientific {count value depth : Nat} {power : Int} (deepest : depth = 1074)
    (some : 0 < count) (positive : 0 < value) (high : power ≤ 2048)
    (low : -(2048 + (count.log2 : Int)) ≤ power)
    (exact : (count * 10 ^ power * 2 ^ depth : ℚ) = value) :
    NearestTo value (UnpackedFloat.ofScientific binary64 count power) := by
  obtain ⟨num, den, place, rounded, more, enough, same⟩ :=
    exists_ofScientific deepest some high low
  have scale : (den : ℚ) ≠ 0 := by exact_mod_cast more.ne'
  rw [exact, div_eq_iff scale] at same
  rw [rounded]
  exact nearestTo_roundWithAccuracy .positive more positive enough (by exact_mod_cast same)

/-- The powers of ten serve small digits only; great ones are rounded. -/
theorem coarse_ofDecimal_of_great {count place : Nat} {power : Int} (great : 2 ^ 53 ≤ count)
    (rounded : Coarse place (repack (UnpackedFloat.ofScientific binary64 count power))) :
    Coarse place (ofDecimal count power).toModel.unpack := by
  have slow (exponent : Nat) : ¬ (count < 2 ^ 53 ∧ exponent ≤ 22) := by omega
  rw [ofDecimal]
  split
  · rw [unpack_zero]
    exact dvd_zero _
  · split
    · exact dvd_zero _
    · split
      · next above =>
        obtain ⟨exponent, rfl⟩ := Int.eq_ofNat_of_zero_le above
        rw [Int.toNat_natCast, Float.ofScientific, dif_neg (slow _)]
        exact rounded
      · next below =>
        obtain ⟨exponent, rfl⟩ : ∃ exponent : Nat, power = -exponent :=
          ⟨(-power).toNat, by omega⟩
        rw [neg_neg, Int.toNat_natCast, Float.ofScientific, dif_neg (slow _)]
        change Coarse place (repack (.ofScientific binary64 count (Int.negOfNat exponent)))
        rw [Int.negOfNat_eq, Int.ofNat_eq_natCast]
        exact rounded

/-- A decimal number is a multiple of what its value is a multiple of. -/
theorem coarse_ofDecimal {count n place depth : Nat} {power : Int} (deepest : depth = 1074)
    (low : -22 ≤ power) (high : power ≤ 22) (less : n ≤ count) (within : place ≤ depth)
    (exact : (count * 10 ^ power * 2 ^ depth : ℚ) = (n * 2 ^ place : Nat)) :
    Coarse place (ofDecimal count power).toModel.unpack := by
  have multiple : (2 : Int) ^ place ∣ (n * 2 ^ place : Nat) := by
    push_cast
    exact dvd_mul_left _ _
  rcases Nat.eq_zero_or_pos n with rfl | positive
  · have none : count = 0 := by
      have scale : (10 : ℚ) ^ power * 2 ^ depth ≠ 0 := by positivity
      rw [mul_assoc, Nat.zero_mul, Nat.cast_zero, mul_eq_zero, or_iff_left scale] at exact
      exact_mod_cast exact
    rw [none, ofDecimal, if_pos (by simp), unpack_zero]
    exact dvd_zero _
  · by_cases few : n < 2 ^ 53
    · obtain ⟨m, last, some, digits, many, range, same⟩ :=
        exists_canonical deepest positive few within
      rw [← same, Nat.cast_mul, Nat.cast_pow, Nat.cast_ofNat] at exact
      rw [unpack_ofDecimal deepest some digits many range (exact ▸ near_self)]
      have exponent : ((last : Int) - 1074 + 1074).toNat = last := by omega
      rw [Coarse, units, exponent, same]
      exact multiple
    · have large : 0 < n * 2 ^ place := Nat.mul_pos positive (Nat.two_pow_pos place)
      have nearest := nearestTo_ofScientific deepest (by omega : 0 < count) large
        (by omega : power ≤ 2048) (by omega) exact
      exact coarse_ofDecimal_of_great (by omega) (nearest.coarse_repack multiple)

theorem coarse_withSign {power : Nat} (coarse : Coarse power x.toModel.unpack) (negative : Bool) :
    Coarse power (withSign negative x).toModel.unpack := by
  cases negative with
  | false => exact coarse
  | true =>
    change Coarse power (-x).toModel.unpack
    rw [unpack_neg]
    change Coarse power (repack x.toModel.unpack.neg)
    rw [(stored_unpack x).neg.repack_eq]
    exact coarse.neg

/-- A number without decimals, if it is finite. -/
def Whole (x : Float) : Prop :=
  Coarse 1074 x.toModel.unpack

theorem Whole.add (left : Whole x) (right : Whole y) : Whole (x + y) := by
  rw [Whole, unpack_add]
  exact coarse_add (stored_unpack x) (stored_unpack y) left right

theorem whole_ofInt (n : Int) : Whole (ofInt n) := by
  obtain ⟨depth, deepest⟩ : ∃ depth, 1074 = depth := ⟨_, rfl⟩
  rw [Whole, deepest]
  refine coarse_withSign (coarse_ofDecimal deepest.symm (by omega) (by omega) (Nat.le_refl _)
    (Nat.le_refl _) ?_) _
  rw [zpow_zero, mul_one]
  push_cast
  rfl

theorem coarse_half (n : Int) : Coarse 1073 (half n).toModel.unpack := by
  obtain ⟨place, same⟩ : ∃ place, 1073 = place := ⟨_, rfl⟩
  rw [same]
  refine coarse_withSign (coarse_ofDecimal (by omega : place + 1 = 1074) (by omega) (by omega)
    (by omega : n.natAbs ≤ 5 * n.natAbs) (Nat.le_succ place) ?_) _
  rw [zpow_neg_one, pow_succ]
  push_cast
  ring

theorem Whole.coarse {power : Nat} (whole : Whole x) (within : power ≤ 1074) :
    Coarse power x.toModel.unpack :=
  Dvd.dvd.trans (pow_dvd_pow 2 within) whole

/-- So many rows, or half as many, make a whole number if a row is an even one. -/
theorem whole_offset {first second : Int} (even : Coarse 1075 x.toModel.unpack) :
    Whole ((ofInt first - half second) * x) := by
  have left : Coarse 1073 (ofInt first - half second).toModel.unpack := by
    rw [unpack_sub]
    exact coarse_add (stored_unpack _) (stored_unpack _).neg
      ((whole_ofInt first).coarse (by omega)) (coarse_half second).neg
  obtain ⟨depth, deepest⟩ : ∃ depth, depth = 1074 := ⟨_, rfl⟩
  exact coarse_mul deepest (stored_unpack _) (stored_unpack x) left even (by omega) (by omega)
    (by omega)

/-! ### Three decimals -/

theorem round_thousandths (n : Nat) {steps : Nat} (positive : 0 < steps) :
    ((Ratio.ofBinary (2 ^ steps * n) (-steps)).shift 3).round = n * 1000 := by
  have below : ¬ (0 : Int) ≤ -steps := by omega
  have size : (-(-(steps : Int))).toNat = steps := by omega
  have scale := Nat.two_pow_pos steps
  rw [Ratio.ofBinary, if_neg below, size, Ratio.shift, if_pos (by decide), Ratio.round]
  change nearestEven (2 ^ steps * n * 1000) (2 ^ steps) = _
  rw [Nat.mul_assoc, nearestEven_of_dvd scale (Nat.mul_mod_right _ _),
    Nat.mul_div_cancel_left _ scale]

/-- The thousandths of a whole number are a thousand times the number. -/
theorem unpack_thousandths {sign : Sign} {m depth : Nat} {e : Int} {positive : 0 < m}
    (deepest : depth = 1074) (stored : Stored (.finite sign m e positive))
    (whole : Coarse depth (.finite sign m e positive)) (below : e < 0) :
    (withSign (minus sign) (ofDecimal ((Ratio.ofBinary m e).shift 3).round (-3))).toModel.unpack =
      .finite sign m e positive := by
  obtain ⟨canonical, range⟩ : Canonical (.finite sign m e positive) ∧ e ≤ 971 := by
    cases stored with
    | finite canonical range => exact ⟨canonical, range⟩
  obtain ⟨p, rfl, few, many, value⟩ := exists_units canonical
  obtain ⟨steps, more⟩ : ∃ steps, depth = steps + p := ⟨depth - p, by omega⟩
  rw [Coarse, value, ← dvd_abs, abs_apply, dvd_abs] at whole
  have multiple : 2 ^ depth ∣ m * 2 ^ p := by exact_mod_cast whole
  rw [more, Nat.pow_add] at multiple
  obtain ⟨n, rfl⟩ := Nat.dvd_of_mul_dvd_mul_right (Nat.two_pow_pos p) multiple
  have exponent : (p : Int) - 1074 = -steps := by omega
  have exact : ((n * 1000 : Nat) * 10 ^ (-3 : Int) * 2 ^ depth : ℚ) =
      (2 ^ steps * n : Nat) * 2 ^ p := by
    rw [more, pow_add]
    push_cast
    norm_num
    ring
  have read := unpack_ofDecimal deepest positive few many (by omega) (exact ▸ near_self)
  rw [exponent] at canonical range read ⊢
  rw [round_thousandths n (by omega), unpack_withSign sign read canonical range]

/-- Three decimals are enough for a whole number. -/
theorem toThousandth_beq (whole : Whole x) (number : x.toModel.unpack ≠ .notANumber) :
    toThousandth x == x := by
  obtain ⟨depth, deepest⟩ : ∃ depth, 1074 = depth := ⟨_, rfl⟩
  rw [Whole, deepest] at whole
  have stored := stored_unpack x
  rw [toThousandth, shape_eq]
  cases same : x.toModel.unpack with
  | notANumber => exact absurd same number
  | infinity sign =>
    rw [beq_iff, shapeOf, same]
    exact .infinity sign
  | zero sign =>
    have none : (ofDecimal ((Ratio.ofBinary 0 (-1074)).shift 3).round (-3)) = 0 := by
      decide +kernel
    rw [beq_iff, shapeOf, same]
    dsimp only
    rw [if_neg (by decide), none, unpack_withSign_zero]
    exact .zero sign sign
  | finite sign m e positive =>
    rw [same] at stored whole
    dsimp only [shapeOf]
    rw [beq_iff, same]
    split
    · rw [same]
      exact .finite sign m e positive
    · next below =>
      rw [unpack_thousandths deepest.symm stored whole (not_le.mp below)]
      exact .finite sign m e positive

/-! ### Numbers that are not negative -/

inductive Nonneg : UnpackedFloat → Prop where
  | zero (sign : Sign) : Nonneg (.zero sign)
  | infinity : Nonneg (.infinity .positive)
  | finite {mantissa : Nat} {exponent : Int} {positive : 0 < mantissa} :
    Nonneg (.finite .positive mantissa exponent positive)

theorem zero_le_iff : 0 ≤ x ↔ Nonneg x.toModel.unpack := by
  change decide (UnpackedFloat.le (0 : Float).toModel.unpack x.toModel.unpack = true) = true ↔ _
  rw [decide_eq_true_eq, unpack_zero]
  cases x.toModel.unpack with
  | notANumber => exact iff_of_false nofun nofun
  | infinity sign | finite sign =>
    cases sign with
    | negative => exact iff_of_false nofun nofun
    | positive => exact iff_of_true rfl (by constructor)
  | zero sign => exact iff_of_true rfl (.zero sign)

theorem nonneg_iff (canonical : Canonical a) : Nonneg a ↔ 0 ≤ units a := by
  cases a with
  | notANumber | infinity => nomatch canonical
  | zero sign => exact iff_of_true (.zero sign) (le_refl _)
  | finite sign m e positive =>
    have large : 0 < m * 2 ^ (e + 1074).toNat := Nat.mul_pos positive (Nat.two_pow_pos _)
    cases sign with
    | positive => exact iff_of_true .finite (Int.natCast_nonneg _)
    | negative =>
      refine iff_of_false nofun (not_le.mpr ?_)
      change -((m * 2 ^ (e + 1074).toNat : Nat) : Int) < 0
      omega

theorem Nonneg.repack (nonneg : Nonneg a) (canonical : Canonical a) :
    Nonneg (Decimal.repack a) := by
  cases nonneg with
  | zero sign => rw [Decimal.repack, unpack_pack_zero]; exact .zero sign
  | infinity => nomatch canonical
  | finite =>
    rw [Decimal.repack, unpack_pack_finite canonical]
    split
    · exact .finite
    · exact .infinity

theorem nonneg_add (left : 0 ≤ x) (right : 0 ≤ y) : 0 ≤ x + y := by
  rw [zero_le_iff] at left right ⊢
  rw [unpack_add]
  have first := stored_unpack x
  have second := stored_unpack y
  generalize x.toModel.unpack = a at left first ⊢
  generalize y.toModel.unpack = b at right second ⊢
  change Nonneg (repack _)
  rcases first.canonical_or_unbounded with first | first
  · rcases second.canonical_or_unbounded with second | second
    · have nearest := nearestTo_add first second
      have sum := add_nonneg ((nonneg_iff first).mp left) ((nonneg_iff second).mp right)
      exact ((nonneg_iff nearest.canonical).mpr (nearest.ge_of_pos short_zero sum)).repack
        nearest.canonical
    · cases right with
      | zero | finite => nomatch second
      | infinity =>
        have total : UnpackedFloat.add binary64 a (.infinity .positive) = .infinity .positive := by
          cases first <;> rfl
        rw [total, second.repack_eq]
        exact .infinity
  · cases left with
    | zero | finite => nomatch first
    | infinity =>
      have total : UnpackedFloat.add binary64 (.infinity .positive) b = .infinity .positive := by
        cases right <;> rfl
      rw [total, first.repack_eq]
      exact .infinity

theorem SameNumber.nonneg (same : SameNumber a b) (nonneg : Nonneg a) : Nonneg b := by
  cases same with
  | infinity | finite => exact nonneg
  | zero sign other => exact .zero other

theorem SameNumber.ne_undefined (same : SameNumber a b) : b ≠ .notANumber := by
  rintro rfl
  cases same

theorem Nonneg.ne_undefined (nonneg : Nonneg a) : a ≠ .notANumber := by
  rintro rfl
  cases nonneg

theorem ne_undefined_of_toThousandth (number : (toThousandth x).toModel.unpack ≠ .notANumber) :
    x.toModel.unpack ≠ .notANumber := by
  intro none
  rw [toThousandth, shape_eq, none] at number
  exact number none

/-- Two whole numbers with the same three decimals are the same, so neither is negative if the other
one is not. -/
theorem nonneg_of_beq (left : Whole x) (right : Whole y) (nonneg : 0 ≤ x)
    (same : toThousandth x == toThousandth y) : 0 ≤ y := by
  rw [zero_le_iff] at nonneg ⊢
  have first := PartialEquivBEq.symm (toThousandth_beq left nonneg.ne_undefined)
  have equal := PartialEquivBEq.trans first same
  have number := ne_undefined_of_toThousandth (beq_iff.mp equal).ne_undefined
  have second := PartialEquivBEq.trans equal (toThousandth_beq right number)
  exact (beq_iff.mp second).nonneg nonneg

end ReplyFlow.Decimal
