import ReplyFlow.Proofs.Decimal.Equality
import ReplyFlow.Proofs.Decimal.Nearest

/-! Adding a positive number.

The sum is not less than the number, but it may be the same: a sum is only certain to grow where
the number is not too many times as great as what is added.
-/

set_option autoImplicit false

namespace ReplyFlow.Decimal

open Float.Model
open Float.Model.Format (binary64)
open Float.Model.UnpackedFloat (Sign)

variable {a b : UnpackedFloat}

theorem NearestTo.ge_of_pos {value : Int} {sum : UnpackedFloat} (nearest : NearestTo value sum)
    {number : Int} (short : Short number) (below : number ≤ value) : number ≤ units sum := by
  have closer := nearest.least number short
  rw [abs_of_nonpos (by linarith : number - value ≤ 0)] at closer
  linarith [neg_abs_le (units sum - value)]

theorem exists_units {sign : Sign} {mantissa : Nat} {exponent : Int} {positive : 0 < mantissa}
    (canonical : Canonical (.finite sign mantissa exponent positive)) :
    ∃ power : Nat, exponent = (power : Int) - 1074 ∧ mantissa < 2 ^ 53 ∧
      (2 ^ 52 ≤ mantissa ∨ power = 0) ∧
      units (.finite sign mantissa exponent positive) = sign.apply (mantissa * 2 ^ power : Nat) := by
  obtain ⟨power, rfl⟩ := canonical.exists_power
  cases canonical with
  | finite few least many =>
    have exponent : ((power : Int) - 1074 + 1074).toNat = power := by omega
    exact ⟨power, rfl, few, many.imp_right (by omega), by rw [units, exponent]⟩

/-- A sum that stays where it was is within half of the last digit. -/
theorem le_of_still (left : Canonical a) (right : Canonical b) (positive : 0 < units b)
    (still : units (UnpackedFloat.add binary64 a b) = units a) :
    2 ^ 53 * units b ≤ |units a| := by
  have nearest := nearestTo_add left right
  have closest (other : Int) (short : Short other) :
      units b ≤ |other - (units a + units b)| := by
    have closer := nearest.least other short
    rwa [still, sub_add_cancel_left, abs_neg, abs_of_pos positive] at closer
  cases a with
  | notANumber | infinity => nomatch left
  | zero sign =>
    have none : units (.zero sign) = 0 := rfl
    have gone := closest (units b) right.short
    rw [none, zero_add, sub_self, abs_zero] at gone
    omega
  | finite sign m e some =>
    obtain ⟨p, rfl, few, many, value⟩ := exists_units left
    rw [Nat.cast_mul, ← apply_mul, Nat.cast_pow, Nat.cast_ofNat] at value
    have size : |sign.apply (m : Int)| = m := by rw [abs_apply, Nat.abs_cast]
    have step : (0 : Int) < 2 ^ p := by positivity
    -- one digit further up is a number too, and the sum is no nearer to it
    have next : Short ((sign.apply m + 1) * 2 ^ p) := by
      refine ⟨sign.apply m + 1, p, (abs_add_le _ _).trans ?_, rfl⟩
      rw [size, abs_one]
      exact_mod_cast few
    have near := closest _ next
    have gap : (sign.apply (m : Int) + 1) * 2 ^ p - (sign.apply m * 2 ^ p + units b)
        = 2 ^ p - units b := by ring
    rw [value, gap] at near
    have half : 2 * units b ≤ 2 ^ p := by
      rcases le_abs.mp near with less | more <;> linarith
    rw [value, abs_mul, size, abs_of_pos step]
    rcases many with full | lowest
    · calc 2 ^ 53 * units b = 2 ^ 52 * (2 * units b) := by ring
        _ ≤ (m : Int) * 2 ^ p := by
          gcongr
          exact_mod_cast full
    · rw [lowest] at half
      omega

theorem abs_mul_two_pow (number : Int) (power : Nat) :
    |number * 2 ^ power| = |number| * 2 ^ power := by
  rw [abs_mul, abs_of_pos (by positivity : (0 : Int) < 2 ^ power)]

/-- Another number with 53 digits is no nearer than half of the last digit. -/
theorem abs_le_gap (left : Canonical a) {other : Int} (short : Short other)
    (apart : other ≠ units a) : |units a| ≤ 2 ^ 53 * |other - units a| := by
  have gap : 0 < |other - units a| := abs_pos.mpr (sub_ne_zero.mpr apart)
  cases a with
  | notANumber | infinity => nomatch left
  | zero sign =>
    have none : units (.zero sign) = 0 := rfl
    rw [none, abs_zero]
    positivity
  | finite sign m e some =>
    obtain ⟨p, rfl, few, many, value⟩ := exists_units left
    obtain ⟨digits, q, bound, rfl⟩ := short
    rw [Nat.cast_mul, ← apply_mul, Nat.cast_pow, Nat.cast_ofNat] at value
    rw [value] at gap ⊢
    have size : |sign.apply (m : Int)| = m := by rw [abs_apply, Nat.abs_cast]
    rcases le_or_gt p q with coarse | fine
    · obtain ⟨k, rfl⟩ := Nat.exists_eq_add_of_le coarse
      have distance : |digits * 2 ^ (p + k) - sign.apply (m : Int) * 2 ^ p|
          = |digits * 2 ^ k - sign.apply m| * 2 ^ p := by
        rw [← abs_mul_two_pow]
        congr 1
        ring
      rw [distance] at gap ⊢
      have one := pos_of_mul_pos_left gap (by positivity)
      rw [abs_mul_two_pow, size, ← mul_assoc]
      gcongr
      omega
    -- the last digit of the other number is lower, and where it stands `a` has an even one
    · obtain ⟨k, rfl⟩ := Nat.exists_eq_add_of_lt fine
      let half := sign.apply (m : Int) * 2 ^ k
      have distance : |digits * 2 ^ q - sign.apply (m : Int) * 2 ^ (q + k + 1)|
          = |digits - half * 2| * 2 ^ q := by
        rw [← abs_mul_two_pow]
        congr 1
        ring
      have total : |sign.apply (m : Int) * 2 ^ (q + k + 1)| = |half * 2| * 2 ^ q := by
        rw [← abs_mul_two_pow]
        congr 1
        ring
      have double : |half * 2| = |half| * 2 := by rw [abs_mul, abs_two]
      rw [distance] at gap ⊢
      have one := pos_of_mul_pos_left gap (by positivity)
      have way := abs_add_le digits (half * 2 - digits)
      rw [add_sub_cancel, abs_sub_comm] at way
      rw [total, ← mul_assoc]
      exact mul_le_mul_of_nonneg_right (by omega) (by positivity)

/-- A number that is many times as great as what is added stays where it is. -/
theorem still_of_lt (left : Canonical a) (right : Canonical b) (positive : 0 < units b)
    (less : 2 ^ 54 * units b < |units a|) :
    units (UnpackedFloat.add binary64 a b) = units a := by
  have nearest := nearestTo_add left right
  have near := nearest.least (units a) left.short
  rw [sub_add_cancel_left, abs_neg, abs_of_pos positive] at near
  by_contra apart
  have gap := abs_le_gap left nearest.canonical.short apart
  have way : |units (UnpackedFloat.add binary64 a b) - units a| ≤
      |units (UnpackedFloat.add binary64 a b) - (units a + units b)| + |units b| := by
    calc |units (UnpackedFloat.add binary64 a b) - units a|
        = |units (UnpackedFloat.add binary64 a b) - (units a + units b) + units b| := by
          congr 1
          ring
      _ ≤ _ := abs_add_le _ _
  rw [abs_of_pos positive] at way
  linarith

/-! ### Numbers in their order -/

/-- The exact value of a number, infinite ones included. -/
def rank : UnpackedFloat → WithBot (WithTop Int)
  | .infinity .negative => ⊥
  | .infinity .positive => (⊤ : WithTop Int)
  | number => (units number : WithTop Int)

theorem rank_canonical (canonical : Canonical a) : rank a = ((units a : Int) : WithTop Int) := by
  cases canonical <;> rfl

theorem le_power {m n p q : Nat} (few : m < 2 ^ 53) (many : 2 ^ 52 ≤ n ∨ q = 0)
    (same : m * 2 ^ p = n * 2 ^ q) : q ≤ p := by
  by_contra lower
  obtain ⟨k, rfl⟩ := Nat.exists_eq_add_of_lt (not_le.mp lower)
  have digits : m = n * 2 ^ k * 2 := by
    apply Nat.eq_of_mul_eq_mul_right (Nat.two_pow_pos p)
    rw [same, Nat.mul_assoc, Nat.mul_assoc, ← Nat.pow_succ', ← Nat.pow_add]
    congr 2
    omega
  have grows := Nat.le_mul_of_pos_right n (Nat.two_pow_pos k)
  omega

theorem apply_injective {first second : Sign} {m n : Nat} (some : 0 < m) (more : 0 < n)
    (same : first.apply (m : Int) = second.apply (n : Int)) : first = second ∧ m = n := by
  cases first <;> cases second <;> simp only [Sign.apply] at same
  · exact ⟨rfl, by omega⟩
  · omega
  · omega
  · exact ⟨rfl, by omega⟩

/-- The exact values of two numbers are one only if the numbers are. -/
theorem sameNumber_of_units (left : Canonical a) (right : Canonical b) (same : units a = units b) :
    SameNumber a b := by
  have large {m : Nat} (some : 0 < m) (p : Nat) : 0 < m * 2 ^ p :=
    Nat.mul_pos some (Nat.two_pow_pos p)
  cases a with
  | notANumber | infinity => nomatch left
  | zero sign =>
    cases b with
    | notANumber | infinity => nomatch right
    | zero other => exact .zero sign other
    | finite second n f more =>
      obtain ⟨q, -, -, -, value⟩ := exists_units right
      have size := large more q
      rw [value] at same
      change 0 = _ at same
      cases second <;> simp only [Sign.apply] at same <;> omega
  | finite first m e some =>
    obtain ⟨p, rfl, few, many, value⟩ := exists_units left
    have size := large some p
    rw [value] at same
    cases b with
    | notANumber | infinity => nomatch right
    | zero other =>
      change _ = 0 at same
      cases first <;> simp only [Sign.apply] at same <;> omega
    | finite second n f more =>
      obtain ⟨q, rfl, few', many', value'⟩ := exists_units right
      rw [value'] at same
      obtain ⟨rfl, equal⟩ := apply_injective size (large more q) same
      -- neither exponent is greater than it must be, so they are the same
      obtain rfl : p = q := (le_power few' many equal.symm).antisymm (le_power few many' equal)
      obtain rfl := Nat.eq_of_mul_eq_mul_right (Nat.two_pow_pos p) equal
      exact .finite first m _ some

theorem unpack_add (x y : Float) :
    (x + y).toModel.unpack = UnpackedFloat.unpack binary64 (UnpackedFloat.pack binary64
      (UnpackedFloat.add binary64 x.toModel.unpack y.toModel.unpack)) := rfl

theorem unpack_add_undefined {x y : Float} (undefined : y.toModel.unpack = .notANumber) :
    (x + y).toModel.unpack = .notANumber := by
  have sum : UnpackedFloat.add binary64 x.toModel.unpack .notANumber = .notANumber := by
    cases x.toModel.unpack <;> rfl
  rw [unpack_add, undefined, sum]
  exact UnpackedFloat.unpack_packedNaN

/-- A stored number is less than what is too great to be stored. -/
theorem Stored.abs_units_lt (stored : Stored a) {sign : Sign} {mantissa : Nat} {exponent : Int}
    {positive : 0 < mantissa} (canonical : Canonical (.finite sign mantissa exponent positive))
    (great : 971 < exponent) : |units a| < |units (.finite sign mantissa exponent positive)| := by
  obtain ⟨q, rfl, -, many, value⟩ := exists_units canonical
  rw [value, abs_apply, Nat.abs_cast]
  cases stored with
  | undefined | infinity | zero =>
    change |(0 : Int)| < _
    rw [abs_zero]
    exact_mod_cast Nat.mul_pos positive (Nat.two_pow_pos q)
  | @finite other m e some canonical small =>
    obtain ⟨p, rfl, few, -, value⟩ := exists_units canonical
    rw [value, abs_apply, Nat.abs_cast]
    have full : 2 ^ 52 ≤ mantissa := many.resolve_right (by omega)
    norm_cast
    calc m * 2 ^ p < 2 ^ 53 * 2 ^ p := Nat.mul_lt_mul_of_pos_right few (Nat.two_pow_pos p)
      _ = 2 ^ 52 * 2 ^ (p + 1) := by ring
      _ ≤ mantissa * 2 ^ q := Nat.mul_le_mul full (Nat.pow_le_pow_right two_pos (by omega))

/-- What is stored for a number not less than a stored one is not less either. -/
theorem rank_le_unpack_pack (stored : Stored a) (number : Canonical a) (canonical : Canonical b)
    (below : units a ≤ units b) :
    rank a ≤ rank (UnpackedFloat.unpack binary64 (UnpackedFloat.pack binary64 b)) := by
  have exact : rank a ≤ rank b := by
    rw [rank_canonical number, rank_canonical canonical]
    exact_mod_cast below
  cases b with
  | notANumber | infinity => nomatch canonical
  | zero sign => rwa [unpack_pack_zero]
  | finite sign m e positive =>
    rw [unpack_pack_finite canonical]
    split
    · exact exact
    · next great =>
      have less := stored.abs_units_lt canonical (not_le.mp great)
      obtain ⟨q, rfl, -, -, value⟩ := exists_units canonical
      cases sign with
      | positive => exact le_top
      | negative =>
        rw [value, abs_apply, Nat.abs_cast] at less
        rw [value] at below
        change units a ≤ -_ at below
        linarith [neg_abs_le (units a)]

/-- What a positive spacing is, if it is a number at all. -/
inductive Positive : UnpackedFloat → Prop where
  | infinity : Positive (.infinity .positive)
  | finite {number : UnpackedFloat} : Canonical number → 0 < units number → Positive number

/-- A positive spacing does not lead back. -/
theorem rank_le_add {x y : Float} (number : x.toModel.unpack ≠ .notANumber)
    (positive : Positive y.toModel.unpack) :
    rank x.toModel.unpack ≤ rank (x + y).toModel.unpack := by
  have stored := stored_unpack x
  rw [unpack_add]
  generalize x.toModel.unpack = a at *
  generalize y.toModel.unpack = b at *
  have finite (canonical : Canonical a) :
      rank a ≤ rank (UnpackedFloat.unpack binary64 (UnpackedFloat.pack binary64
        (UnpackedFloat.add binary64 a b))) := by
    cases positive with
    | infinity =>
      have sum : UnpackedFloat.add binary64 a (.infinity .positive) = .infinity .positive := by
        cases canonical <;> rfl
      rw [sum, unpack_pack_infinity]
      exact le_top
    | finite right positive =>
      have nearest := nearestTo_add canonical right
      exact rank_le_unpack_pack stored canonical nearest.canonical
        (nearest.ge_of_pos canonical.short (by linarith))
  cases stored with
  | undefined => exact absurd rfl number
  | infinity sign =>
    cases sign with
    | negative => exact bot_le
    | positive =>
      have sum : UnpackedFloat.add binary64 (.infinity .positive) b = .infinity .positive := by
        cases positive with
        | infinity => rfl
        | finite right => cases right <;> rfl
      rw [sum, unpack_pack_infinity]
  | zero sign => exact finite (.zero sign)
  | finite canonical => exact finite canonical

theorem Stored.canonical_or_infinity (stored : Stored a) (number : a ≠ .notANumber) :
    Canonical a ∨ ∃ sign, a = .infinity sign := by
  cases stored with
  | undefined => exact absurd rfl number
  | infinity sign => exact .inr ⟨sign, rfl⟩
  | zero sign => exact .inl (.zero sign)
  | finite canonical => exact .inl canonical

theorem sameNumber_of_rank (left : Stored a) (right : Stored b) (some : a ≠ .notANumber)
    (more : b ≠ .notANumber) (same : rank a = rank b) : SameNumber a b := by
  rcases left.canonical_or_infinity some with canonical | ⟨sign, rfl⟩
  · rw [rank_canonical canonical] at same
    rcases right.canonical_or_infinity more with canonical' | ⟨other, rfl⟩
    · rw [rank_canonical canonical'] at same
      exact sameNumber_of_units canonical canonical' (by exact_mod_cast same)
    · cases other <;> cases same
  · rcases right.canonical_or_infinity more with canonical' | ⟨other, rfl⟩
    · rw [rank_canonical canonical'] at same
      cases sign <;> cases same
    · cases sign <;> cases other
      · exact .infinity _
      · cases same
      · cases same
      · exact .infinity _

/-! ### Sums of binary64 numbers -/

/-- The exact value of a finite number. -/
def value (x : Float) : ℚ :=
  units x.toModel.unpack / 2 ^ 1074

theorem canonical_of_isFinite {x : Float} (finite : x.isFinite) : Canonical x.toModel.unpack := by
  have finite : x.toModel.unpack.isFinite := finite
  rcases (stored_unpack x).canonical_or_infinity (by rintro none; rw [none] at finite; cases finite)
    with canonical | ⟨sign, same⟩
  · exact canonical
  · rw [same] at finite
    cases finite

theorem units_of_sameNumber (same : SameNumber a b) : units a = units b := by
  cases same <;> rfl

theorem unpack_pack_or (canonical : Canonical a) :
    UnpackedFloat.unpack binary64 (UnpackedFloat.pack binary64 a) = a ∨
      (∃ sign, UnpackedFloat.unpack binary64 (UnpackedFloat.pack binary64 a) = .infinity sign) ∧
      ∀ stored, Stored stored → |units stored| < |units a| := by
  cases a with
  | notANumber | infinity => nomatch canonical
  | zero sign => exact .inl (unpack_pack_zero sign)
  | finite sign m e positive =>
    rw [unpack_pack_finite canonical]
    split
    · exact .inl rfl
    · next great =>
      exact .inr ⟨⟨sign, rfl⟩, fun _ stored => stored.abs_units_lt canonical (not_le.mp great)⟩

variable {x y : Float}

/-- Zero does not stay where it is when something is added. -/
theorem unpack_zero_add {sign : Sign} (zero : x.toModel.unpack = .zero sign)
    (nonzero : ∀ other, y.toModel.unpack ≠ .zero other) :
    (x + y).toModel.unpack = y.toModel.unpack := by
  have sum : UnpackedFloat.add binary64 x.toModel.unpack y.toModel.unpack = y.toModel.unpack := by
    rw [zero]
    cases other : y.toModel.unpack with
    | zero other' => exact absurd other (nonzero other')
    | notANumber | infinity | finite => rfl
  rw [unpack_add, sum]
  exact congrArg (UnpackedFloat.unpack binary64) (UnpackedFloat.pack_unpack_of_valid y.toModel.valid)

theorem eq_of_sameNumber (same : SameNumber a b) (nonzero : ∀ sign, b ≠ .zero sign) : a = b := by
  cases same with
  | infinity | finite => rfl
  | zero _ other => exact absurd rfl (nonzero other)

theorem add_eq_of_beq (nonzero : ∀ sign, y.toModel.unpack ≠ .zero sign) (still : x + y == x) :
    x + y = x := by
  have same := beq_iff.mp still
  by_cases zero : ∃ sign, x.toModel.unpack = .zero sign
  · obtain ⟨sign, zero⟩ := zero
    rw [unpack_zero_add zero nonzero, zero] at same
    exact absurd (eq_of_sameNumber same.symm nonzero).symm (nonzero sign)
  · exact eq_of_unpack (eq_of_sameNumber same (not_exists.mp zero))

theorem units_le_of_beq (left : x.isFinite) (right : y.isFinite)
    (positive : 0 < units y.toModel.unpack) (still : x + y == x) :
    2 ^ 53 * units y.toModel.unpack ≤ |units x.toModel.unpack| := by
  have left := canonical_of_isFinite left
  have right := canonical_of_isFinite right
  have same := beq_iff.mp still
  rw [unpack_add] at same
  apply le_of_still left right positive
  rcases unpack_pack_or (nearestTo_add left right).canonical with kept | ⟨⟨sign, lost⟩, _⟩
  · rw [kept] at same
    exact units_of_sameNumber same
  · rw [lost] at same
    generalize x.toModel.unpack = a at same left
    cases same
    nomatch left

theorem beq_of_units_lt (left : x.isFinite) (right : y.isFinite)
    (positive : 0 < units y.toModel.unpack)
    (less : 2 ^ 54 * units y.toModel.unpack < |units x.toModel.unpack|) : x + y == x := by
  have left := canonical_of_isFinite left
  have right := canonical_of_isFinite right
  have still := still_of_lt left right positive less
  have canonical := (nearestTo_add left right).canonical
  rw [beq_iff, unpack_add]
  rcases unpack_pack_or canonical with kept | ⟨_, great⟩
  · rw [kept]
    exact sameNumber_of_units canonical left still
  · have more := great _ (stored_unpack x)
    rw [still] at more
    exact absurd more (lt_irrefl _)

/-- A number stays where it is under a positive spacing if it is more than `2 ^ 54` times as great,
and it does not if it is less than `2 ^ 53` times as great. -/
theorem still_iff_of_isFinite (left : x.isFinite) (right : y.isFinite) (positive : 0 < value y) :
    (x + y == x → 2 ^ 53 * value y ≤ |value x|) ∧
      (2 ^ 54 * value y < |value x| → x + y == x) := by
  have scale : (0 : ℚ) < 2 ^ 1074 := by positivity
  rw [value, div_pos_iff_of_pos_right scale, Int.cast_pos] at positive
  rw [value, value, abs_div, abs_of_pos scale, ← mul_div_assoc, ← mul_div_assoc,
    div_le_div_iff_of_pos_right scale, div_lt_div_iff_of_pos_right scale]
  constructor
  · intro still
    exact_mod_cast units_le_of_beq left right positive still
  · intro less
    exact beq_of_units_lt left right positive (by exact_mod_cast less)

end ReplyFlow.Decimal
