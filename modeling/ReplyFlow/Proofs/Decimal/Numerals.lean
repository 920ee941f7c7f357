import ReplyFlow.Proofs.Decimal.Digits
import ReplyFlow.Proofs.Decimal.Quotients

/-! What numerals are worth, and that the shortest numeral of a number lies among the values that
are read as this number. -/

set_option autoImplicit false

namespace ReplyFlow.Decimal

/-! ### Numerals -/

def Numeral.value (n : Numeral) : ℚ :=
  digitsValue n.digits * 10 ^ (n.exponent + 1 - n.digits.length)

/-- A numeral of digits, with no zero in front unless it is the numeral of zero. -/
structure Numeral.Proper (n : Numeral) : Prop where
  all : ∀ c ∈ n.digits, c.isDigit
  nonempty : n.digits ≠ []
  lead : n.digits.head? = some '0' → n = .zero

theorem Numeral.proper_zero : Numeral.zero.Proper :=
  ⟨fun c member => by rw [List.mem_singleton.mp member]; rfl, List.cons_ne_nil _ _, fun _ => rfl⟩

theorem exists_digits (count : Nat) :
    ∃ dropped, Nat.toDigits 10 count =
      ((Nat.toDigits 10 count).reverse.dropWhile (· == '0')).reverse ++ zeros dropped := by
  let behind := (Nat.toDigits 10 count).reverse.takeWhile (· == '0')
  have same : behind = List.replicate behind.length '0' :=
    List.eq_replicate_of_mem fun c member => by simpa using List.mem_takeWhile_imp member
  refine ⟨behind.length, ?_⟩
  have parts := congrArg List.reverse
    (List.takeWhile_append_dropWhile (p := (· == '0')) (l := (Nat.toDigits 10 count).reverse))
  rw [List.reverse_append, List.reverse_reverse] at parts
  rw [zeros, ← List.reverse_replicate, ← same]
  exact parts.symm

/-- A whole number of steps of one power of ten keeps its value, without the zeros at its end. -/
theorem Numeral.ofScaled_spec {count : Nat} (positive : 0 < count) (power : Int) :
    (Numeral.ofScaled count power).Proper ∧
      (Numeral.ofScaled count power).value = count * 10 ^ power := by
  obtain ⟨dropped, parts⟩ := exists_digits count
  have worth := digitsValue_toDigits count
  have all (c : Char) (member : c ∈ Nat.toDigits 10 count) : c.isDigit :=
    Nat.isDigit_of_mem_toDigits (by decide) (by decide) member
  rw [ofScaled]
  generalize ((Nat.toDigits 10 count).reverse.dropWhile (· == '0')).reverse = digits at parts ⊢
  rw [parts, digitsValue_append_zeros] at worth
  have nonempty : digits ≠ [] := by
    rintro rfl
    rw [digitsValue, List.foldl_nil, Nat.zero_mul] at worth
    omega
  obtain ⟨first, more, rfl⟩ := List.exists_cons_of_ne_nil nonempty
  dsimp only
  refine ⟨⟨fun c member => all c ?_, nonempty, fun lead => ?_⟩, ?_⟩
  · rw [parts]
    exact List.mem_append_left _ member
  · have zero : count = 0 := by
      refine eq_zero_of_head?_toDigits ?_
      rw [parts]
      exact lead
    omega
  · have length : (Nat.toDigits 10 count).length = (first :: more).length + dropped := by
      rw [parts, List.length_append, zeros, List.length_replicate]
    have exponent : power + (Nat.toDigits 10 count).length - 1 + 1 - (first :: more).length =
        dropped + power := by
      rw [length]
      push_cast
      ring
    rw [value, exponent, zpow_add₀ (by norm_num), ← mul_assoc, zpow_natCast, ← worth]
    push_cast
    rfl

/-! ### Ratios -/

namespace Ratio

def value (ratio : Ratio) : ℚ :=
  ratio.num / ratio.den

theorem den_ofBinary (mantissa : Nat) (exponent : Int) : 0 < (ofBinary mantissa exponent).den := by
  rw [ofBinary]
  split
  · exact Nat.one_pos
  · exact Nat.two_pow_pos _

theorem num_ofBinary {mantissa : Nat} (positive : 0 < mantissa) (exponent : Int) :
    0 < (ofBinary mantissa exponent).num := by
  rw [ofBinary]
  split
  · exact Nat.mul_pos positive (Nat.two_pow_pos _)
  · exact positive

theorem value_ofBinary (mantissa : Nat) (exponent : Int) :
    (ofBinary mantissa exponent).value = mantissa * 2 ^ exponent := by
  rw [ofBinary, value]
  split
  · next above =>
    obtain ⟨steps, rfl⟩ := Int.eq_ofNat_of_zero_le above
    simp
  · next below =>
    obtain ⟨steps, rfl⟩ : ∃ steps : Nat, exponent = -steps := ⟨(-exponent).toNat, by omega⟩
    simp [div_eq_mul_inv]

variable {ratio other : Ratio}

theorem den_shift (some : 0 < ratio.den) (power : Int) : 0 < (ratio.shift power).den := by
  rw [shift]
  split
  · exact some
  · exact Nat.mul_pos some (Nat.pow_pos (by decide))

theorem value_shift (ratio : Ratio) (power : Int) :
    (ratio.shift power).value = ratio.value * 10 ^ power := by
  rw [shift, value, value]
  split
  · next above =>
    obtain ⟨steps, rfl⟩ := Int.eq_ofNat_of_zero_le above
    simp only [Int.toNat_natCast, Nat.pow_eq, Nat.cast_mul, Nat.cast_pow, Nat.cast_ofNat,
      zpow_natCast]
    ring
  · next below =>
    obtain ⟨steps, rfl⟩ : ∃ steps : Nat, power = -steps := ⟨(-power).toNat, by omega⟩
    simp only [neg_neg, Int.toNat_natCast, Nat.pow_eq, Nat.cast_mul, Nat.cast_pow,
      Nat.cast_ofNat, zpow_neg, zpow_natCast]
    rw [div_mul_eq_div_div, div_eq_mul_inv]

theorem floor_le (some : 0 < ratio.den) : (ratio.floor : ℚ) ≤ ratio.value := by
  rw [value, le_div_iff₀ (by exact_mod_cast some)]
  exact_mod_cast Nat.div_mul_le_self ratio.num ratio.den

theorem lt_floor (some : 0 < ratio.den) : ratio.value < ratio.floor + 1 := by
  rw [value, div_lt_iff₀ (by exact_mod_cast some)]
  exact_mod_cast (Nat.div_lt_iff_lt_mul some).mp (Nat.lt_succ_self ratio.floor)

theorem le_iff (some : 0 < ratio.den) (more : 0 < other.den) :
    ratio.le other ↔ ratio.value ≤ other.value := by
  rw [le, decide_eq_true_eq, value, value,
    div_le_div_iff₀ (by exact_mod_cast some) (by exact_mod_cast more)]
  norm_cast

theorem lt_iff (some : 0 < ratio.den) (more : 0 < other.den) :
    ratio.lt other ↔ ratio.value < other.value := by
  rw [lt, decide_eq_true_eq, value, value,
    div_lt_div_iff₀ (by exact_mod_cast some) (by exact_mod_cast more)]
  norm_cast

/-- No value is less than the power of ten of its leading digit. -/
theorem ten_zpow_order_le (positive : 0 < ratio.num) (some : 0 < ratio.den) :
    (10 : ℚ) ^ ratio.order ≤ ratio.value := by
  have scale : (0 : ℚ) < ratio.den := by exact_mod_cast some
  rw [order]
  split
  · next whole =>
    have least := ten_pow_le_of_decimalLength (Nat.div_pos whole some)
    have length : 0 < decimalLength ratio.floor := Nat.length_toDigits_pos
    have exponent : (decimalLength ratio.floor : Int) - 1 =
        (decimalLength ratio.floor - 1 : Nat) := by
      omega
    rw [exponent, zpow_natCast]
    exact (by exact_mod_cast least : ((10 : ℚ) ^ _) ≤ ratio.floor).trans (floor_le some)
  · next fraction =>
    have digits := lt_ten_pow_decimalLength (ratio.den / ratio.num)
    have length : 0 < decimalLength (ratio.den / ratio.num) := Nat.length_toDigits_pos
    generalize decimalLength (ratio.den / ratio.num) = size at *
    rw [Nat.div_lt_iff_lt_mul positive] at digits
    dsimp only
    split
    · next exact =>
      have exponent : 1 - (size : Int) = -((size - 1 : Nat) : Int) := by omega
      rw [exponent, zpow_neg, zpow_natCast, value, le_div_iff₀ scale, ← exact, Nat.pow_eq]
      push_cast
      rw [mul_comm (ratio.num : ℚ), inv_mul_cancel_left₀ (pow_ne_zero _ (by norm_num))]
    · rw [zpow_neg, zpow_natCast, value, le_div_iff₀ scale, inv_mul_le_iff₀ (by positivity)]
      exact_mod_cast digits.le

end Ratio

/-! ### The shortest numeral -/

theorem around_eq {depth : Nat} (deepest : depth = 1074) (mantissa last : Nat) :
    Interval.around mantissa ((last : Int) - depth) =
      { lower := .ofBinary (4 * mantissa - quarters mantissa last) ((last : Int) - depth - 2)
        upper := .ofBinary (4 * mantissa + 2) ((last : Int) - depth - 2)
        closed := mantissa % 2 = 0 } := by
  have same : (if mantissa = Nat.pow 2 52 && decide (-1074 < (last : Int) - depth) then 1 else 2) =
      quarters mantissa last := by
    rw [quarters]
    refine if_congr ?_ rfl rfl
    rw [Bool.and_eq_true, decide_eq_true_eq, decide_eq_true_eq, Nat.pow_eq]
    exact and_congr_right fun _ => by omega
  rw [Interval.around]
  rw [same]

/-- The values that are read as one number are those that are rounded to it. -/
theorem Interval.near_of_contains {mantissa last depth : Nat} (deepest : depth = 1074)
    (positive : 0 < mantissa) {ratio : Ratio} (some : 0 < ratio.den)
    (contains : (Interval.around mantissa ((last : Int) - depth)).contains ratio) :
    Near (ratio.value * 2 ^ depth) mantissa last := by
  have fewer : quarters mantissa last ≤ 4 * mantissa := by
    rw [quarters]
    split <;> omega
  have quarter : (2 : ℚ) ^ ((last : Int) - depth - 2) * (2 ^ depth * 4) = 2 ^ last := by
    rw [← zpow_natCast 2 depth, ← zpow_natCast 2 last, (by norm_num : (4 : ℚ) = 2 ^ (2 : Int)),
      ← zpow_add₀ two_ne_zero, ← zpow_add₀ two_ne_zero]
    congr 1
    ring
  have scale : (0 : ℚ) < 2 ^ depth * 4 := by positivity
  have lower : ((4 * mantissa - quarters mantissa last : Nat) *
      2 ^ ((last : Int) - depth - 2) : ℚ) * (2 ^ depth * 4) =
        4 * mantissa * 2 ^ last - quarters mantissa last * 2 ^ last := by
    rw [mul_assoc, quarter, Nat.cast_sub fewer]
    push_cast
    ring
  have upper : ((4 * mantissa + 2 : Nat) * 2 ^ ((last : Int) - depth - 2) : ℚ) *
      (2 ^ depth * 4) = 4 * mantissa * 2 ^ last + 2 * 2 ^ last := by
    rw [mul_assoc, quarter]
    push_cast
    ring
  have low := Ratio.den_ofBinary (4 * mantissa - quarters mantissa last) ((last : Int) - depth - 2)
  have high := Ratio.den_ofBinary (4 * mantissa + 2) ((last : Int) - depth - 2)
  rw [around_eq deepest, Interval.contains] at contains
  dsimp only at contains
  split at contains
  · next even =>
    rw [Bool.and_eq_true, Ratio.le_iff low some, Ratio.le_iff some high, Ratio.value_ofBinary,
      Ratio.value_ofBinary] at contains
    have below := mul_le_mul_of_nonneg_right contains.1 scale.le
    have above := mul_le_mul_of_nonneg_right contains.2 scale.le
    rw [lower] at below
    rw [upper] at above
    refine ⟨by linarith, by linarith, fun odd => ?_⟩
    rw [decide_eq_true_eq] at even
    omega
  · rw [Bool.and_eq_true, Ratio.lt_iff low some, Ratio.lt_iff some high, Ratio.value_ofBinary,
      Ratio.value_ofBinary] at contains
    have below := mul_lt_mul_of_pos_right contains.1 scale
    have above := mul_lt_mul_of_pos_right contains.2 scale
    rw [lower] at below
    rw [upper] at above
    exact ⟨by linarith, by linarith, fun _ => ⟨by linarith, by linarith⟩⟩

namespace Interval

variable {span : Interval} {ratio : Ratio} {power : Int}

theorem contains_of_lt (low : 0 < span.lower.den) (high : 0 < span.upper.den)
    (some : 0 < ratio.den) (below : span.lower.value < ratio.value)
    (above : ratio.value < span.upper.value) : span.contains ratio := by
  rw [contains]
  split
  · rw [Bool.and_eq_true, Ratio.le_iff low some, Ratio.le_iff some high]
    exact ⟨below.le, above.le⟩
  · rw [Bool.and_eq_true, Ratio.lt_iff low some, Ratio.lt_iff some high]
    exact ⟨below, above⟩

theorem contains_of_onGrid? {count : Nat} (found : span.onGrid? ratio power = some count) :
    span.contains (Ratio.shift ⟨count, 1⟩ power) := by
  rw [onGrid?] at found
  dsimp only at found
  split at found
  · next first second =>
    -- the nearer of two points of the grid is one of the two
    obtain rfl := Option.some.inj found
    rcases nearestEven_cases (ratio.shift (-power)).num (ratio.shift (-power)).den
      with ⟨down, _⟩ | ⟨up, _⟩
    · rw [Ratio.round, down]
      exact first
    · rw [Ratio.round, up]
      exact second
  · next first _ =>
    obtain rfl := Option.some.inj found
    exact first
  · next _ second =>
    obtain rfl := Option.some.inj found
    exact second
  · cases found

theorem isSome_onGrid? (hit : span.contains (Ratio.shift ⟨(ratio.shift (-power)).floor, 1⟩ power) ∨
    span.contains (Ratio.shift ⟨(ratio.shift (-power)).floor + 1, 1⟩ power)) :
    (span.onGrid? ratio power).isSome := by
  rw [onGrid?]
  rcases hit with first | second
  · simp only [first]
    split <;> simp_all
  · simp only [second]
    split <;> simp_all

end Interval

/-- Points of a grid with 17 digits are close enough for one of two neighbours to be read as the
number between them. -/
theorem isSome_seventeen {mantissa depth : Nat} (deepest : depth = 1074)
    (positive : 0 < mantissa) (few : mantissa < 2 ^ 53) (last : Nat) :
    let value := Ratio.ofBinary mantissa ((last : Int) - depth)
    ((Interval.around mantissa ((last : Int) - depth)).onGrid? value
      (value.order - 16)).isSome := by
  intro value
  have some : 0 < value.den := Ratio.den_ofBinary _ _
  have number : 0 < value.num := Ratio.num_ofBinary positive _
  have leading := Ratio.ten_zpow_order_le number some
  have scaled : 0 < (value.shift (-(value.order - 16))).den := Ratio.den_shift some _
  have down := Ratio.floor_le scaled
  have up := Ratio.lt_floor scaled
  have shift (count : Nat) : (Ratio.shift ⟨count, 1⟩ (value.order - 16)).value =
      count * 10 ^ (value.order - 16) := by
    rw [Ratio.value_shift, Ratio.value, Nat.cast_one, div_one]
  have grid : (10 : ℚ) ^ value.order = 10 ^ (value.order - 16) * 10 ^ 16 := by
    rw [← zpow_natCast, ← zpow_add₀ (by norm_num)]
    congr 1
    ring
  have step : (0 : ℚ) < 10 ^ (value.order - 16) := by positivity
  rw [Ratio.value_shift, zpow_neg, ← div_eq_mul_inv] at down up
  rw [le_div_iff₀ step] at down
  rw [div_lt_iff₀ step] at up
  rw [grid] at leading
  have exact : value.value = 4 * mantissa * 2 ^ ((last : Int) - depth - 2) := by
    rw [Ratio.value_ofBinary, zpow_sub₀ two_ne_zero ((last : Int) - depth)]
    ring
  rw [exact] at leading down up
  refine Interval.isSome_onGrid? ?_
  generalize (value.shift (-(value.order - 16))).floor = low at down up ⊢
  generalize (10 : ℚ) ^ (value.order - 16) = gap at shift step leading down up
  have quarter : (0 : ℚ) < 2 ^ ((last : Int) - depth - 2) := by positivity
  have fewer : quarters mantissa last ≤ 4 * mantissa := by
    rw [quarters]
    split <;> omega
  have lower : (Ratio.ofBinary (4 * mantissa - quarters mantissa last)
      ((last : Int) - depth - 2)).value =
        (4 * mantissa - quarters mantissa last) * 2 ^ ((last : Int) - depth - 2) := by
    rw [Ratio.value_ofBinary, Nat.cast_sub fewer]
    push_cast
    rfl
  have upper : (Ratio.ofBinary (4 * mantissa + 2) ((last : Int) - depth - 2)).value =
      (4 * mantissa + 2) * 2 ^ ((last : Int) - depth - 2) := by
    rw [Ratio.value_ofBinary]
    push_cast
    rfl
  have wide : (4 * mantissa : ℚ) < (2 + quarters mantissa last) * 10 ^ 16 := by
    rw [quarters]
    split
    · next least =>
      rw [least.1]
      norm_num
    · have digits : (mantissa : ℚ) < 9007199254740992 := by exact_mod_cast few
      norm_num
      linarith
  have some : (0 : ℚ) < quarters mantissa last := by
    rw [quarters]
    split <;> norm_num
  have hits {count : Nat}
      (below : (4 * mantissa - quarters mantissa last) * 2 ^ ((last : Int) - depth - 2) <
        (count * gap : ℚ))
      (above : (count * gap : ℚ) < (4 * mantissa + 2) * 2 ^ ((last : Int) - depth - 2)) :
      (Interval.around mantissa ((last : Int) - depth)).contains
        (Ratio.shift ⟨count, 1⟩ (value.order - 16)) := by
    rw [around_eq deepest]
    refine Interval.contains_of_lt (Ratio.den_ofBinary _ _) (Ratio.den_ofBinary _ _)
      (Ratio.den_shift Nat.one_pos _) ?_ ?_
    · rw [lower, shift]
      exact below
    · rw [upper, shift]
      exact above
  generalize (2 : ℚ) ^ ((last : Int) - depth - 2) = unit at *
  have narrow : gap < (2 + quarters mantissa last) * unit := by
    have widened := mul_lt_mul_of_pos_right wide quarter
    refine lt_of_mul_lt_mul_right ?_ (by norm_num : (0 : ℚ) ≤ 10 ^ 16)
    linarith
  have away := mul_pos some quarter
  rcases lt_or_ge ((4 * mantissa - quarters mantissa last) * unit) (low * gap) with near | far
  · exact .inl (hits near (by linarith))
  · refine .inr (hits ?_ ?_) <;> push_cast <;> linarith

/-- The shortest numeral of a number lies among the values that are read as this number. -/
theorem shortest_spec {mantissa last depth : Nat} (deepest : depth = 1074)
    (positive : 0 < mantissa) (few : mantissa < 2 ^ 53) :
    (shortest mantissa ((last : Int) - depth)).Proper ∧
      Near ((shortest mantissa ((last : Int) - depth)).value * 2 ^ depth) mantissa last := by
  have seventeen := isSome_seventeen deepest positive few last
  rw [shortest]
  dsimp only at seventeen ⊢
  generalize Ratio.ofBinary mantissa ((last : Int) - depth) = value at *
  obtain ⟨count, sixteen⟩ := Option.isSome_iff_exists.mp seventeen
  have finds : (List.range 17).findSome? (fun (more : Nat) =>
      ((Interval.around mantissa ((last : Int) - depth)).onGrid? value (value.order - more)).map
        (Numeral.ofScaled · (value.order - more))) ≠ none := by
    intro none
    have last := List.findSome?_eq_none_iff.mp none 16 (by decide)
    rw [Nat.cast_ofNat, sixteen] at last
    cases last
  obtain ⟨numeral, found⟩ := Option.ne_none_iff_exists'.mp finds
  rw [found, Option.getD_some]
  obtain ⟨more, _, chosen⟩ := List.exists_of_findSome?_eq_some found
  obtain ⟨count, hit, rfl⟩ := Option.map_eq_some_iff.mp chosen
  have near := Interval.near_of_contains deepest positive (Ratio.den_shift Nat.one_pos _)
    (Interval.contains_of_onGrid? hit)
  rw [Ratio.value_shift, Ratio.value, Nat.cast_one, div_one] at near
  have some : 0 < count := by
    rcases Nat.eq_zero_or_pos count with rfl | some
    · have half := half_le_of_near positive near
      norm_num at half
    · exact some
  obtain ⟨proper, worth⟩ := Numeral.ofScaled_spec some (value.order - more)
  rw [worth]
  exact ⟨proper, near⟩

end ReplyFlow.Decimal
