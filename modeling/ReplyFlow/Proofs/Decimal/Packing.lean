import Mathlib
import ReplyFlow.Decimal.Binary64

/-! The bits of a binary64 number, and what they say. -/

set_option autoImplicit false

namespace ReplyFlow.Decimal

open Float.Model
open Float.Model.Format (binary64)
open Float.Model.UnpackedFloat (packComponents unpackExponent unpackMantissa Sign)

theorem unpack_packComponents (sign : Sign) (exponent : BitVec 11) (mantissa : BitVec 52) :
    UnpackedFloat.unpack binary64 (packComponents binary64 sign exponent mantissa) =
      if exponent = -1#11 then
        if mantissa = 0#52 then .infinity sign else .notANumber
      else if exponent = 0#11 then
        if some : 0 < mantissa.toNat then .finite sign mantissa.toNat (-1074) some else .zero sign
      else .finite sign (2 ^ 52 + mantissa.toNat) (exponent.toNat - 1075) (by omega) := by
  have implicit : (1#1 ++ mantissa).toNat = 2 ^ 52 + mantissa.toNat := by
    rw [BitVec.toNat_append, ← Nat.shiftLeft_add_eq_or_of_lt mantissa.isLt, Nat.shiftLeft_eq,
      BitVec.toNat_one Nat.one_pos, Nat.one_mul]
  unfold UnpackedFloat.unpack
  simp only [UnpackedFloat.unpackMantissa_packComponents, UnpackedFloat.unpackExponent_packComponents,
    UnpackedFloat.unpackSign_packComponents, Sign.ofBitVec_toBitVec, implicit]
  by_cases last : exponent = -1#11
  · rw [if_pos last, if_pos last]
  · rw [if_neg last, if_neg last]
    by_cases first : exponent = 0#11
    · rw [if_pos first, if_pos first]
      by_cases none : mantissa = 0#52
      · rw [dif_pos none, dif_neg (by simp [none])]
      · rw [dif_neg none, dif_pos (by simpa [BitVec.toNat_pos, BitVec.pos_iff_ne_zero] using none)]
        simp [first, Format.exponentBias]
    · rw [if_neg first, if_neg first]
      rfl

/-- A number with 53 digits, or with fewer of them where the exponent is the least. -/
inductive Canonical : UnpackedFloat → Prop where
  | zero (sign : Sign) : Canonical (.zero sign)
  | finite {sign : Sign} {mantissa : Nat} {exponent : Int} {positive : 0 < mantissa} :
    mantissa < 2 ^ 53 → -1074 ≤ exponent → 2 ^ 52 ≤ mantissa ∨ exponent = -1074 →
    Canonical (.finite sign mantissa exponent positive)

theorem pack_finite {sign : Sign} {mantissa : Nat} {exponent : Int} (positive : 0 < mantissa) :
    UnpackedFloat.pack binary64 (.finite sign mantissa exponent positive) =
      if 2 ^ 11 ≤ (exponent + 1075).toNat + 1 then packComponents binary64 sign (-1#11) 0#52
      else if mantissa.log2 = 52 then
        packComponents binary64 sign (BitVec.ofNat 11 (exponent + 1075).toNat)
          (BitVec.ofNat 52 mantissa)
      else packComponents binary64 sign 0#11 (BitVec.ofNat 52 mantissa) := by
  have bias : binary64.exponentBias = 1023 := rfl
  have digits : binary64.mantissaBits = 53 := rfl
  have biased : exponent + (1023 : Nat) + (52 : Nat) = exponent + 1075 := by omega
  have full : mantissa.log2 + 1 = 53 ↔ mantissa.log2 = 52 := by omega
  simp only [UnpackedFloat.pack, UnpackedFloat.packedInfinity, bias, digits, biased, full]
  rfl

theorem log2_eq_iff {mantissa : Nat} (bound : mantissa < 2 ^ 53) (positive : 0 < mantissa) :
    mantissa.log2 = 52 ↔ 2 ^ 52 ≤ mantissa := by
  have high := (Nat.log2_lt (Nat.ne_of_gt positive)).mpr bound
  rw [← Nat.le_log2 (Nat.ne_of_gt positive)]
  omega

/-- What is packed comes back, unless it is too great. -/
theorem unpack_pack_finite {sign : Sign} {mantissa : Nat} {exponent : Int}
    {positive : 0 < mantissa} (canonical : Canonical (.finite sign mantissa exponent positive)) :
    UnpackedFloat.unpack binary64 (UnpackedFloat.pack binary64
        (.finite sign mantissa exponent positive)) =
      if exponent ≤ 971 then .finite sign mantissa exponent positive else .infinity sign := by
  cases canonical with
  | finite digits least many =>
    rw [pack_finite]
    by_cases range : exponent ≤ 971
    · rw [if_pos range, if_neg (by omega)]
      -- the first digit of 53 is not stored; a number without it has the least exponent
      by_cases normal : 2 ^ 52 ≤ mantissa
      · have stored : (BitVec.ofNat 11 (exponent + 1075).toNat).toNat = (exponent + 1075).toNat := by
          rw [BitVec.toNat_ofNat, Nat.mod_eq_of_lt (by omega)]
        have fraction : (BitVec.ofNat 52 mantissa).toNat = mantissa - 2 ^ 52 := by
          rw [BitVec.toNat_ofNat, Nat.mod_eq_sub_mod normal, Nat.mod_eq_of_lt (by omega)]
        have inner : BitVec.ofNat 11 (exponent + 1075).toNat ≠ -1#11 := by
          intro last
          rw [last] at stored
          change 2047 = _ at stored
          omega
        have above : BitVec.ofNat 11 (exponent + 1075).toNat ≠ 0#11 := by
          intro first
          rw [first] at stored
          change 0 = _ at stored
          omega
        rw [if_pos ((log2_eq_iff digits positive).mpr normal), unpack_packComponents,
          if_neg inner, if_neg above]
        congr 1
        · omega
        · omega
      · have fraction : (BitVec.ofNat 52 mantissa).toNat = mantissa := by
          rw [BitVec.toNat_ofNat, Nat.mod_eq_of_lt (by omega)]
        have only : exponent = -1074 := many.resolve_left normal
        rw [if_neg (mt (log2_eq_iff digits positive).mp normal), unpack_packComponents,
          if_neg (by decide), if_pos rfl, dif_pos (by omega)]
        congr 1
        exact only.symm
    · rw [if_neg range, if_pos (by omega), unpack_packComponents, if_pos rfl, if_pos rfl]

theorem unpack_pack_infinity (sign : Sign) :
    UnpackedFloat.unpack binary64 (UnpackedFloat.pack binary64 (.infinity sign)) =
      .infinity sign := by
  rw [UnpackedFloat.pack, UnpackedFloat.packedInfinity]
  exact unpack_packComponents sign (-1#11) 0#52

theorem unpack_pack_zero (sign : Sign) :
    UnpackedFloat.unpack binary64 (UnpackedFloat.pack binary64 (.zero sign)) = .zero sign :=
  UnpackedFloat.unpack_packedZero

/-- What the bits of a number may say. -/
inductive Stored : UnpackedFloat → Prop where
  | undefined : Stored .notANumber
  | infinity (sign : Sign) : Stored (.infinity sign)
  | zero (sign : Sign) : Stored (.zero sign)
  | finite {sign : Sign} {mantissa : Nat} {exponent : Int} {positive : 0 < mantissa} :
    Canonical (.finite sign mantissa exponent positive) → exponent ≤ 971 →
    Stored (.finite sign mantissa exponent positive)

theorem stored_unpack (x : Float) : Stored x.toModel.unpack := by
  rw [Float.Model.unpack,
    ← @UnpackedFloat.packComponents_unpackSign_unpackExponent_unpackMantissa binary64
      x.toModel.toBits.toBitVec, unpack_packComponents]
  generalize Sign.ofBitVec _ = sign
  generalize unpackExponent _ = exponent
  generalize unpackMantissa _ = mantissa
  have fraction : mantissa.toNat < 2 ^ 52 := mantissa.isLt
  have biased : exponent.toNat < 2 ^ 11 := exponent.isLt
  split_ifs with last none first some
  · exact .infinity sign
  · exact .undefined
  · exact .finite (.finite (by omega) (Int.le_refl _) (.inr rfl)) (by decide)
  · exact .zero sign
  · have above : exponent.toNat ≠ 0 := fun zero => first (BitVec.eq_of_toNat_eq zero)
    have below : exponent.toNat ≠ 2047 := fun top => last (BitVec.eq_of_toNat_eq top)
    exact .finite (.finite (by omega) (by omega) (.inl (by omega))) (by omega)

theorem eq_of_unpack {x y : Float} (same : x.toModel.unpack = y.toModel.unpack) : x = y := by
  have bits := (UnpackedFloat.unpack_inj_of_valid x.toModel.valid y.toModel.valid).mp same
  exact Float.toBits_inj.mp (UInt64.toBitVec_inj.mp bits)

/-- Only one number is undefined, and two are infinite. -/
theorem eq_of_not_isFinite {x : Float} (infinite : x.isFinite = false) :
    x = 0 / 0 ∨ x = 1 / 0 ∨ x = -1 / 0 := by
  have infinite : x.toModel.unpack.isFinite = false := infinite
  cases same : x.toModel.unpack with
  | notANumber => exact .inl (eq_of_unpack same)
  | infinity sign =>
    cases sign with
    | positive => exact .inr (.inl (eq_of_unpack same))
    | negative => exact .inr (.inr (eq_of_unpack same))
  | zero | finite =>
    rw [same] at infinite
    cases infinite

/-! ### The shape of a number -/

def minus : Sign → Bool
  | .positive => false
  | .negative => true

/-- The shape of a number, given its unpacked form. -/
def shapeOf : UnpackedFloat → Shape
  | .notANumber => .undefined
  | .infinity sign => .infinite (minus sign)
  | .zero sign => .finite (minus sign) 0 (-1074)
  | .finite sign mantissa exponent _ => .finite (minus sign) mantissa exponent

/-- The bits of a number as a whole number. -/
def bitsValue (sign : Sign) (exponent fraction : Nat) : Nat :=
  ((minus sign).toNat * 2 ^ 11 + exponent) * 2 ^ 52 + fraction

theorem bitsValue_parts (sign : Sign) {exponent fraction : Nat} (few : exponent < 2 ^ 11)
    (short : fraction < 2 ^ 52) :
    decide (2 ^ 63 ≤ bitsValue sign exponent fraction) = minus sign ∧
      bitsValue sign exponent fraction / 2 ^ 52 % 2 ^ 11 = exponent ∧
      bitsValue sign exponent fraction % 2 ^ 52 = fraction := by
  rw [bitsValue]
  refine ⟨?_, by omega, by omega⟩
  cases sign <;> simp [minus] <;> omega

theorem toNat_packComponents (sign : Sign) (exponent : BitVec 11) (mantissa : BitVec 52) :
    (packComponents binary64 sign exponent mantissa).toNat =
      bitsValue sign exponent.toNat mantissa.toNat := by
  have first : (sign.toBitVec ++ exponent).toNat =
      (minus sign).toNat * 2 ^ 11 + exponent.toNat := by
    rw [BitVec.toNat_append, ← Nat.shiftLeft_add_eq_or_of_lt exponent.isLt, Nat.shiftLeft_eq]
    cases sign <;> rfl
  have last : mantissa.toNat < 2 ^ 52 := mantissa.isLt
  change (sign.toBitVec ++ exponent ++ mantissa).toNat = _
  rw [BitVec.toNat_append, first, ← Nat.shiftLeft_add_eq_or_of_lt last, Nat.shiftLeft_eq,
    bitsValue]

theorem shape_eq (x : Float) : shape x = shapeOf x.toModel.unpack := by
  have bits : x.toBits.toNat = x.toModel.toBits.toBitVec.toNat := rfl
  rw [Float.Model.unpack, shape, bits,
    ← @UnpackedFloat.packComponents_unpackSign_unpackExponent_unpackMantissa binary64
      x.toModel.toBits.toBitVec, unpack_packComponents, toNat_packComponents]
  generalize Sign.ofBitVec _ = sign
  generalize unpackExponent _ = exponent
  generalize unpackMantissa _ = mantissa
  have last : exponent = -1#11 ↔ exponent.toNat = 2047 := BitVec.toNat_inj.symm
  have first : exponent = 0#11 ↔ exponent.toNat = 0 := BitVec.toNat_inj.symm
  have none : mantissa = 0#52 ↔ mantissa.toNat = 0 := BitVec.toNat_inj.symm
  obtain ⟨negative, biased, fraction⟩ := bitsValue_parts sign exponent.isLt mantissa.isLt
  simp only [last, first, none, Nat.pow_eq]
  rw [negative, biased, fraction]
  split_ifs with infinite zero least some
  · rfl
  · rfl
  · rfl
  · rw [shapeOf]
    congr 1
    omega
  · rfl

/-! ### Signs -/

theorem unpack_neg (x : Float) :
    (-x).toModel.unpack = UnpackedFloat.unpack binary64 (UnpackedFloat.pack binary64
      x.toModel.unpack.neg) := rfl

theorem unpack_zero : (0 : Float).toModel.unpack = .zero .positive :=
  unpack_pack_zero .positive

/-- A sign before a number without one. -/
theorem unpack_withSign {x : Float} (sign : Sign) {mantissa : Nat} {exponent : Int}
    {some : 0 < mantissa} (same : x.toModel.unpack = .finite .positive mantissa exponent some)
    (canonical : Canonical (.finite sign mantissa exponent some)) (range : exponent ≤ 971) :
    (withSign (minus sign) x).toModel.unpack = .finite sign mantissa exponent some := by
  cases sign with
  | positive => exact same
  | negative =>
    change (-x).toModel.unpack = _
    rw [unpack_neg, same]
    exact (unpack_pack_finite canonical).trans (if_pos range)

theorem unpack_withSign_zero (sign : Sign) :
    (withSign (minus sign) 0).toModel.unpack = .zero sign := by
  cases sign with
  | positive => exact unpack_zero
  | negative =>
    change (-0 : Float).toModel.unpack = _
    rw [unpack_neg, unpack_zero]
    exact unpack_pack_zero _

end ReplyFlow.Decimal
