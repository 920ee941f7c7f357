/-! Equality of binary64 numbers.

A number need not equal itself, so this is no equivalence. It is still symmetric and transitive.
-/

set_option autoImplicit false

namespace ReplyFlow.Decimal

open Float.Model

/-- Both are one number; nothing that is undefined is a number, and both zeros are one. -/
inductive SameNumber : UnpackedFloat → UnpackedFloat → Prop where
  | infinity (sign : UnpackedFloat.Sign) : SameNumber (.infinity sign) (.infinity sign)
  | zero (sign other : UnpackedFloat.Sign) : SameNumber (.zero sign) (.zero other)
  | finite (sign : UnpackedFloat.Sign) (mantissa : Nat) (exponent : Int) (positive : 0 < mantissa) :
    SameNumber (.finite sign mantissa exponent positive) (.finite sign mantissa exponent positive)

theorem SameNumber.symm {a b : UnpackedFloat} (same : SameNumber a b) : SameNumber b a := by
  cases same with
  | infinity => exact .infinity _
  | zero => exact .zero _ _
  | finite => exact .finite _ _ _ _

theorem SameNumber.trans {a b c : UnpackedFloat} (first : SameNumber a b)
    (second : SameNumber b c) : SameNumber a c := by
  cases first with
  | infinity => exact second
  | zero =>
    cases second with
    | zero => exact .zero _ _
  | finite => exact second

theorem compare_infinity {sign other : UnpackedFloat.Sign} :
    UnpackedFloat.compare (.infinity sign) (.infinity other) = some .eq ↔ sign = other := by
  change some (compare sign other) = some .eq ↔ _
  cases sign <;> cases other <;> simp <;> rfl

theorem compare_finite {sign other : UnpackedFloat.Sign} {m n : Nat} {e f : Int}
    {mPositive : 0 < m} {nPositive : 0 < n} :
    UnpackedFloat.compare (.finite sign m e mPositive) (.finite other n f nPositive) = some .eq ↔
      sign = other ∧ m = n ∧ e = f := by
  cases sign with
  | negative =>
    cases other with
    | negative =>
      change some ((compare e f).then (compare m n)).swap = some .eq ↔ _
      simp [Ordering.then_eq_eq, and_comm]
    | positive => exact iff_of_false nofun nofun
  | positive =>
    cases other with
    | negative => exact iff_of_false nofun nofun
    | positive =>
      change some ((compare e f).then (compare m n)) = some .eq ↔ _
      simp [Ordering.then_eq_eq, and_comm]

theorem compare_eq_iff {a b : UnpackedFloat} : a.compare b = some .eq ↔ SameNumber a b := by
  constructor
  · intro same
    cases a with
    | notANumber => cases same
    | infinity sign =>
      cases b with
      | infinity other =>
        rw [compare_infinity.mp same]
        exact .infinity other
      | notANumber | zero | finite => cases sign <;> cases same
    | zero sign =>
      cases b with
      | zero other => exact .zero sign other
      | notANumber => cases same
      | infinity other | finite other => cases other <;> cases same
    | finite sign =>
      cases b with
      | finite other =>
        obtain ⟨rfl, rfl, rfl⟩ := compare_finite.mp same
        exact .finite _ _ _ _
      | infinity other => cases sign <;> cases other <;> cases same
      | notANumber | zero => cases sign <;> cases same
  · intro same
    cases same with
    | infinity => exact compare_infinity.mpr rfl
    | zero => rfl
    | finite => exact compare_finite.mpr ⟨rfl, rfl, rfl⟩

theorem beq_iff {a b : Float} : a == b ↔ SameNumber a.toModel.unpack b.toModel.unpack := by
  rw [← compare_eq_iff]
  change (UnpackedFloat.compare _ _ == some Ordering.eq) = true ↔ _
  rw [beq_iff_eq]

instance partialEquivBEq : PartialEquivBEq Float where
  symm same := beq_iff.mpr (beq_iff.mp same).symm
  trans first second := beq_iff.mpr ((beq_iff.mp first).trans (beq_iff.mp second))

end ReplyFlow.Decimal
