import Mathlib.Algebra.Order.Field.Basic
import Mathlib.Algebra.Order.Field.Rat
import Mathlib.Data.Rat.Sqrt
import Mathlib.Tactic.FieldSimp
import Mathlib.Tactic.Linarith
import Mathlib.Tactic.LinearCombination
import ReplyFlow.Layout.Grid
import ReplyFlow.Proofs.Decimal.Rounding

/-! Exact coordinates.

Rational numbers are placed and rounded by the same rules as binary64 numbers, but without any
error of arithmetic.
-/

set_option autoImplicit false

namespace ReplyFlow

namespace Decimal

/-- The multiple of a thousandth nearest to `x`; of two equally near ones the even one. -/
def thousandth (x : ℚ) : ℚ :=
  x.num.sign * (nearestEven (1000 * x.num.natAbs) x.den / 1000)

theorem thousandth_error (x : ℚ) : |thousandth x - x| ≤ 1 / 2000 := by
  have value : x = x.num.sign * (x.num.natAbs / x.den) := by
    rw [← mul_div_assoc, ← Int.cast_natCast, ← Int.cast_mul, Int.sign_mul_natAbs, Rat.num_div_den]
  have bound : |(x.num.sign : ℚ)| ≤ 1 := by
    rcases Int.sign_trichotomy x.num with same | same | same <;> simp [same]
  have near := nearestEven_near (1000 * x.num.natAbs) x.den_pos
  have scaled : thousandth x - x = x.num.sign * (nearestEven (1000 * x.num.natAbs) x.den
      - (1000 * x.num.natAbs : ℕ) / x.den) / 1000 := by
    rw [thousandth]
    push_cast
    linear_combination -value
  calc |thousandth x - x|
      = |(x.num.sign : ℚ)| * |(nearestEven (1000 * x.num.natAbs) x.den
          - (1000 * x.num.natAbs : ℕ) / x.den : ℚ)| / 1000 := by
        rw [scaled, abs_div, abs_mul, abs_of_pos (by norm_num : (0 : ℚ) < 1000)]
    _ ≤ 1 * (1 / 2) / 1000 := by gcongr
    _ = 1 / 2000 := by norm_num

/-- Numbers that are more than a thousandth apart are not rounded to the same one. -/
theorem thousandth_ne_of_lt {x y : ℚ} (wide : x + 1 / 1000 < y) : thousandth x ≠ thousandth y := by
  intro same
  have left := (abs_le.mp (thousandth_error x)).2
  have right := (abs_le.mp (thousandth_error y)).1
  rw [same] at left
  linarith

end Decimal

/-- One slot takes a row no higher than a thousandth. That many rows are met by it, so many slots
take no more than the product of the two, and one row more is free. -/
instance : Coordinate ℚ where
  ofInt n := n
  half n := n / 2
  isFinite _ := true
  lt a b := a < b
  le a b := a ≤ b
  toThousandth := Decimal.thousandth
  root := Rat.sqrt
  rowBound spacing occupied := occupied * ((1 / (1000 * spacing)).floor.toNat + 1) + 1

namespace Coordinate

theorem le_foldl (numbers : List ℚ) (best : ℚ) :
    best ≤ numbers.foldl (fun best x => if lt best x then x else best) best ∧
      ∀ x ∈ numbers, x ≤ numbers.foldl (fun best x => if lt best x then x else best) best := by
  induction numbers generalizing best with
  | nil => exact ⟨le_refl _, nofun⟩
  | cons first rest ih =>
    obtain ⟨start, others⟩ := ih (if lt best first then first else best)
    have grown : best ≤ (if lt best first then first else best) ∧
        first ≤ (if lt best first then first else best) := by
      split
      next less => exact ⟨(of_decide_eq_true less).le, le_refl _⟩
      next more => exact ⟨le_refl _, not_lt.mp (mt decide_eq_true more)⟩
    exact ⟨grown.1.trans start, List.forall_mem_cons.mpr ⟨grown.2.trans start, others⟩⟩

theorem le_maximum {numbers : List ℚ} {x : ℚ} (member : x ∈ numbers) : x ≤ maximum numbers := by
  cases numbers with
  | nil => cases member
  | cons first rest =>
    obtain ⟨start, others⟩ := le_foldl rest first
    rcases List.mem_cons.mp member with rfl | later
    · exact start
    · exact others x later

end Coordinate

end ReplyFlow
