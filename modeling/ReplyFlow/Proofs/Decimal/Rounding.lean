import Mathlib.Algebra.Order.Field.Basic
import Mathlib.Algebra.Order.Field.Rat
import Mathlib.Data.Int.Order.Lemmas
import Mathlib.Tactic.Linarith
import Mathlib.Tactic.Ring
import ReplyFlow.Decimal.Rounding

/-! A rounded quotient beside the exact one. -/

set_option autoImplicit false

namespace ReplyFlow.Decimal

/-- The rounded quotient is nearer than half the divisor, or else it is even. -/
theorem nearestEven_tie (num : Nat) {den : Nat} (positive : 0 < den) :
    2 * |(num : ℤ) - nearestEven num den * den| < den ∨
      2 * |(num : ℤ) - nearestEven num den * den| = den ∧ Even (nearestEven num den : ℤ) := by
  have parts : (num : ℤ) = (num / den : ℕ) * den + (num % den : ℕ) := by
    exact_mod_cast (Nat.div_add_mod' num den).symm
  have inside : num % den < den := Nat.mod_lt num positive
  rw [nearestEven]
  generalize num / den = low at parts ⊢
  generalize num % den = left at parts inside ⊢
  have down : (num : ℤ) - low * den = left := by
    rw [parts]
    ring
  have up : (num : ℤ) - (low + 1 : ℕ) * den = left - den := by
    rw [parts]
    push_cast
    ring
  have below : |(left : ℤ)| = left := abs_of_nonneg (by omega)
  have above : |(left : ℤ) - den| = den - left := by
    rw [abs_of_nonpos (by omega)]
    ring
  split_ifs with less more even
  · rw [down, below]
    omega
  · rw [up, above]
    omega
  · rw [down, below]
    exact .inr ⟨by omega, by exact_mod_cast Nat.even_iff.mpr even⟩
  · rw [up, above]
    exact .inr ⟨by omega, by exact_mod_cast Nat.even_iff.mpr (by omega)⟩

theorem nearestEven_nearest (num : Nat) {den : Nat} (positive : 0 < den) :
    |(num / den : ℚ) - nearestEven num den| < 1 / 2 ∨
      |(num / den : ℚ) - nearestEven num den| = 1 / 2 ∧ Even (nearestEven num den : ℤ) := by
  have divisor : (0 : ℚ) < den := by exact_mod_cast positive
  have distance : |(num / den : ℚ) - nearestEven num den|
      = (|(num : ℤ) - nearestEven num den * den| : ℤ) / den := by
    rw [div_sub' divisor.ne', abs_div, abs_of_pos divisor, mul_comm]
    push_cast
    rfl
  have cases := nearestEven_tie num positive
  generalize |(num : ℤ) - nearestEven num den * den| = gap at distance cases
  rw [distance, div_lt_div_iff₀ divisor two_pos, div_eq_div_iff divisor.ne' two_ne_zero]
  rcases cases with near | ⟨tie, even⟩
  · have near : (2 * gap : ℚ) < den := by exact_mod_cast near
    exact .inl (by linarith)
  · have tie : (2 * gap : ℚ) = den := by exact_mod_cast tie
    exact .inr ⟨by linarith, even⟩

theorem nearestEven_near (num : Nat) {den : Nat} (positive : 0 < den) :
    |(nearestEven num den : ℚ) - num / den| ≤ 1 / 2 := by
  rw [abs_sub_comm]
  rcases nearestEven_nearest num positive with near | ⟨tie, _⟩
  · exact near.le
  · exact tie.le

/-- No other whole number is nearer. -/
theorem nearestEven_least (num : Nat) {den : Nat} (positive : 0 < den) (other : ℤ) :
    |(nearestEven num den : ℚ) - num / den| ≤ |(other : ℚ) - num / den| := by
  have half := nearestEven_near num positive
  generalize nearestEven num den = rounded at *
  by_cases same : other = rounded
  · rw [same, Int.cast_natCast]
  · have whole : 1 ≤ |(rounded : ℤ) - other| := Int.one_le_abs (sub_ne_zero.mpr (Ne.symm same))
    have apart : (1 : ℚ) ≤ |(rounded : ℚ) - other| := by exact_mod_cast whole
    have way := abs_sub_le (rounded : ℚ) (num / den) other
    rw [abs_sub_comm (num / den : ℚ)] at way
    linarith

end ReplyFlow.Decimal
