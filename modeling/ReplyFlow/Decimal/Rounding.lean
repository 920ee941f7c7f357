/-! Rounding a quotient to a whole number, a tie going to the even neighbour. -/

set_option autoImplicit false

namespace ReplyFlow.Decimal

/-- The whole number nearest to `num / den`; of two equally near ones the even one. -/
def nearestEven (num den : Nat) : Nat :=
  let low := num / den
  let twice := 2 * (num % den)
  if twice < den then low
  else if den < twice then low + 1
  else if low % 2 = 0 then low
  else low + 1

theorem nearestEven_cases (num den : Nat) :
    (nearestEven num den = num / den ∧ 2 * (num % den) ≤ den) ∨
      (nearestEven num den = num / den + 1 ∧ den ≤ 2 * (num % den)) := by
  unfold nearestEven
  simp only
  split
  · exact .inl ⟨rfl, by omega⟩
  · split
    · exact .inr ⟨rfl, by omega⟩
    · split
      · exact .inl ⟨rfl, by omega⟩
      · exact .inr ⟨rfl, by omega⟩

/-- Nothing is lost on a quotient that is whole. -/
theorem nearestEven_of_dvd {num den : Nat} (positive : 0 < den) (whole : num % den = 0) :
    nearestEven num den = num / den := by
  simp [nearestEven, whole, positive]

/-- The rounded quotient is off by half the divisor at most. -/
theorem nearestEven_error (num : Nat) {den : Nat} (positive : 0 < den) :
    2 * num ≤ 2 * (nearestEven num den * den) + den ∧
      2 * (nearestEven num den * den) ≤ 2 * num + den := by
  have parts := Nat.div_add_mod num den
  have inside := Nat.mod_lt num positive
  rw [Nat.mul_comm] at parts
  rcases nearestEven_cases num den with ⟨down, near⟩ | ⟨up, near⟩
  · rw [down]
    omega
  · rw [up, Nat.add_one_mul (num / den)]
    omega

end ReplyFlow.Decimal
