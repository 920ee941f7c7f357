import Mathlib.Algebra.Order.BigOperators.Group.Finset
import Mathlib.Data.Finset.Card
import Mathlib.Data.Int.Order.Lemmas
import Mathlib.Data.Finset.Max
import Mathlib.Data.Rat.Floor
import Mathlib.Order.Interval.Finset.Nat
import Mathlib.Order.Bounds.Basic
import Mathlib.Tactic.Ring
import ReplyFlow.Proofs.Layout.Exact

/-! The search for a free row, in exact arithmetic.

Finitely many slots cannot take all rows of a progression, so the search ends, and it ends on the
first row that is free. How many rows one slot takes depends on how close the rows are: where they
are more than a thousandth apart it takes no more than one.
-/

set_option autoImplicit false

namespace ReplyFlow

namespace Decimal

/-- `rounded` is `x` with three decimals; of two equally near numbers it is the one whose last
digit is even. -/
def Rounds (x rounded : ℚ) : Prop :=
  ∃ n : ℤ, rounded = n / 1000 ∧ (|1000 * x - n| < 1 / 2 ∨ |1000 * x - n| = 1 / 2 ∧ Even n)

theorem rounds_thousandth (x : ℚ) : Rounds x (thousandth x) := by
  let nearest := nearestEven (1000 * x.num.natAbs) x.den
  refine ⟨x.num.sign * nearest, by rw [thousandth]; push_cast; ring, ?_⟩
  by_cases zero : x.num = 0
  · have still : x = 0 := Rat.zero_of_num_zero zero
    left
    simp [still]
  -- sign and size are rounded apart, and a sign changes neither distance nor parity
  · have unit : |(x.num.sign : ℚ)| = 1 := by
      rw [← Int.cast_abs, Int.abs_sign_of_ne_zero zero, Int.cast_one]
    have parts : x = x.num.sign * (x.num.natAbs / x.den) := by
      rw [← mul_div_assoc, ← Int.cast_natCast, ← Int.cast_mul, Int.sign_mul_natAbs,
        Rat.num_div_den]
    have scaled : 1000 * x - (x.num.sign * nearest : ℤ)
        = x.num.sign * ((1000 * x.num.natAbs : ℕ) / x.den - nearest) := by
      push_cast
      linear_combination 1000 * parts
    rw [scaled, abs_mul, unit, one_mul]
    exact (nearestEven_nearest _ x.den_pos).imp_right (.imp_right fun even => even.mul_left _)

/-- There is one way to round. -/
theorem rounds_iff {x rounded : ℚ} : Rounds x rounded ↔ thousandth x = rounded := by
  constructor
  · rintro ⟨n, rfl, near⟩
    obtain ⟨m, same, nearest⟩ := rounds_thousandth x
    have apart : |(m - n : ℚ)| ≤ |1000 * x - m| + |1000 * x - n| := by
      rw [abs_sub_comm (1000 * x) m, ← sub_add_sub_cancel (m : ℚ) (1000 * x) n]
      exact abs_add_le _ _
    have close (less : |1000 * x - m| + |1000 * x - n| < 1) : m = n := by
      have below : |m - n| < 1 := by exact_mod_cast apart.trans_lt less
      exact sub_eq_zero.mp (Int.abs_lt_one_iff.mp below)
    have equal : m = n := by
      rcases nearest, near with ⟨left | ⟨left, even⟩, right | ⟨right, evenOther⟩⟩
      · exact close (by linarith)
      · exact close (by linarith)
      · exact close (by linarith)
      -- between two ties there is one odd number, and no even one
      · have beside : |(m - n : ℚ)| ≤ 1 := by linarith
        have beside : |m - n| ≤ 1 := by exact_mod_cast beside
        obtain ⟨k, half⟩ := even.sub evenOther
        rw [abs_le] at beside
        omega
    rw [same, equal]
  · rintro rfl
    exact rounds_thousandth x

end Decimal

instance : LawfulBEq (Slot ℚ) where
  eq_of_beq {a b} same := by
    obtain ⟨columns, rows⟩ := Slot.beq_iff.mp same
    cases a
    cases b
    exact congr (congrArg Slot.mk (eq_of_beq columns)) (eq_of_beq rows)
  rfl := Slot.beq_iff.mpr ⟨beq_self_eq_true _, beq_self_eq_true _⟩

instance : DecidableEq (Slot ℚ) := fun a b => decidable_of_iff (a == b) beq_iff_eq

/-- A node at this position takes the slot. -/
def Slot.Covers (slot : Slot ℚ) (position : Position ℚ) : Prop :=
  Decimal.Rounds position.x slot.x ∧ Decimal.Rounds position.y slot.y

theorem Slot.covers_iff {slot : Slot ℚ} {position : Position ℚ} :
    slot.Covers position ↔ position.slot = slot := by
  rw [Covers, Decimal.rounds_iff, Decimal.rounds_iff, Position.slot, ← Slot.mk.injEq]
  rfl

namespace Grid

variable {grid : Grid ℚ} {columns : List ℚ} {occupied : List (Slot ℚ)} {row : ℚ}

/-- Some column is taken on this row. -/
def Blocked (columns : List ℚ) (occupied : List (Slot ℚ)) (row : ℚ) : Prop :=
  ∃ x ∈ columns, ∃ slot ∈ occupied, slot.Covers ⟨x, row⟩

theorem isTaken_iff : isTaken columns occupied row ↔ Blocked columns occupied row := by
  simp [isTaken, Blocked, Slot.covers_iff]

theorem spacing_pos (grid : Grid ℚ) : 0 < grid.levelSpacing ∧ 0 < grid.branchSpacing := by
  obtain ⟨level, branch⟩ := Bool.or_eq_false_iff.mp grid.spaced
  have level : ¬ grid.levelSpacing ≤ ((0 : ℤ) : ℚ) := of_decide_eq_false level
  have branch : ¬ grid.branchSpacing ≤ ((0 : ℤ) : ℚ) := of_decide_eq_false branch
  rw [Int.cast_zero, not_le] at level branch
  exact ⟨level, branch⟩

/-- A search goes on to the first row that is free, if it has that many rows left. -/
theorem searchRow_eq {rows k : ℕ} (within : k < rows)
    (taken : ∀ j < k, Blocked columns occupied (row + j * grid.branchSpacing))
    (free : ¬ Blocked columns occupied (row + k * grid.branchSpacing)) :
    grid.searchRow columns occupied rows row = some (row + k * grid.branchSpacing) := by
  induction k generalizing rows row with
  | zero =>
    obtain ⟨rows, rfl⟩ := Nat.exists_eq_add_of_lt within
    rw [Nat.cast_zero, zero_mul, add_zero] at free ⊢
    rw [searchRow, if_neg (isTaken_iff.not.mpr free)]
  | succ k ih =>
    obtain ⟨rows, rfl⟩ := Nat.exists_eq_add_of_lt within
    have next (j : ℕ) : row + (j + 1 : ℕ) * grid.branchSpacing
        = row + grid.branchSpacing + j * grid.branchSpacing := by
      push_cast
      ring
    have first : Blocked columns occupied row := by
      simpa using taken 0 (Nat.succ_pos k)
    have moves : ¬ (row + grid.branchSpacing == row) := by
      simpa using grid.spacing_pos.2.ne'
    rw [searchRow, if_pos (isTaken_iff.mpr first)]
    simp only [if_neg moves]
    rw [next] at free ⊢
    exact ih (by omega) (fun j less => next j ▸ taken (j + 1) (Nat.succ_lt_succ less)) free

/-- Only rows within a thousandth are rounded to one. -/
theorem card_rounded_le {spacing : ℚ} (positive : 0 < spacing) (row rounded : ℚ) (k : ℕ) :
    ((Finset.range k).filter fun j : ℕ =>
      Decimal.thousandth (row + j * spacing) = rounded).card ≤ ⌊1 / (1000 * spacing)⌋₊ + 1 := by
  let met := (Finset.range k).filter fun j : ℕ => Decimal.thousandth (row + j * spacing) = rounded
  change met.card ≤ _
  by_cases some : met.Nonempty
  · have inside : met ⊆ Finset.Icc (met.min' some) (met.min' some + ⌊1 / (1000 * spacing)⌋₊) := by
      intro j member
      have first := met.min'_le j member
      have same : Decimal.thousandth (row + (met.min' some : ℕ) * spacing)
          = Decimal.thousandth (row + j * spacing) :=
        (Finset.mem_filter.mp (met.min'_mem some)).2.trans (Finset.mem_filter.mp member).2.symm
      have close := not_lt.mp (mt Decimal.thousandth_ne_of_lt (not_ne_iff.mpr same))
      have steps : ((j - met.min' some : ℕ) : ℚ) ≤ 1 / (1000 * spacing) := by
        rw [Nat.cast_sub first, le_div_iff₀ (by positivity)]
        linarith
      have bound := Nat.le_floor steps
      exact Finset.mem_Icc.mpr ⟨first, by omega⟩
    calc met.card ≤ _ := Finset.card_le_card inside
      _ = ⌊1 / (1000 * spacing)⌋₊ + 1 := by
        rw [Nat.card_Icc]
        omega
  · rw [Finset.not_nonempty_iff_eq_empty.mp some, Finset.card_empty]
    exact Nat.zero_le _

/-- A run of rows that are all taken is bounded by the number of slots. -/
theorem le_of_blocked {k : ℕ}
    (taken : ∀ j < k, Blocked columns occupied (row + j * grid.branchSpacing)) :
    k ≤ (⌊1 / (1000 * grid.branchSpacing)⌋₊ + 1) * occupied.toFinset.card := by
  have met : ∀ j ∈ Finset.range k, Decimal.thousandth (row + j * grid.branchSpacing)
      ∈ occupied.toFinset.image Slot.y := by
    intro j member
    obtain ⟨x, _, slot, present, covers⟩ := taken j (Finset.mem_range.mp member)
    rw [Decimal.rounds_iff.mp covers.2]
    exact Finset.mem_image_of_mem _ (List.mem_toFinset.mpr present)
  calc k = (Finset.range k).card := (Finset.card_range k).symm
    _ ≤ (⌊1 / (1000 * grid.branchSpacing)⌋₊ + 1) * (occupied.toFinset.image Slot.y).card :=
      Finset.card_le_mul_card_image_of_maps_to met _ fun rounded _ =>
        card_rounded_le grid.spacing_pos.2 row rounded k
    _ ≤ _ := Nat.mul_le_mul_left _ Finset.card_image_le

/-- The search finds the first free row. -/
theorem exists_freeRow (grid : Grid ℚ) (row : ℚ) (columns : List ℚ) (occupied : List (Slot ℚ)) :
    ∃ k : ℕ, grid.freeRow? row columns occupied = some (row + k * grid.branchSpacing) ∧
      (∀ j < k, Blocked columns occupied (row + j * grid.branchSpacing)) ∧
      ¬ Blocked columns occupied (row + k * grid.branchSpacing) := by
  classical
  have free : ∃ k : ℕ, ¬ Blocked columns occupied (row + k * grid.branchSpacing) := by
    by_contra! none
    have bound := le_of_blocked (k := (⌊1 / (1000 * grid.branchSpacing)⌋₊ + 1)
      * occupied.toFinset.card + 1) fun j _ => none j
    omega
  have taken : ∀ j < Nat.find free, Blocked columns occupied (row + j * grid.branchSpacing) :=
    fun j less => not_not.mp (Nat.find_min free less)
  refine ⟨Nat.find free, searchRow_eq ?_ taken (Nat.find_spec free), taken, Nat.find_spec free⟩
  have slots : occupied.toFinset.card ≤ occupied.length := List.toFinset_card_le occupied
  calc Nat.find free
      ≤ (⌊1 / (1000 * grid.branchSpacing)⌋₊ + 1) * occupied.toFinset.card := le_of_blocked taken
    _ ≤ (⌊1 / (1000 * grid.branchSpacing)⌋₊ + 1) * occupied.length := Nat.mul_le_mul_left _ slots
    _ < Coordinate.rowBound grid.branchSpacing occupied.length := by
      rw [Nat.mul_comm, ← Int.floor_toNat]
      exact Nat.lt_succ_self _

theorem exists_freePosition (grid : Grid ℚ) (position : Position ℚ) (occupied : List (Slot ℚ)) :
    ∃ k : ℕ, grid.freePosition? position occupied =
        some ⟨position.x, position.y + k * grid.branchSpacing⟩ ∧
      (∀ j < k, ∃ slot ∈ occupied,
        slot.Covers ⟨position.x, position.y + j * grid.branchSpacing⟩) ∧
      ∀ slot ∈ occupied, ¬ slot.Covers ⟨position.x, position.y + k * grid.branchSpacing⟩ := by
  obtain ⟨k, found, taken, free⟩ := grid.exists_freeRow position.y [position.x] occupied
  simp only [Blocked, List.mem_singleton, exists_eq_left, not_exists, not_and] at taken free
  exact ⟨k, by rw [freePosition?, found]; rfl, taken, free⟩

/-- In exact arithmetic a search for a row ends on the first row of its progression that is free,
which is no further away than there are slots where the rows are more than a thousandth apart; and a
search for a place only moves what is taken. -/
theorem freeRow_least (grid : Grid ℚ) (row : ℚ) (columns : List ℚ) (occupied : List (Slot ℚ)) :
    (∃ k : ℕ, grid.freeRow? row columns occupied = some (row + k * grid.branchSpacing) ∧
      IsLeast {rows : ℕ | ¬ Blocked columns occupied (row + rows * grid.branchSpacing)} k ∧
      (1 / 1000 < grid.branchSpacing → k ≤ occupied.toFinset.card)) ∧
    ∀ position : Position ℚ, ∃ found, grid.freePosition? position occupied = some found ∧
      found.x = position.x ∧ (∀ slot ∈ occupied, ¬ slot.Covers found) ∧
      (found = position ↔ ∀ slot ∈ occupied, ¬ slot.Covers position) := by
  constructor
  · obtain ⟨k, found, taken, free⟩ := grid.exists_freeRow row columns occupied
    refine ⟨k, found, ⟨free, fun j vacant => ?_⟩, fun wide => ?_⟩
    · exact not_lt.mp fun less => vacant (taken j less)
    · have single : ⌊1 / (1000 * grid.branchSpacing)⌋₊ = 0 := by
        rw [Nat.floor_eq_zero, div_lt_one (by linarith)]
        linarith
      have bound := le_of_blocked taken
      rwa [single, Nat.zero_add, Nat.one_mul] at bound
  · intro position
    obtain ⟨k, found, taken, free⟩ := grid.exists_freePosition position occupied
    refine ⟨_, found, rfl, free, fun same => same ▸ free, fun vacant => ?_⟩
    -- what is free is found at once
    cases k with
    | zero => simp
    | succ k =>
      obtain ⟨slot, present, covers⟩ := taken 0 (Nat.succ_pos k)
      simp only [Nat.cast_zero, zero_mul, add_zero] at covers
      exact absurd covers (vacant slot present)

end Grid

namespace Samples

/-- A grid with whole distances. -/
def regular : Grid ℚ :=
  ⟨200, 100, ⟨0, 0⟩, by decide +kernel⟩

/-- A grid whose rows are a quarter of a thousandth apart. -/
def dense : Grid ℚ :=
  ⟨200, 1 / 4000, ⟨0, 0⟩, by decide +kernel⟩

/-- One slot takes three rows, the last of them by a tie. -/
example : dense.freeRow? 0 [0] [⟨0, 0⟩] = some (3 / 4000) := by decide +kernel

end Samples

theorem Grid.freeRow_least_regular :
    1 / 1000 < Samples.regular.branchSpacing ∧
      ∃ k : ℕ, Samples.regular.freeRow? 300 [300, 500] [⟨300, 300⟩, ⟨500, 400⟩] =
          some (300 + k * Samples.regular.branchSpacing) ∧
        k ≤ ([⟨300, 300⟩, ⟨500, 400⟩] : List (Slot ℚ)).toFinset.card := by
  have wide : 1 / 1000 < Samples.regular.branchSpacing := by decide +kernel
  obtain ⟨⟨k, found, _, bound⟩, _⟩ :=
    freeRow_least Samples.regular 300 [300, 500] [⟨300, 300⟩, ⟨500, 400⟩]
  exact ⟨wide, k, found, bound wide⟩

end ReplyFlow
