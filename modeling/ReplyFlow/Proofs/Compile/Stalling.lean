import ReplyFlow.Proofs.Compile.Integrity
import ReplyFlow.Proofs.Decimal.Sums

/-! The search for a free row, in binary64 arithmetic.

A row that is taken may be so great that the spacing does not change it. The search stays there and
never ends, and this is the only way for it not to end. A conversation that is drawn with so small a
spacing is never finished.
-/

set_option autoImplicit false

namespace ReplyFlow

namespace Grid

section
variable {α : Type} [Coordinate α]

/-- The row so many steps further down. -/
def rowAfter (grid : Grid α) (row : α) : Nat → α
  | 0 => row
  | steps + 1 => grid.rowAfter row steps + grid.branchSpacing

variable (grid : Grid α)

theorem rowAfter_rowAfter (row : α) (first second : Nat) :
    grid.rowAfter (grid.rowAfter row first) second = grid.rowAfter row (first + second) := by
  induction second with
  | zero => rfl
  | succ second ih => rw [rowAfter, ih, ← Nat.add_assoc, rowAfter]

/-- One step first, and then the others. -/
theorem rowAfter_spacing (row : α) (steps : Nat) :
    grid.rowAfter (row + grid.branchSpacing) steps = grid.rowAfter row (steps + 1) := by
  rw [Nat.add_comm]
  exact grid.rowAfter_rowAfter row 1 steps

variable (columns : List α) (occupied : List (Slot α))

/-- So many rows are taken, from this one downwards. -/
def TakenFor (row : α) (rows : Nat) : Prop :=
  ∀ steps < rows, isTaken columns occupied (grid.rowAfter row steps)

/-- The search comes to a taken row that the spacing does not change. -/
def StallsAt (row : α) (steps : Nat) : Prop :=
  grid.TakenFor columns occupied row (steps + 1) ∧
    grid.rowAfter row (steps + 1) == grid.rowAfter row steps

/-- The first free row is so many steps away. -/
def FreeAt (row : α) (steps : Nat) : Prop :=
  grid.TakenFor columns occupied row steps ∧
    isTaken columns occupied (grid.rowAfter row steps) = false

variable {grid columns occupied} {row : α} {rows steps : Nat}

theorem TakenFor.succ (taken : isTaken columns occupied row)
    (rest : grid.TakenFor columns occupied (row + grid.branchSpacing) rows) :
    grid.TakenFor columns occupied row (rows + 1) := by
  intro steps bound
  cases steps with
  | zero => exact taken
  | succ steps =>
    rw [← rowAfter_spacing]
    exact rest steps (by omega)

theorem FreeAt.unique {other : Nat} (first : grid.FreeAt columns occupied row steps)
    (second : grid.FreeAt columns occupied row other) : steps = other := by
  rcases Nat.lt_trichotomy steps other with less | same | more
  · exact absurd (second.1 steps less) (by simp [first.2])
  · exact same
  · exact absurd (first.1 other more) (by simp [second.2])

/-- All that a search of so many rows can come to. -/
theorem searchRow_cases (rows : Nat) (row : α) :
    (∃ steps, grid.FreeAt columns occupied row steps ∧
      grid.searchRow columns occupied rows row = some (grid.rowAfter row steps)) ∨
    grid.searchRow columns occupied rows row = none ∧
      ((∃ steps, grid.StallsAt columns occupied row steps) ∨
        grid.TakenFor columns occupied row rows) := by
  -- on the bound, for every row: what the search of the rows below comes to is one step further away
  induction rows generalizing row with
  | zero => exact .inr ⟨rfl, .inr fun _ bound => absurd bound (Nat.not_lt_zero _)⟩
  | succ rows ih =>
    rw [searchRow]
    split
    · next taken =>
      simp only
      split
      · next still =>
        refine .inr ⟨rfl, .inl ⟨0, fun steps bound => ?_, still⟩⟩
        rw [Nat.lt_one_iff.mp bound]
        exact taken
      · rcases ih (row + grid.branchSpacing) with ⟨steps, ⟨before, free⟩, found⟩
          | ⟨lost, ⟨steps, before, still⟩ | rest⟩
        · rw [rowAfter_spacing] at free found
          exact .inl ⟨steps + 1, ⟨before.succ taken, free⟩, found⟩
        · rw [rowAfter_spacing, rowAfter_spacing] at still
          exact .inr ⟨lost, .inl ⟨steps + 1, before.succ taken, still⟩⟩
        · exact .inr ⟨lost, .inr (rest.succ taken)⟩
    · next free =>
      exact .inl ⟨0, ⟨fun _ bound => absurd bound (Nat.not_lt_zero _), eq_false_of_ne_true free⟩,
        rfl⟩

end

/-! ### Binary64 rows -/

open Decimal Float.Model

theorem le_iff {x y : Float} : x ≤ y ↔ x.toModel.unpack.le y.toModel.unpack = true := by
  change decide (x.toModel ≤ y.toModel) = true ↔ _
  rw [decide_eq_true_iff]
  rfl

theorem unpack_ofInt_zero : (Decimal.ofInt 0).toModel.unpack = .zero .positive := by
  have bits : Decimal.ofInt 0 = Float.ofBits 0 := by decide +kernel
  rw [bits]
  rfl

/-- The check of a spacing leaves the positive ones, and what is no number. -/
theorem undefined_or_positive (grid : Grid Float) :
    grid.branchSpacing.toModel.unpack = .notANumber ∨
      Positive grid.branchSpacing.toModel.unpack := by
  have spaced : decide (grid.branchSpacing ≤ Decimal.ofInt 0) = false :=
    (Bool.or_eq_false_iff.mp grid.spaced).2
  have above := of_decide_eq_false spaced
  rw [le_iff, unpack_ofInt_zero] at above
  have stored := stored_unpack grid.branchSpacing
  generalize grid.branchSpacing.toModel.unpack = spacing at above stored ⊢
  cases stored with
  | undefined => exact .inl rfl
  | infinity sign =>
    cases sign with
    | negative => exact absurd rfl above
    | positive => exact .inr .infinity
  | zero sign => exact absurd rfl above
  | @finite sign m e some canonical =>
    cases sign with
    | negative => exact absurd rfl above
    | positive =>
      obtain ⟨power, -, -, -, value⟩ := exists_units canonical
      refine .inr (.finite canonical ?_)
      rw [value]
      exact Int.natCast_pos.mpr (Nat.mul_pos some (Nat.two_pow_pos power))

/-- Only finite numbers are rounded. -/
theorem toThousandth_of_not_isFinite {x : Float} (unbounded : ¬ x.isFinite) :
    Decimal.toThousandth x = x := by
  have unbounded : ¬ x.toModel.unpack.isFinite := unbounded
  have stored := stored_unpack x
  generalize form : x.toModel.unpack = number at stored unbounded
  cases stored with
  | undefined =>
    have only : x = Float.ofBits 0x7ff8000000000000 := eq_of_unpack form
    rw [only]
    decide +kernel
  | infinity sign =>
    cases sign with
    | positive =>
      have only : x = Float.ofBits 0x7ff0000000000000 := eq_of_unpack form
      rw [only]
      decide +kernel
    | negative =>
      have only : x = Float.ofBits 0xfff0000000000000 := eq_of_unpack form
      rw [only]
      decide +kernel
  | zero | finite => exact absurd rfl unbounded

variable {grid : Grid Float} {columns : List Float} {occupied : List (Slot Float)} {row : Float}

theorem exists_slot_of_isTaken (taken : isTaken columns occupied row) :
    ∃ slot ∈ occupied, SameNumber (Decimal.toThousandth row).toModel.unpack slot.y.toModel.unpack := by
  obtain ⟨x, -, within⟩ := List.any_eq_true.mp taken
  obtain ⟨slot, member, same⟩ := List.contains_iff_exists_mem_beq.mp within
  exact ⟨slot, member, beq_iff.mp (Slot.beq_iff.mp same).2⟩

/-- What is no number is in no slot. -/
theorem defined_of_isTaken (taken : isTaken columns occupied row) :
    row.toModel.unpack ≠ .notANumber := by
  intro undefined
  have unbounded : ¬ row.toModel.unpack.isFinite := by
    rw [undefined]
    nofun
  obtain ⟨slot, -, same⟩ := exists_slot_of_isTaken taken
  rw [toThousandth_of_not_isFinite unbounded, undefined] at same
  nomatch same

/-- What is in a finite slot is finite. -/
theorem isFinite_of_isTaken (slots : ∀ slot ∈ occupied, slot.y.isFinite)
    (taken : isTaken columns occupied row) : row.isFinite := by
  by_contra unbounded
  obtain ⟨slot, member, same⟩ := exists_slot_of_isTaken taken
  rw [toThousandth_of_not_isFinite unbounded] at same
  have finite : slot.y.toModel.unpack.isFinite := slots slot member
  have unbounded : ¬ row.toModel.unpack.isFinite := unbounded
  generalize row.toModel.unpack = number at same unbounded
  generalize slot.y.toModel.unpack = bound at same finite
  cases same with
  | infinity => cases finite
  | zero | finite => exact unbounded rfl

theorem spacing_ne_zero (grid : Grid Float) (sign : UnpackedFloat.Sign) :
    grid.branchSpacing.toModel.unpack ≠ .zero sign := by
  intro zero
  rcases undefined_or_positive grid with undefined | positive
  · rw [undefined] at zero
    cases zero
  · rw [zero] at positive
    nomatch positive

theorem TakenFor.of_stallsAt {steps : Nat} (stalls : grid.StallsAt columns occupied row steps)
    (rows : Nat) : grid.TakenFor columns occupied row rows := by
  obtain ⟨taken, still⟩ := stalls
  have same := add_eq_of_beq grid.spacing_ne_zero still
  -- all rows from the stall onwards are one
  have stays (more : Nat) : grid.rowAfter row (steps + more) = grid.rowAfter row steps := by
    induction more with
    | zero => rfl
    | succ more ih =>
      rw [← Nat.add_assoc, rowAfter, ih]
      exact same
  intro other _
  by_cases before : other < steps + 1
  · exact taken other before
  · obtain ⟨more, rfl⟩ := Nat.exists_eq_add_of_le (Nat.le_of_lt_succ (by omega : steps < other + 1))
    rw [stays]
    exact taken steps (Nat.lt_succ_self _)

/-- There are fewer numbers than rows in a run that long, so one of them comes again. -/
theorem exists_repeat (grid : Grid Float) (row : Float) :
    ∃ first second, first < second ∧ second ≤ 2 ^ 64 ∧
      grid.rowAfter row first = grid.rowAfter row second := by
  have fewer : (Finset.range (2 ^ 64)).card < (Finset.range (2 ^ 64 + 1)).card := by
    rw [Finset.card_range, Finset.card_range]
    exact Nat.lt_succ_self _
  obtain ⟨first, low, second, high, apart, same⟩ :=
    Finset.exists_ne_map_eq_of_card_lt_of_maps_to fewer
      fun steps _ => Finset.mem_coe.mpr (Finset.mem_range.mpr (grid.rowAfter row steps).toBits.toNat_lt)
  have equal := Float.toBits_inj.mp (UInt64.toNat_inj.mp same)
  rw [Finset.mem_range, Nat.lt_succ_iff] at low high
  rcases Nat.lt_or_gt_of_ne apart with less | more
  · exact ⟨first, second, less, high, equal⟩
  · exact ⟨second, first, more, low, equal.symm⟩

/-- Rows never go back, so between a row and its return they all are one. -/
theorem exists_stallsAt (taken : grid.TakenFor columns occupied row (2 ^ 64)) :
    ∃ steps, grid.StallsAt columns occupied row steps := by
  obtain ⟨first, second, less, bound, same⟩ := grid.exists_repeat row
  let value (steps : Nat) := (grid.rowAfter row steps).toModel.unpack
  have number (steps : Nat) (inside : steps ≤ second) : value steps ≠ .notANumber := by
    rcases Nat.lt_or_eq_of_le inside with before | last
    · exact defined_of_isTaken (taken steps (Nat.lt_of_lt_of_le before bound))
    · have start := defined_of_isTaken (taken first (by omega))
      rw [same, ← last] at start
      exact start
  have positive : Positive grid.branchSpacing.toModel.unpack := by
    rcases undefined_or_positive grid with undefined | positive
    · exact absurd (unpack_add_undefined undefined) (number (first + 1) less)
    · exact positive
  have grows (steps : Nat) (inside : steps < second) : rank (value steps) ≤ rank (value (steps + 1)) :=
    rank_le_add (number steps inside.le) positive
  -- from the row after `first` on, ranks only grow until they are back at that of `first`
  have climbs (steps : Nat) (after : first + 1 ≤ steps) (inside : steps ≤ second) :
      rank (value (first + 1)) ≤ rank (value steps) := by
    induction steps, after using Nat.le_induction with
    | base => exact le_rfl
    | succ steps after ih => exact (ih (by omega)).trans (grows steps inside)
  have still : rank (value (first + 1)) = rank (value first) := by
    apply le_antisymm _ (grows first less)
    have back := climbs second less le_rfl
    have returns : value second = value first := congrArg (fun x : Float => x.toModel.unpack) same.symm
    rwa [returns] at back
  refine ⟨first, fun steps before => taken steps (by omega), beq_iff.mpr ?_⟩
  exact sameNumber_of_rank (stored_unpack _) (stored_unpack _) (number _ less)
    (number _ less.le) still

/-- A stall is the only way for all rows to be taken. -/
theorem exists_stallsAt_iff : (∃ steps, grid.StallsAt columns occupied row steps) ↔
    ∀ steps, isTaken columns occupied (grid.rowAfter row steps) := by
  constructor
  · rintro ⟨_, stalls⟩ steps
    exact TakenFor.of_stallsAt stalls (steps + 1) steps (Nat.lt_succ_self _)
  · exact fun taken => exists_stallsAt fun steps _ => taken steps

theorem freeRow_cases (grid : Grid Float) (row : Float) (columns : List Float)
    (occupied : List (Slot Float)) :
    (∃ steps, grid.FreeAt columns occupied row steps ∧
      grid.freeRow? row columns occupied = some (grid.rowAfter row steps)) ∨
    (∃ steps, grid.StallsAt columns occupied row steps) ∧
      grid.freeRow? row columns occupied = none := by
  rcases grid.searchRow_cases (2 ^ 64) row with ended | ⟨lost, stalls | taken⟩
  · exact .inl ended
  · exact .inr ⟨stalls, lost⟩
  · exact .inr ⟨exists_stallsAt taken, lost⟩

theorem freeRow_eq_none_iff : grid.freeRow? row columns occupied = none ↔
    ∀ steps, isTaken columns occupied (grid.rowAfter row steps) := by
  constructor
  · intro lost
    rcases grid.freeRow_cases row columns occupied with ⟨_, _, ended⟩ | ⟨stalls, _⟩
    · cases ended.symm.trans lost
    · exact exists_stallsAt_iff.mp stalls
  · intro taken
    rcases grid.freeRow_cases row columns occupied with ⟨steps, free, _⟩ | ⟨_, lost⟩
    · cases free.2.symm.trans (taken steps)
    · exact lost

theorem freeRow_eq_some_iff {found : Float} : grid.freeRow? row columns occupied = some found ↔
    ∃ steps, grid.FreeAt columns occupied row steps ∧ found = grid.rowAfter row steps := by
  constructor
  · intro success
    rcases grid.freeRow_cases row columns occupied with ⟨steps, free, ended⟩ | ⟨_, lost⟩
    · exact ⟨steps, free, Option.some.inj (success.symm.trans ended)⟩
    · cases success.symm.trans lost
  · rintro ⟨steps, free, rfl⟩
    rcases grid.freeRow_cases row columns occupied with ⟨first, least, ended⟩ | ⟨stalls, _⟩
    · rwa [free.unique least]
    · cases free.2.symm.trans (exists_stallsAt_iff.mp stalls steps)

theorem value_pos_of_isFinite (finite : grid.branchSpacing.isFinite) :
    0 < value grid.branchSpacing := by
  have canonical := canonical_of_isFinite finite
  have scale : (0 : ℚ) < 2 ^ 1074 := by positivity
  rw [value, div_pos_iff_of_pos_right scale, Int.cast_pos]
  rcases undefined_or_positive grid with undefined | positive
  · rw [undefined] at canonical
    cases canonical
  · generalize grid.branchSpacing.toModel.unpack = spacing at canonical positive ⊢
    cases positive with
    | infinity => cases canonical
    | finite _ positive => exact positive

/-- Where all taken rows are near enough, the search ends. -/
theorem exists_freeRow_of_near (finite : grid.branchSpacing.isFinite)
    (slots : ∀ slot ∈ occupied, slot.y.isFinite)
    (near : ∀ y, isTaken columns occupied y → |value y| < 2 ^ 53 * value grid.branchSpacing) :
    ∃ found, grid.freeRow? row columns occupied = some found := by
  rcases grid.freeRow_cases row columns occupied with ⟨steps, _, ended⟩ | ⟨⟨steps, taken, still⟩, _⟩
  · exact ⟨_, ended⟩
  · have last := taken steps (Nat.lt_succ_self _)
    have bounded := isFinite_of_isTaken slots last
    have great := (still_iff_of_isFinite bounded finite (value_pos_of_isFinite finite)).1 still
    exact absurd (near _ last) (not_lt.mpr great)

/-- The search ends with the first free row, unless it comes to a taken row that the spacing does not
change and never ends. Such a row is at least `2 ^ 53` times as great as the spacing; any row of
more than `2 ^ 54` times the spacing is one. -/
theorem freeRow_ends_or_stalls (grid : Grid Float) (row : Float) (columns : List Float)
    (occupied : List (Slot Float)) :
    (∀ found, grid.freeRow? row columns occupied = some found ↔
      ∃ steps, grid.FreeAt columns occupied row steps ∧ found = grid.rowAfter row steps) ∧
    (grid.freeRow? row columns occupied = none ↔
      ∀ steps, isTaken columns occupied (grid.rowAfter row steps)) ∧
    ((∀ steps, isTaken columns occupied (grid.rowAfter row steps)) ↔
      ∃ steps, grid.StallsAt columns occupied row steps) ∧
    (grid.branchSpacing.isFinite →
      (∀ y : Float, y.isFinite →
        (y + grid.branchSpacing == y → 2 ^ 53 * value grid.branchSpacing ≤ |value y|) ∧
        (2 ^ 54 * value grid.branchSpacing < |value y| → y + grid.branchSpacing == y)) ∧
      ((∀ slot ∈ occupied, slot.y.isFinite) →
        (∀ y, isTaken columns occupied y → |value y| < 2 ^ 53 * value grid.branchSpacing) →
          ∃ found, grid.freeRow? row columns occupied = some found)) := by
  refine ⟨fun _ => freeRow_eq_some_iff, freeRow_eq_none_iff, exists_stallsAt_iff.symm,
    fun finite => ⟨fun y bounded => ?_, exists_freeRow_of_near finite⟩⟩
  exact still_iff_of_isFinite bounded finite (value_pos_of_isFinite finite)

end Grid

namespace Samples

/-- Rows so close together that no sum tells them apart. -/
def faint : Compiler Float :=
  { shallow with grid := ⟨200, 1e-20, ⟨100, 300⟩, by decide +kernel⟩ }

theorem stallsAt_faint : faint.grid.StallsAt [700] [⟨700, 300⟩] 300 0 := by
  refine ⟨fun steps bound => ?_, by decide +kernel⟩
  rw [Nat.lt_one_iff.mp bound]
  decide +kernel

end Samples

/-- Not every search from a finite row ends, and a conversation with two branches is never
finished. -/
theorem Grid.not_forall_ends_faint :
    (¬ ∀ (grid : Grid Float) (row : Float) (columns : List Float) (occupied : List (Slot Float)),
      grid.branchSpacing.isFinite → row.isFinite → (∀ x ∈ columns, x.isFinite) →
        (∀ slot ∈ occupied, slot.x.isFinite ∧ slot.y.isFinite) →
          ∃ steps, grid.FreeAt columns occupied row steps) ∧
    Samples.faint.compile Samples.detour = .error .noFreeRow := by
  refine ⟨fun ends => ?_, by decide +kernel⟩
  obtain ⟨steps, _, free⟩ := ends Samples.faint.grid 300 [700] [⟨700, 300⟩] (by decide +kernel)
    (by decide +kernel) (by decide +kernel) (by decide +kernel)
  have taken := exists_stallsAt_iff.mp ⟨0, Samples.stallsAt_faint⟩ steps
  cases free.symm.trans taken

end ReplyFlow
