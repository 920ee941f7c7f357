import ReplyFlow.Canvas.Plan
import ReplyFlow.Proofs.Compile.Margins
import ReplyFlow.Proofs.Decimal.Whole

/-! What a canvas cuts off at its upper left corner.

The default rows are whole numbers, so a place above the canvas is never mistaken for one on it.
-/

set_option autoImplicit false

namespace ReplyFlow

open Decimal

theorem Grid.parts_of_make {level branch : Float} {origin : Position Float} {grid : Grid Float}
    (made : Grid.make level branch origin = .ok grid) :
    grid.levelSpacing = level ∧ grid.branchSpacing = branch ∧ grid.origin = origin := by
  rw [make] at made
  split at made
  · cases made
    exact ⟨rfl, rfl, rfl⟩
  · cases made

theorem coarse_150 : Coarse 1075 (150 : Float).toModel.unpack := by
  have exact : units (150 : Float).toModel.unpack = 150 * 2 ^ 1074 := by
    decide +kernel
  rw [Coarse, exact]
  decide +kernel

theorem whole_300 : Whole 300 := by
  have exact : units (300 : Float).toModel.unpack = 300 * 2 ^ 1074 := by
    decide +kernel
  rw [Whole, Coarse, exact]
  exact dvd_mul_left _ _

/-- A grid with the default distances: no row is lost, and none leads back. -/
theorem Settings.margin_default {grid : Grid Float} (usual : Settings.default.grid = .ok grid) :
    grid.Margin Whole (0 ≤ ·) := by
  obtain ⟨level, branch, origin⟩ := Grid.parts_of_make usual
  have level : grid.levelSpacing = 200 := level
  have branch : grid.branchSpacing = 150 := branch
  have origin : grid.origin = ⟨100, 300⟩ := origin
  have row : Whole 150 := Dvd.dvd.trans (pow_dvd_pow 2 (by omega)) coarse_150
  exact {
    zero := by decide +kernel
    origin := by
      rw [origin]
      decide +kernel
    column := fun x right => nonneg_add right (by rw [level]; decide +kernel)
    level := fun x right => nonneg_add right (by rw [level]; decide +kernel)
    row := fun y inside => nonneg_add inside (by rw [branch]; decide +kernel)
    wholeOrigin := by
      rw [origin]
      exact whole_300
    wholeRow := fun y whole => branch ▸ whole.add row
    wholeOffset := fun y index count whole =>
      whole.add (whole_offset (branch ▸ coarse_150))
    alike := fun first second left right inside same =>
      nonneg_of_beq left right inside (PartialEquivBEq.symm same) }

namespace Compiler

/-- Under the default distances no box is cut off at the left, and one is cut off at the top just if
the place of some branch beside its message lies above the canvas. -/
theorem compile_boxes_inside (compiler : Compiler Float)
    (usual : Settings.default.grid = .ok compiler.grid) (templates : List Template)
    (size : BoxSize Float) {compilation : Compilation Float}
    (compiled : compiler.compile templates = .ok compilation) :
    (∀ box ∈ (compilation.graph.plan size).boxes, 0 ≤ box.node.position.x) ∧
      ((∀ box ∈ (compilation.graph.plan size).boxes, 0 ≤ box.node.position.y) ↔
        compilation.graph.Fits (0 ≤ ·) compiler.grid compiler.rules
          (compiler.rules.select templates).templates) := by
  obtain ⟨right, fits⟩ := compile_inside (Settings.margin_default usual) compiled
  have boxes : (compilation.graph.plan size).boxes = compilation.graph.nodes.map size.box := rfl
  rw [boxes, List.forall_mem_map, List.forall_mem_map]
  exact ⟨right, fits⟩

end Compiler

namespace Samples

/-- The compiler of the default settings. -/
def usual : Compiler Float :=
  ⟨Settings.default.rules 10 .drop, shallow.grid⟩

theorem ofSettings_usual : Compiler.ofSettings .default = .ok usual := rfl

end Samples

theorem Compiler.compile_boxes_inside_detour :
    Settings.default.grid = .ok Samples.usual.grid ∧
      ∃ compilation, Samples.usual.compile Samples.detour = .ok compilation ∧
        (∀ box ∈ (compilation.graph.plan .default).boxes, 0 ≤ box.node.position.x) ∧
        ((∀ box ∈ (compilation.graph.plan .default).boxes, 0 ≤ box.node.position.y) ↔
          compilation.graph.Fits (0 ≤ ·) Samples.usual.grid Samples.usual.rules
            (Samples.usual.rules.select Samples.detour).templates) := by
  have grid : Settings.default.grid = .ok Samples.usual.grid := rfl
  obtain ⟨compilation, compiled⟩ : ∃ compilation,
      Samples.usual.compile Samples.detour = .ok compilation :=
    exists_ok_of_isSome (by decide +kernel)
  exact ⟨grid, compilation, compiled, compile_boxes_inside _ grid _ _ compiled⟩

/-- The first of six branches is placed two and a half rows above the row of its message. -/
theorem Compiler.not_forall_boxes_inside_crowd :
    Compiler.ofSettings .default = .ok Samples.usual ∧
      ∃ compilation, Samples.usual.compile Samples.crowd = .ok compilation ∧
        ∃ box ∈ (compilation.graph.plan .default).boxes,
          box.node.id = "condition-1-0" ∧ ¬ 0 ≤ box.node.position.y := by
  obtain ⟨compilation, compiled⟩ : ∃ compilation,
      Samples.usual.compile Samples.crowd = .ok compilation :=
    exists_ok_of_isSome (by decide +kernel)
  have cut : (Samples.usual.compile Samples.crowd).toOption.any fun compilation =>
      (compilation.graph.plan .default).boxes.any fun box =>
        box.node.id = "condition-1-0" ∧ ¬ 0 ≤ box.node.position.y := by
    decide +kernel
  rw [compiled] at cut
  obtain ⟨box, member, above⟩ := List.any_eq_true.mp cut
  exact ⟨Samples.ofSettings_usual, compilation, compiled, box, member, of_decide_eq_true above⟩

end ReplyFlow
