import ReplyFlow.Canvas.Coordinate
import ReplyFlow.Graph.Basic

/-! The curves that join boxes: cubic curves that leave and arrive horizontally, with an arrowhead
at the end.
-/

set_option autoImplicit false

namespace ReplyFlow

variable {α : Type}

/-- A triangle. -/
structure Arrowhead (α : Type) where
  left : Position α
  tip : Position α
  right : Position α
  deriving Repr, DecidableEq

structure Curve (α : Type) where
  start : Position α
  firstControl : Position α
  secondControl : Position α
  finish : Position α
  deriving Repr, DecidableEq

variable [Coordinate α]

open Coordinate

def middle (a b : α) : α :=
  (a + b) / ofInt 2

def Curve.between (start finish : Position α) : Curve α :=
  let x := middle start.x finish.x
  ⟨start, ⟨x, start.y⟩, ⟨x, finish.y⟩, finish⟩

def arrowLength : α := ofInt 10

/-- Half the width of an arrowhead. -/
def arrowSpread : α := ofInt 7 / ofInt 2

/-- The direction from one point to another, of length one; to the right if there is none. -/
def direction (control tip : Position α) : Position α :=
  let x := tip.x - control.x
  let y := tip.y - control.y
  let length := root (x * x + y * y)
  if length == ofInt 0 then ⟨ofInt 1, ofInt 0⟩ else ⟨x / length, y / length⟩

/-- The arrowhead at `tip` of a curve that comes from `control`. -/
def Arrowhead.pointing (control tip : Position α) : Arrowhead α :=
  let along := direction control tip
  let x := tip.x - along.x * arrowLength
  let y := tip.y - along.y * arrowLength
  { left := ⟨x - along.y * arrowSpread, y + along.x * arrowSpread⟩
    tip := tip
    right := ⟨x + along.y * arrowSpread, y - along.x * arrowSpread⟩ }

def Curve.arrowhead (curve : Curve α) : Arrowhead α :=
  .pointing curve.secondControl curve.finish

/-- Halfway between the two ends. -/
def Curve.centre (curve : Curve α) : Position α :=
  ⟨curve.firstControl.x, middle curve.start.y curve.finish.y⟩

end ReplyFlow
