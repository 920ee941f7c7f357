import ReplyFlow.Canvas.Coordinate
import ReplyFlow.Graph.Basic

/-! Slots: places on the canvas up to a thousandth, by which nodes are kept apart. -/

set_option autoImplicit false

namespace ReplyFlow

variable {α : Type} [Coordinate α]

structure Slot (α : Type) where
  x : α
  y : α
  deriving Repr, BEq

theorem Slot.beq_iff {a b : Slot α} : a == b ↔ a.x == b.x ∧ a.y == b.y := by
  rw [← Bool.and_eq_true]
  exact Iff.rfl

def Position.slot (position : Position α) : Slot α :=
  ⟨Coordinate.toThousandth position.x, Coordinate.toThousandth position.y⟩

/-- Adds a slot unless it is there already. -/
def Slot.insert (occupied : List (Slot α)) (slot : Slot α) : List (Slot α) :=
  if occupied.contains slot then occupied else occupied ++ [slot]

theorem Slot.contains_insert (occupied : List (Slot α)) (slot other : Slot α) :
    (Slot.insert occupied slot).contains other
      = (occupied.contains other || (!occupied.contains slot && other == slot)) := by
  unfold Slot.insert
  split
  · next present => simp [present]
  · next absent =>
    simp only [Bool.not_eq_true] at absent
    simp [absent, List.contains_eq_any_beq, Bool.or_comm]

def Slot.before (a b : Slot α) : Bool :=
  Coordinate.lt a.x b.x || (a.x == b.x && Coordinate.le a.y b.y)

/-- Slots from left to right, and from top to bottom in one column. -/
def Slot.sort (slots : List (Slot α)) : List (Slot α) :=
  slots.mergeSort Slot.before

end ReplyFlow
