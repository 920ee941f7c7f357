import ReplyFlow.Decimal.Binary64

/-! The arithmetic of canvas coordinates.

Everything that is placed or drawn is computed through these operations, so the same definitions
serve for binary64 numbers and for exact ones.
-/

set_option autoImplicit false

namespace ReplyFlow

class Coordinate (α : Type) extends Add α, Sub α, Mul α, Div α, BEq α where
  /-- The nearest number, which need not be finite. -/
  ofInt : Int → α
  /-- The number nearest to half a whole number. -/
  half : Int → α
  isFinite : α → Bool
  lt : α → α → Bool
  le : α → α → Bool
  /-- The nearest number with three decimals, a tie going to the even last digit. -/
  toThousandth : α → α
  root : α → α
  /-- A number of rows, one `spacing` below the other, among which a row search ends if it ends at
  all, where so many slots are occupied. -/
  rowBound : (spacing : α) → (occupied : Nat) → Nat

/-- There are at most `2 ^ 64` binary64 numbers, so a longer run of growing rows is
impossible. -/
instance : Coordinate Float where
  ofInt := Decimal.ofInt
  half := Decimal.half
  isFinite := Float.isFinite
  lt a b := a < b
  le a b := a ≤ b
  toThousandth := Decimal.toThousandth
  root x := x.pow 0.5
  rowBound _ _ := Nat.pow 2 64

namespace Coordinate

variable {α : Type} [Coordinate α]

/-- The greatest of some numbers, or zero if there is none. -/
def maximum (numbers : List α) : α :=
  match numbers with
  | [] => ofInt 0
  | first :: rest => rest.foldl (fun best x => if lt best x then x else best) first

end Coordinate

end ReplyFlow
