import ReplyFlow.Layout.Slot

/-! Where nodes are placed.

A conversation runs from left to right. A message is followed one column on by its conditions,
these by their delays, and these by the next message. The branches of a message are spread evenly
around its row, and a node that would cover another one is moved down, row by row.
-/

set_option autoImplicit false

namespace ReplyFlow

/-- Distances between columns and between rows, and the place of the start. Neither distance is
zero or less. -/
structure Grid (α : Type) [Coordinate α] where
  levelSpacing : α
  branchSpacing : α
  origin : Position α
  spaced : (Coordinate.le levelSpacing (Coordinate.ofInt 0)
    || Coordinate.le branchSpacing (Coordinate.ofInt 0)) = false

inductive Grid.Fault where
  | spacing
  | branchRange (index count : Int)
  /-- A whole number that no coordinate comes near. -/
  | hugeWhole
  /-- The same of half a whole number. -/
  | hugeHalf
  deriving Repr, DecidableEq

def Grid.Fault.message : Grid.Fault → String
  | .spacing => "Layout spacing must be positive"
  | .branchRange index count => s!"Branch index {index} out of range for {count} siblings"
  | .hugeWhole => "int too large to convert to float"
  | .hugeHalf => "integer division result too large for a float"

namespace Grid

variable {α : Type} [Coordinate α]

open Coordinate

def make (levelSpacing branchSpacing : α) (origin : Position α) : Except Fault (Grid α) :=
  if spaced : (le levelSpacing (ofInt 0) || le branchSpacing (ofInt 0)) = false then
    .ok ⟨levelSpacing, branchSpacing, origin, spaced⟩
  else .error .spacing

/-- Columns from one message to the next. -/
def columnsPerLevel : Int := 3

def startPosition (grid : Grid α) : Position α :=
  grid.origin

def firstPosition (grid : Grid α) : Position α :=
  ⟨grid.origin.x + grid.levelSpacing, grid.origin.y⟩

/-- The column of a message so many messages after the first one. -/
def messageColumn (grid : Grid α) (depth : Int) : α :=
  grid.firstPosition.x + ofInt (depth * columnsPerLevel) * grid.levelSpacing

/-- The same column for a depth that need not be small. -/
def templateColumn (grid : Grid α) (depth : Int) : Except Fault α :=
  if isFinite (ofInt (depth * columnsPerLevel) : α) then .ok (grid.messageColumn depth)
  else .error .hugeWhole

/-- How far branch `index` of `count` lies below the row of its message. -/
def spread (grid : Grid α) (index count : Int) : α :=
  (ofInt index - half (count - 1)) * grid.branchSpacing

/-- The same distance for numbers that need not make sense. -/
def branchOffset (grid : Grid α) (index count : Int) : Except Fault α :=
  if count ≤ 0 || index < 0 || count ≤ index then .error (.branchRange index count)
  else if !isFinite (half (count - 1) : α) then .error .hugeHalf
  else if !isFinite (ofInt index : α) then .error .hugeWhole
  else .ok (grid.spread index count)

def conditionPosition (grid : Grid α) (parent : Position α) (index count : Int) : Position α :=
  ⟨parent.x + grid.levelSpacing, parent.y + grid.spread index count⟩

/-- The place one column on. -/
def nextColumn (grid : Grid α) (position : Position α) : Position α :=
  ⟨position.x + grid.levelSpacing, position.y⟩

def delayPosition (grid : Grid α) (condition : Position α) : Position α :=
  grid.nextColumn condition

def endPosition (grid : Grid α) (parent : Position α) : Position α :=
  grid.nextColumn parent

/-- The place of the message that a branch on `row` leads to. -/
def childPosition (grid : Grid α) (parent : Position α) (row : α) : Position α :=
  ⟨parent.x + ofInt columnsPerLevel * grid.levelSpacing, row⟩

/-- One of the columns is taken on this row. -/
def isTaken (columns : List α) (occupied : List (Slot α)) (row : α) : Bool :=
  columns.any fun x => occupied.contains (Position.slot ⟨x, row⟩)

/-- Goes down from `row` until no column is taken. A row that does not change any more when the
spacing is added ends the search without success. -/
def searchRow (grid : Grid α) (columns : List α) (occupied : List (Slot α)) : Nat → α → Option α
  | 0, _ => none
  | rows + 1, row =>
    if isTaken columns occupied row then
      let next := row + grid.branchSpacing
      if next == row then none else grid.searchRow columns occupied rows next
    else some row

/-- The first row from `row` downwards on which every column is free. -/
def freeRow? (grid : Grid α) (row : α) (columns : List α) (occupied : List (Slot α)) : Option α :=
  grid.searchRow columns occupied (rowBound grid.branchSpacing occupied.length) row

theorem isTaken_of_searchRow {grid : Grid α} {columns : List α} {occupied : List (Slot α)}
    {rows : Nat} {row found : α} (success : grid.searchRow columns occupied rows row = some found) :
    isTaken columns occupied found = false := by
  induction rows generalizing row with
  | zero => simp [searchRow] at success
  | succ rows ih =>
    simp only [searchRow] at success
    split at success
    · split at success
      · simp at success
      · exact ih success
    · next free =>
      cases success
      simpa using free

theorem isTaken_of_freeRow {grid : Grid α} {columns : List α} {occupied : List (Slot α)}
    {row found : α} (success : grid.freeRow? row columns occupied = some found) :
    isTaken columns occupied found = false :=
  isTaken_of_searchRow success

/-- The position, moved down to a free slot. -/
def freePosition? (grid : Grid α) (position : Position α) (occupied : List (Slot α)) :
    Option (Position α) :=
  (grid.freeRow? position.y [position.x] occupied).map fun row => ⟨position.x, row⟩

end Grid

end ReplyFlow
