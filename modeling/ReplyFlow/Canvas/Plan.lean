import ReplyFlow.Canvas.Curve
import ReplyFlow.Canvas.Style
import ReplyFlow.Graph.Query

/-! Everything needed to draw a graph: a box for each node, and a connector for each edge between
two nodes. -/

set_option autoImplicit false

namespace ReplyFlow

variable {α : Type}

structure Box (α : Type) where
  node : Node α
  width : α
  height : α
  preview : String
  deriving Repr, DecidableEq

structure Connector (α : Type) where
  edge : Edge
  curve : Curve α
  deriving Repr, DecidableEq

structure Plan (α : Type) where
  width : α
  height : α
  boxes : List (Box α)
  connectors : List (Connector α)
  deriving Repr, DecidableEq

/-- The size of the boxes, and the greatest length of a message in one. -/
structure BoxSize (α : Type) where
  width : α
  height : α
  previewLength : Int
  deriving Repr, DecidableEq

variable [Coordinate α]

open Coordinate

def Box.right (box : Box α) : α :=
  box.node.position.x + box.width

def Box.bottom (box : Box α) : α :=
  box.node.position.y + box.height

/-- A label stands in the middle of its curve. -/
def Connector.labelPosition? (connector : Connector α) : Option (Position α) :=
  connector.edge.shownLabel?.map fun _ => connector.curve.centre

namespace BoxSize

def default : BoxSize α :=
  ⟨ofInt 200, ofInt 60, 50⟩

def box (size : BoxSize α) (node : Node α) : Box α :=
  ⟨node, size.width, size.height, node.payload.preview size.previewLength⟩

def centre (size : BoxSize α) (corner : Position α) : Position α :=
  ⟨corner.x + size.width / ofInt 2, corner.y + size.height / ofInt 2⟩

/-- The middle of the left side. -/
def entry (size : BoxSize α) (corner : Position α) : Position α :=
  ⟨corner.x, corner.y + size.height / ofInt 2⟩

def connector? (size : BoxSize α) (graph : Graph α) (edge : Edge) : Option (Connector α) :=
  match graph.lastNode? edge.source, graph.lastNode? edge.target with
  | some source, some target =>
    some ⟨edge, .between (size.centre source.position) (size.entry target.position)⟩
  | _, _ => none

end BoxSize

/-- What is left free to the right of the boxes and below them. -/
def canvasMargin : α := ofInt 100

def Graph.plan (graph : Graph α) (size : BoxSize α) : Plan α :=
  let boxes := graph.nodes.map size.box
  { width := maximum (boxes.map Box.right) + canvasMargin
    height := maximum (boxes.map Box.bottom) + canvasMargin
    boxes := boxes
    connectors := graph.edges.filterMap (size.connector? graph) }

end ReplyFlow
