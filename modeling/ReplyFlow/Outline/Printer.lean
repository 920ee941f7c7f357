import ReplyFlow.Canvas.Codec
import ReplyFlow.Json.Display
import ReplyFlow.Outline.Flow

/-! Graphs as plain text: an outline of the nodes and of the flow, or one line for each edge. -/

set_option autoImplicit false

namespace ReplyFlow

namespace Outline

/-- A whole number without a point, any other one with six digits at most. -/
def numberText (x : Float) : String :=
  match Decimal.whole? x with
  | some n => toString n
  | none => drawnNumber x

/-- A text in quotes, on one line and cut to a length; any other value by its usual name. -/
def valueText (length : Int) : Json → String
  | .text value =>
    let line := value.toList.map fun c => if c == '\n' then ' ' else c
    let shown := if length < line.length then Text.upTo length line ++ ['.', '.', '.'] else line
    String.ofList ('"' :: shown ++ ['"'])
  | other => other.display

def icon : NodeKind → String
  | .start => "▶"
  | .message => "💬"
  | .condition => "🔀"
  | .delay => "⏰"
  | .finish => "■"

def rule (width : Nat) (c : Char) : String :=
  String.ofList (List.replicate width c)

def payloadLines (payload : Payload) : List String :=
  "       Payload:" :: payload.details.map fun (name, value) =>
    "         • " ++ name ++ ": " ++ valueText 50 value

def nodeLines (withPayload : Bool) (number : Nat) (node : Node Float) : List String :=
  ["  " ++ icon node.kind ++ " [" ++ toString number ++ "] " ++ node.label,
    "       Id: " ++ node.id,
    "       Type: " ++ node.kind.name,
    "       Position: (" ++ numberText node.position.x ++ ", " ++ numberText node.position.y ++ ")"]
    ++ (if withPayload then payloadLines node.payload else [])
    ++ [""]

/-- The label of an edge in brackets, if it is shown. -/
def labelText (edge : Edge) : String :=
  match edge.shownLabel? with
  | some label => " [" ++ label ++ "]"
  | none => ""

end Outline

namespace Graph

open Outline

/-- What the outline calls a node: its label, or its id where there is no such node. -/
def title {α : Type} (graph : Graph α) (id : String) : String :=
  match graph.lastNode? id with
  | some node => node.label
  | none => id

def flowLineText {α : Type} (graph : Graph α) (line : FlowLine) : String :=
  rule (2 * line.depth) ' ' ++ (if line.again then "↺ " else "└──→ ")
    ++ graph.title line.edge.target ++ labelText line.edge

def flowTexts {α : Type} (graph : Graph α) (calls : Nat) : Except Limits.Excess (List String) := do
  match ← graph.flow calls with
  | [] => return ["(No flow connections)"]
  | flows => return flows.flatMap fun (start, lines) =>
    graph.title start.id :: lines.map graph.flowLineText

def flowSection {α : Type} (graph : Graph α) (calls : Nat) :
    Except Limits.Excess (List String) := do
  let texts ← if graph.edges.isEmpty then pure ["(No connections defined)"]
    else graph.flowTexts calls
  return texts.map ("  " ++ ·)

def nodeSection (graph : Graph Float) (withPayload : Bool) : List String :=
  graph.nodes.zipIdx.flatMap fun (node, index) => nodeLines withPayload (index + 1) node

/-- The outline, with the payload of every node if `withPayload` is set. At most so many `calls` are
inside one another. -/
def outline (graph : Graph Float) (calls : Nat) (name : String) (withPayload : Bool) :
    Except Limits.Excess String := do
  let flow ← graph.flowSection calls
  return "\n".intercalate
    ([rule 60 '=', "  WORKFLOW: " ++ name, rule 60 '=',
        s!"  Nodes: {graph.nodes.length}  Edges: {graph.edges.length}", "", "  NODES:",
        "  " ++ rule 56 '-']
      ++ graph.nodeSection withPayload
      ++ ["  FLOW:", "  " ++ rule 56 '-'] ++ flow ++ ["", rule 60 '='])

/-- The outline of a graph that is given as a JSON value. -/
def outlineJson (value : Json) (calls : Nat) (name : String) (withPayload : Bool) :
    Schema.Checked (Except Limits.Excess String) :=
  (Graph.check .direct value).map (·.outline calls name withPayload)

def edgeText (edge : Edge) : String :=
  edge.source ++ " → " ++ edge.target ++ labelText edge

/-- One line for each edge. -/
def compactOutline {α : Type} (graph : Graph α) : String :=
  "\n".intercalate (graph.edges.map edgeText)

/-- The name of a workflow that has no other one. -/
def defaultName : String := "Message Template Workflow"

end Graph

end ReplyFlow
