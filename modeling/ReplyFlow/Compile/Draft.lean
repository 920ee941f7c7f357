import ReplyFlow.Compile.Report
import ReplyFlow.Compile.StepName
import ReplyFlow.Layout.Slot

/-! A graph in the making.

A draft holds what has been drawn so far: nodes and edges, the slots that the nodes take, the
messages drawn for templates, and the shared end. An operation that is refused leaves no trace.
-/

set_option autoImplicit false

namespace ReplyFlow

structure Draft (α : Type) where
  nodes : List (Node α)
  edges : List Edge
  /-- Templates that have been reached, with the ids of their messages. -/
  visited : List (Int × String)
  occupied : List (Slot α)
  finish : Option String

inductive Draft.Fault where
  | taken (id : String)
  | misfit (id : String) (kind : NodeKind) (payload : PayloadKind)
  deriving Repr, DecidableEq

def Draft.Fault.message : Draft.Fault → String
  | .taken id => s!"Node '{id}' already exists"
  | .misfit id kind payload => ReplyFlow.misfit id kind payload

namespace Draft

variable {α : Type}

def empty : Draft α :=
  ⟨[], [], [], [], none⟩

def hasNode (draft : Draft α) (id : String) : Bool :=
  draft.nodes.any (·.id == id)

def isVisited (draft : Draft α) (template : Int) : Bool :=
  draft.visited.any (·.1 == template)

def nodeFor? (draft : Draft α) (template : Int) : Option String :=
  draft.visited.lookup template

def markVisited (draft : Draft α) (template : Int) (id : String) : Draft α :=
  { draft with
    visited :=
      if draft.isVisited template then
        draft.visited.map fun entry => if entry.1 == template then (template, id) else entry
      else draft.visited ++ [(template, id)] }

def connect (draft : Draft α) (source target : String) (label : Option String) : Draft α :=
  { draft with edges := draft.edges ++ [⟨edgeName source target, source, target, label⟩] }

variable [Coordinate α]

def push (draft : Draft α) (node : Node α) : Draft α :=
  { draft with
    nodes := draft.nodes ++ [node]
    occupied := Slot.insert draft.occupied node.position.slot }

/-- Adds a node with a new id whose payload goes with its kind. -/
def addNode (draft : Draft α) (id : String) (kind : NodeKind) (position : Position α)
    (payload : Payload) : Except Fault (Draft α) :=
  if draft.hasNode id then .error (.taken id)
  else if fits : payload.kind = kind.payloadKind then
    .ok (draft.push ⟨id, kind, position, payload, fits⟩)
  else .error (.misfit id kind payload.kind)

theorem exists_node_of_addNode {draft drawn : Draft α} {id : String} {kind : NodeKind}
    {position : Position α} {payload : Payload}
    (added : draft.addNode id kind position payload = .ok drawn) :
    ∃ node : Node α, node.id = id ∧ node.position = position ∧ drawn = draft.push node := by
  rw [addNode] at added
  split at added
  · cases added
  · split at added <;> cases added
    exact ⟨_, rfl, rfl, rfl⟩

/-- Draws the shared end, unless it is there already. -/
def ensureEnd (draft : Draft α) (position : Position α) : Except Fault (Draft α) :=
  match draft.finish with
  | some _ => .ok draft
  | none =>
    match draft.addNode StepName.finish.text .finish position (.marker "End" false none) with
    | .ok drawn => .ok { drawn with finish := some StepName.finish.text }
    | .error fault => .error fault

/-- The right-most column in use. -/
def maxX (draft : Draft α) : α :=
  Coordinate.maximum (draft.nodes.map (·.position.x))

end Draft

def Draft.graph {α : Type} (draft : Draft α) : Graph α :=
  ⟨draft.nodes, draft.edges⟩

def Draft.report {α : Type} (draft : Draft α) : Report :=
  { Report.empty with nodeCount := draft.nodes.length, edgeCount := draft.edges.length }

end ReplyFlow
