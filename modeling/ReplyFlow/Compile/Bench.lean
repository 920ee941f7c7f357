import ReplyFlow.Compile.Draft

/-! The bench on which a graph is drawn: a draft, the ids that are in use, and the report.

Each operation changes one entry after the other, as a program with a mutable bench does.
-/

set_option autoImplicit false

namespace ReplyFlow

structure Bench (α : Type) extends Draft α where
  ids : List String
  report : Report

/-- Work at a bench that may fail; what it did before it failed remains done. -/
abbrev Bench.Work (α β : Type) := ExceptT Draft.Fault (StateM (Bench α)) β

namespace Bench

variable {α : Type}

def empty : Bench α where
  toDraft := Draft.empty
  ids := []
  report := Report.empty

/-- A node whose payload goes with its kind. -/
def assemble (id : String) (kind : NodeKind) (position : Position α) (payload : Payload) :
    Except Draft.Fault (Node α) :=
  if fits : payload.kind = kind.payloadKind then .ok ⟨id, kind, position, payload, fits⟩
  else .error (.misfit id kind payload.kind)

def connect (source target : String) (label : Option String) : Work α Edge := do
  let edge : Edge := ⟨edgeName source target, source, target, label⟩
  modify fun bench => { bench with edges := bench.edges ++ [edge] }
  return edge

def markVisited (template : Int) (id : String) : Work α Unit :=
  modify fun bench => { bench with toDraft := bench.toDraft.markVisited template id }

/-- Counts what has been drawn and hands it over. -/
def build : Work α (Graph α) := do
  modify fun bench =>
    { bench with
      report.nodeCount := bench.nodes.length
      report.edgeCount := bench.edges.length }
  return (← get).graph

variable [Coordinate α]

def addNode (id : String) (kind : NodeKind) (position : Position α) (payload : Payload) :
    Work α (Node α) := do
  if (← get).ids.contains id then throw (.taken id)
  let node ← liftM (assemble id kind position payload)
  modify fun bench => { bench with nodes := bench.nodes ++ [node] }
  modify fun bench => { bench with ids := bench.ids.insert id }
  modify fun bench => { bench with occupied := Slot.insert bench.occupied position.slot }
  return node

/-- The shared end, which is drawn when it is asked for the first time. -/
def ensureEnd (position : Position α) : Work α String := do
  match (← get).finish with
  | some id => return id
  | none =>
    let _ ← addNode StepName.finish.text .finish position (.marker "End" false none)
    modify fun bench => { bench with finish := some StepName.finish.text }
    return StepName.finish.text

end Bench

end ReplyFlow
