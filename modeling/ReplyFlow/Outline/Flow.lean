import ReplyFlow.Graph.Query
import ReplyFlow.Limits

/-! The order in which an outline lists the edges of a graph.

Every node is followed in depth, and its edges are listed when it is reached for the first time. An
edge to a node that has been reached before is listed but not followed.
-/

set_option autoImplicit false

namespace ReplyFlow.Graph

variable {α : Type}

/-- An edge that leads away from a node `depth` edges below the start. -/
structure FlowLine where
  depth : Nat
  edge : Edge
  /-- The target was reached before. -/
  again : Bool
  deriving Repr, DecidableEq

/-- Lines, and the ids reached by then. -/
abbrev Flow := List FlowLine × List String

/-- Lists edges in turn. `enter` lists what lies below a node that is reached for the first
time. -/
def listEdges (enter : String → List String → Except Limits.Excess Flow) (depth : Nat) :
    List Edge → List String → Except Limits.Excess Flow
  | [], reached => .ok ([], reached)
  | edge :: rest, reached =>
    if reached.contains edge.target then do
      let (lines, reached) ← listEdges enter depth rest reached
      return (⟨depth, edge, true⟩ :: lines, reached)
    else do
      let (inside, reached) ← enter edge.target reached
      let (lines, reached) ← listEdges enter depth rest reached
      return (⟨depth, edge, false⟩ :: inside ++ lines, reached)

/-- What lies below a node. Each node is followed by a call of its own, inside that for the node
before it; `calls` are left. -/
def flowBelow (graph : Graph α) :
    (calls depth : Nat) → String → List String → Except Limits.Excess Flow
  | 0, _, _, _ => .error .calls
  | calls + 1, depth, id, reached =>
    listEdges (flowBelow graph calls (depth + 1)) depth (graph.outgoing id) (id :: reached)

/-- The lines below each start, in order, when some ids were reached from earlier ones. -/
def flowOf (graph : Graph α) (calls : Nat) :
    List (Node α) → List String → Except Limits.Excess (List (Node α × List FlowLine))
  | [], _ => .ok []
  | start :: rest, reached => do
    let (lines, reached) ← graph.flowBelow calls 0 start.id reached
    return (start, lines) :: (← flowOf graph calls rest reached)

def flow (graph : Graph α) (calls : Nat) :
    Except Limits.Excess (List (Node α × List FlowLine)) :=
  graph.flowOf calls (graph.nodesOfKind .start) []

end ReplyFlow.Graph
