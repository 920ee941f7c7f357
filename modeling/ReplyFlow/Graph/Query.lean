import ReplyFlow.Graph.Basic

/-! Looking things up in a graph, and what can be reached in it. -/

set_option autoImplicit false

namespace ReplyFlow.Graph

variable {α : Type}

/-- The first node with this id. -/
def node? (graph : Graph α) (id : String) : Option (Node α) :=
  graph.nodes.find? (·.id == id)

/-- The last node with this id. -/
def lastNode? (graph : Graph α) (id : String) : Option (Node α) :=
  graph.nodes.reverse.find? (·.id == id)

def nodesOfKind (graph : Graph α) (kind : NodeKind) : List (Node α) :=
  graph.nodes.filter (·.kind == kind)

def outgoing (graph : Graph α) (id : String) : List Edge :=
  graph.edges.filter (·.source == id)

def incoming (graph : Graph α) (id : String) : List Edge :=
  graph.edges.filter (·.target == id)

/-- The ids that one edge leads to. -/
def successors (graph : Graph α) (id : String) : List String :=
  (graph.outgoing id).map Edge.target

/-- The search for reachable ids: `pending` are found but not yet followed, `found` are all of
them. Every id is followed once, so one step more than there are edges is enough. -/
def search (graph : Graph α) : Nat → List String → List String → List String
  | 0, _, found => found
  | _ + 1, [], found => found
  | steps + 1, id :: pending, found =>
    let fresh := ((graph.successors id).filter (!found.contains ·)).eraseDups
    search graph steps (fresh ++ pending) (fresh ++ found)

/-- The ids at the end of some path from `id`, which is one of them. They need not be nodes. -/
def reachableFrom (graph : Graph α) (id : String) : List String :=
  graph.search (graph.edges.length + 1) [id] [id]

def sortTexts (texts : List String) : List String :=
  texts.mergeSort fun a b => a ≤ b

end ReplyFlow.Graph
