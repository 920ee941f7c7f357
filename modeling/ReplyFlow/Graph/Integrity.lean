import ReplyFlow.Graph.Query

/-! The structural rules of a workflow graph.

A graph has one start and at least one end, its ids are distinct, a template has one message, the
ends of every edge exist, and every node can be reached from the start. An end that no edge leads
to is allowed: it stands beside a conversation that never stops.
-/

set_option autoImplicit false

namespace ReplyFlow.Graph

variable {α : Type}

inductive Problem where
  | duplicateIds
  | startCount (count : Nat)
  | noEnd
  | repeatedTemplate (id : Int)
  | unknownSource (id : String)
  | unknownTarget (id : String)
  | unreachable (id : String)
  deriving Repr, DecidableEq

def Problem.message : Problem → String
  | .duplicateIds => "Duplicate node ids"
  | .startCount count => s!"Expected exactly one start node, found {count}"
  | .noEnd => "Graph has no end node"
  | .repeatedTemplate id => s!"Template {id} has more than one message node"
  | .unknownSource id => s!"Edge source '{id}' not found"
  | .unknownTarget id => s!"Edge target '{id}' not found"
  | .unreachable id => s!"Node '{id}' is not reachable from start"

def ids (graph : Graph α) : List String :=
  graph.nodes.map Node.id

def hasDuplicates {β : Type} [BEq β] : List β → Bool
  | [] => false
  | item :: rest => rest.contains item || hasDuplicates rest

/-- The items that occur earlier in the list, once for every such place. -/
def repeats {β : Type} [BEq β] : List β → List β → List β
  | _, [] => []
  | seen, item :: rest =>
    (if seen.contains item then [item] else []) ++ repeats (item :: seen) rest

def messageTemplates (graph : Graph α) : List Int :=
  (graph.nodesOfKind .message).filterMap Node.templateId?

def edgeProblems (graph : Graph α) (edge : Edge) : List Problem :=
  (if graph.ids.contains edge.source then [] else [.unknownSource edge.source])
    ++ if graph.ids.contains edge.target then [] else [.unknownTarget edge.target]

/-- Nodes that cannot be reached from the start with this id, other than ends without an edge. -/
def strays (graph : Graph α) (start : String) : List (Node α) :=
  let reached := graph.reachableFrom start
  graph.nodes.filter fun node =>
    !reached.contains node.id && !(node.kind == .finish && (graph.incoming node.id).isEmpty)

/-- Everything that breaks a rule; nothing at all for a sound graph. -/
def problems (graph : Graph α) : List Problem :=
  let starts := graph.nodesOfKind .start
  (if hasDuplicates graph.ids then [.duplicateIds] else [])
    ++ (if starts.length = 1 then [] else [.startCount starts.length])
    ++ (if (graph.nodesOfKind .finish).isEmpty then [.noEnd] else [])
    ++ (repeats [] graph.messageTemplates).map .repeatedTemplate
    ++ graph.edges.flatMap graph.edgeProblems
    ++ match starts with
      | [start] => (graph.strays start.id).map fun node => .unreachable node.id
      | _ => []

def problemTexts (graph : Graph α) : List String :=
  graph.problems.map Problem.message

end ReplyFlow.Graph
