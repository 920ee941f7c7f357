import ReplyFlow.Proofs.Json.Accepted
import ReplyFlow.Proofs.Store.Rows
import ReplyFlow.Proofs.Workflow.Encoding

/-! Which graphs and moments are read back from their texts.

A graph is read back unless a whole number in it has too many digits. A moment is read back if it
can be shown by the clocks of the world.
-/

set_option autoImplicit false

namespace ReplyFlow

open Schema Time

/-- The whole numbers of a payload. -/
def Payload.wholes : Payload → List Int
  | .message _ templateId _ _ => [templateId]
  | .condition .. => []
  | .delay _ duration _ => [(duration : Int)]
  | .marker _ _ templateId => templateId.toList

/-- No whole number in a graph has more digits than one may have. -/
def Graph.Short {α : Type} (graph : Graph α) : Prop :=
  ∀ node ∈ graph.nodes, ∀ value ∈ node.payload.wholes,
    Decimal.decimalLength value.natAbs ≤ Decimal.digitLimit

instance {α : Type} (graph : Graph α) : Decidable graph.Short :=
  inferInstanceAs (Decidable (∀ node ∈ graph.nodes, ∀ value ∈ node.payload.wholes, _))

theorem Payload.plain_json_iff {payload : Payload} {levels : Nat} :
    Json.Plain (levels + 1) payload.json ↔
      ∀ value ∈ payload.wholes, Decimal.decimalLength value.natAbs ≤ Decimal.digitLimit := by
  cases payload with
  | message label templateId body recipient => simp [json, details, wholes]
  | condition label field operator expected => simp [json, details, wholes]
  | delay label duration unit => simp [json, details, wholes]
  | marker label continuation templateId =>
    cases templateId <;> simp [json, details, wholes, Json.ofOption]

theorem Node.plain_json_iff {node : Node Float} {levels : Nat} :
    Json.Plain (levels + 2) node.json ↔ Json.Plain (levels + 1) node.payload.json := by
  simp [json, Position.json]

theorem Edge.plain_json (edge : Edge) {levels : Nat} : Json.Plain (levels + 1) edge.json := by
  cases label : edge.label <;> simp [json, label, Json.ofOption]

/-- The digits of whole numbers are all that can keep a graph from being read back. -/
theorem Graph.legible_iff {graph : Graph Float} : graph.Legible ↔ graph.Short := by
  have nodes : Json.parse (Json.ofList Node.json graph.nodes).render =
      .ok (.ofList Node.json graph.nodes) ↔ graph.Short := by
    rw [Json.parse_render_iff, Json.ofList, Json.nestingLimit, Json.plain_list_iff,
      List.forall_mem_map]
    exact forall₂_congr fun node _ => Node.plain_json_iff.trans Payload.plain_json_iff
  refine ⟨fun legible => nodes.mp legible.nodes, fun short => ⟨nodes.mpr short, ?_⟩⟩
  rw [Json.parse_render_iff, Json.ofList, Json.nestingLimit, Json.plain_list_iff,
    List.forall_mem_map]
  exact fun edge _ => edge.plain_json

/-- A graph that stands in JSON text is read back from the texts of its parts. -/
theorem Graph.legible_of_plain {graph : Graph Float} {levels : Nat}
    (plain : Json.Plain (levels + 4) graph.json) : graph.Legible := by
  rw [Graph.json, Json.plain_object_iff] at plain
  have nodes := plain.2 ("nodes", .ofList Node.json graph.nodes) List.mem_cons_self
  rw [Json.ofList, Json.plain_list_iff, List.forall_mem_map] at nodes
  exact legible_iff.mpr fun node member =>
    Payload.plain_json_iff.mp (Node.plain_json_iff.mp (nodes node member))

theorem Time.Timestamp.InRange.legible {moment : Timestamp} (inRange : moment.InRange) :
    moment.Legible := by
  change momentOfText moment.rowText = .ok moment
  rw [momentOfText, read_rowText inRange]
  exact if_pos inRange.inCalendar

end ReplyFlow
