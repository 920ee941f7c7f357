import ReplyFlow.Graph.Codec

/-! A graph is read back from its JSON.

No condition on the coordinates is needed for this, as a JSON value holds them as they are. They
have to be finite where the value is sent, since other numbers are sent as `null`.
-/

set_option autoImplicit false

namespace ReplyFlow

open Schema

namespace Schema

variable {α : Type} {check : Json → Checked α} {members : Json.Members} {name : String}
  {value : Json} {result : α}

theorem required_eq_ok (names : List String) (found : members.find? names = some (name, value))
    (reads : check value = .ok result) : required members names check = .ok result := by
  rw [required, found]
  simp only [reads, Checked.under_ok]

theorem optional_eq_ok {default : α} (names : List String)
    (found : members.find? names = some (name, value)) (reads : check value = .ok result) :
    optional members names default check = .ok result := by
  rw [optional, found]
  simp only [reads, Checked.under_ok]

theorem checkItems_map {encode : α → Json} (items : List α)
    (reads : ∀ item ∈ items, check (encode item) = .ok item) (start : Nat) :
    checkItems check start (items.map encode) = .ok items := by
  induction items generalizing start with
  | nil => rfl
  | cons item rest ih =>
    have head := reads item List.mem_cons_self
    have tail := ih (fun other member => reads other (List.mem_cons_of_mem item member)) (start + 1)
    rw [List.map_cons, checkItems, head, tail]
    rfl

theorem list_ofList {encode : α → Json} (items : List α)
    (reads : ∀ item ∈ items, check (encode item) = .ok item) :
    list check (.ofList encode items) = .ok items :=
  checkItems_map items reads 0

theorem count_whole (n : Nat) : count (.whole n) = .ok n := by
  have bound : ¬ (n : Int) < 0 := by omega
  simp [count, wholeFrom, whole, bound]

end Schema

variable (setting : Setting)

theorem Position.check_json (position : Position Float) :
    Position.check setting position.json = .ok position := rfl

def Payload.members (payload : Payload) : Json.Members :=
  ("kind", .text payload.kind.name) :: ("label", .text payload.label) :: payload.details

theorem Payload.check_eq (payload : Payload) :
    Payload.check payload.json =
      (checkMembers payload.kind payload.members).under (.field payload.kind.name) := by
  cases payload <;> rfl

theorem Payload.check_json (payload : Payload) : Payload.check payload.json = .ok payload := by
  rw [check_eq]
  cases payload with
  | message => rfl
  | condition => rfl
  | delay label duration unit =>
    rw [kind, checkMembers, optional_eq_ok ["duration"] rfl (count_whole duration)]
    rfl
  | marker label continuation templateId => cases templateId <;> rfl

theorem NodeKind.member_name (kind : NodeKind) :
    member NodeKind.choices (.text kind.name) = .ok kind := by
  cases kind <;> rfl

theorem Node.assemble_eq {α : Type} (value : Json) (node : Node α) :
    Node.assemble value node.id node.kind node.position node.payload = .ok node := by
  rw [Node.assemble, dif_pos node.fits]

theorem Node.check_json (node : Node Float) : Node.check setting node.json = .ok node := by
  rw [Node.check, Node.json, record, required_eq_ok ["type"] rfl (NodeKind.member_name node.kind),
    optional_eq_ok ["position"] rfl (Position.check_json setting node.position),
    required_eq_ok ["payload"] rfl (Payload.check_json node.payload)]
  exact node.assemble_eq _

theorem Edge.check_json (edge : Edge) : Edge.check setting edge.json = .ok edge := by
  obtain ⟨id, source, target, label⟩ := edge
  cases label <;> rfl

theorem Graph.check_json (graph : Graph Float) : Graph.check setting graph.json = .ok graph := by
  rw [Graph.check, Graph.json, record, optional_eq_ok ["nodes"] rfl
      (list_ofList graph.nodes fun node _ => Node.check_json setting node),
    optional_eq_ok ["edges"] rfl
      (list_ofList graph.edges fun edge _ => Edge.check_json setting edge)]
  rfl

/-! ### What is sent of a graph -/

/-- Every node has finite coordinates. -/
def Graph.Finite (graph : Graph Float) : Prop :=
  ∀ node ∈ graph.nodes, node.position.x.isFinite ∧ node.position.y.isFinite

instance (graph : Graph Float) : Decidable graph.Finite :=
  inferInstanceAs (Decidable (∀ node ∈ graph.nodes, _))

theorem Json.finite_ofList {α : Type} {encode : α → Json} {items : List α}
    (finite : ∀ item ∈ items, (encode item).finite = encode item) :
    (ofList encode items).finite = ofList encode items := by
  have each : finiteItems (items.map encode) = items.map encode := by
    induction items with
    | nil => rfl
    | cons item rest ih =>
      rw [List.map_cons, finiteItems, finite item List.mem_cons_self,
        ih fun other member => finite other (List.mem_cons_of_mem item member)]
  rw [ofList, Json.finite, each]

theorem Position.finite_json {position : Position Float}
    (finite : position.x.isFinite ∧ position.y.isFinite) :
    position.json.finite = position.json := by
  simp [Position.json, Json.finite, Json.finiteMembers, finite.1, finite.2]

theorem Payload.finite_json (payload : Payload) : payload.json.finite = payload.json := by
  cases payload with
  | message => rfl
  | condition => rfl
  | delay => rfl
  | marker label continuation templateId => cases templateId <;> rfl

theorem Edge.finite_json (edge : Edge) : edge.json.finite = edge.json := by
  obtain ⟨id, source, target, label⟩ := edge
  cases label <;> rfl

theorem Edge.finite_ofList (edges : List Edge) :
    (Json.ofList Edge.json edges).finite = .ofList Edge.json edges :=
  Json.finite_ofList fun edge _ => edge.finite_json

namespace Graph.Finite

variable {graph : Graph Float}

theorem finite_nodes (finite : graph.Finite) :
    (Json.ofList Node.json graph.nodes).finite = .ofList Node.json graph.nodes :=
  Json.finite_ofList fun node member => by
    simp [Node.json, Json.finite, Json.finiteMembers, Position.finite_json (finite node member),
      Payload.finite_json]

/-- Nothing is lost when a graph with finite coordinates is sent. -/
theorem finite_json (finite : graph.Finite) : graph.json.finite = graph.json := by
  simp [Graph.json, Json.finite, Json.finiteMembers, finite.finite_nodes,
    Edge.finite_ofList]

end Graph.Finite

end ReplyFlow
