import ReplyFlow.Graph.Integrity
import ReplyFlow.Proofs.Graph.Paths

/-! What a graph without problems is like, and which of its nodes are messages. -/

set_option autoImplicit false

namespace ReplyFlow

variable {α : Type}

theorem NodeKind.payloadKind_eq_message {kind : NodeKind} :
    kind.payloadKind = .message ↔ kind = .message := by
  cases kind <;> decide

namespace Node

variable {node : Node α}

/-- A node is a message exactly if it names a template. -/
theorem exists_templateId_iff : (∃ id, node.templateId? = some id) ↔ node.kind = .message := by
  have carried : (∃ id, node.templateId? = some id) ↔ node.payload.kind = .message := by
    rw [templateId?]
    cases node.payload <;> simp [Payload.kind]
  rw [carried, node.fits, NodeKind.payloadKind_eq_message]

theorem templateId?_eq_none (other : node.kind ≠ .message) : node.templateId? = none :=
  Option.eq_none_iff_forall_ne_some.mpr fun id named =>
    other (exists_templateId_iff.mp ⟨id, named⟩)

theorem exists_message (message : node.kind = .message) :
    ∃ label templateId body recipient,
      node.payload = .message label templateId body recipient := by
  obtain ⟨id, named⟩ := exists_templateId_iff.mpr message
  cases payload : node.payload with
  | message label templateId body recipient => exact ⟨label, templateId, body, recipient, rfl⟩
  | condition | delay | marker => simp [templateId?, payload] at named

end Node

namespace Graph

/-- One start and some end, no id and no template twice, no edge into the void, and a path from the
start to every node, save for an end that no edge leads to. -/
structure Sound (graph : Graph α) : Prop where
  distinct : graph.ids.Nodup
  ends : graph.nodesOfKind .finish ≠ []
  templates : graph.messageTemplates.Nodup
  joined : ∀ edge ∈ graph.edges, edge.source ∈ graph.ids ∧ edge.target ∈ graph.ids
  entrance : ∃ start, graph.nodesOfKind .start = [start] ∧ ∀ node ∈ graph.nodes,
    graph.Reaches start.id node.id ∨ node.kind = .finish ∧ graph.incoming node.id = []

/-- Only messages carry the payload of one. -/
theorem messageTemplates_eq_filterMap (graph : Graph α) :
    graph.messageTemplates = graph.nodes.filterMap Node.templateId? := by
  rw [messageTemplates, nodesOfKind, List.filterMap_filter]
  congr
  funext node
  by_cases message : node.kind = .message
  · simp [message]
  · simp [message, Node.templateId?_eq_none message]

theorem mem_messageTemplates {graph : Graph α} {id : Int} :
    id ∈ graph.messageTemplates ↔ ∃ node ∈ graph.nodes, node.templateId? = some id := by
  rw [messageTemplates_eq_filterMap, List.mem_filterMap]

theorem hasDuplicates_eq_false {β : Type} [BEq β] [LawfulBEq β] {items : List β} :
    hasDuplicates items = false ↔ items.Nodup := by
  induction items with
  | nil => simp [hasDuplicates]
  | cons first rest ih => simp [hasDuplicates, ih]

theorem repeats_eq_nil {β : Type} [BEq β] [LawfulBEq β] {seen items : List β} :
    repeats seen items = [] ↔ items.Nodup ∧ ∀ item ∈ items, item ∉ seen := by
  induction items generalizing seen with
  | nil => simp [repeats]
  | cons first rest ih =>
    rw [repeats, List.append_eq_nil_iff, ih, List.nodup_cons]
    simp only [List.mem_cons, not_or, forall_eq_or_imp]
    constructor
    · rintro ⟨new, distinct, others⟩
      refine ⟨⟨fun member => (others first member).1 rfl, distinct⟩, ?_,
        fun item member => (others item member).2⟩
      intro present
      simp [present] at new
    · rintro ⟨⟨unique, distinct⟩, new, others⟩
      refine ⟨by simp [new], distinct, fun item member => ⟨?_, others item member⟩⟩
      rintro rfl
      exact unique member

theorem edgeProblems_eq_nil {graph : Graph α} {edge : Edge} :
    graph.edgeProblems edge = [] ↔ edge.source ∈ graph.ids ∧ edge.target ∈ graph.ids := by
  rw [edgeProblems, List.append_eq_nil_iff]
  simp

theorem strays_eq_nil {graph : Graph α} {start : String} :
    graph.strays start = [] ↔ ∀ node ∈ graph.nodes,
      graph.Reaches start node.id ∨ node.kind = .finish ∧ graph.incoming node.id = [] := by
  rw [strays, List.filter_eq_nil_iff]
  apply forall₂_congr
  intro node _
  simp only [Bool.and_eq_true, Bool.not_eq_true', Bool.and_eq_false_iff, not_and, not_or,
    ← graph.mem_reachableFrom]
  by_cases reached : node.id ∈ graph.reachableFrom start <;> simp [reached]

theorem problems_eq_nil {graph : Graph α} : graph.problems = [] ↔ graph.Sound := by
  rw [problems]
  simp only [List.append_eq_nil_iff, List.map_eq_nil_iff, repeats_eq_nil,
    List.flatMap_eq_nil_iff, edgeProblems_eq_nil]
  constructor
  · rintro ⟨⟨⟨⟨⟨distinct, single⟩, ends⟩, templates⟩, joined⟩, reached⟩
    have one : (graph.nodesOfKind .start).length = 1 := by simpa using single
    obtain ⟨start, starts⟩ := List.length_eq_one_iff.mp one
    rw [starts] at reached
    exact ⟨hasDuplicates_eq_false.mp (by simpa using distinct), by simpa using ends, templates.1,
      joined, start, starts, strays_eq_nil.mp (List.map_eq_nil_iff.mp reached)⟩
  · rintro ⟨distinct, ends, templates, joined, start, starts, reached⟩
    rw [starts]
    exact ⟨⟨⟨⟨⟨by simp [hasDuplicates_eq_false.mpr distinct], by simp⟩, by simp [ends]⟩,
      templates, fun _ _ => List.not_mem_nil⟩, joined⟩,
      List.map_eq_nil_iff.mpr (strays_eq_nil.mpr reached)⟩

end Graph

end ReplyFlow
