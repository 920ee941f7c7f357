import Mathlib.Data.List.Nodup
import ReplyFlow.Proofs.Graph.Soundness

/-! The verdict on a graph depends on which nodes and edges there are, not on their order.

The check looks nodes up by kind, compares lists of ids, follows edges from the start and passes
over some rules where others are broken. What it comes to is said here of single nodes and edges.
-/

set_option autoImplicit false

namespace ReplyFlow

variable {α : Type}

namespace Graph

variable {graph other : Graph α}

/-- The structural rules, one by one. -/
structure Regular (graph : Graph α) : Prop where
  distinct : graph.nodes.Pairwise fun first second => first.id ≠ second.id
  start : graph.nodes.countP (·.kind = .start) = 1
  finish : ∃ node ∈ graph.nodes, node.kind = .finish
  templates : graph.nodes.Pairwise fun first second =>
    first.kind = .message → second.kind = .message → first.templateId? ≠ second.templateId?
  joined : ∀ edge ∈ graph.edges, (∃ node ∈ graph.nodes, node.id = edge.source) ∧
    ∃ node ∈ graph.nodes, node.id = edge.target
  entered : ∀ node ∈ graph.nodes,
    (∃ start ∈ graph.nodes, start.kind = .start ∧ graph.Reaches start.id node.id) ∨
      node.kind = .finish ∧ ∀ edge ∈ graph.edges, edge.target ≠ node.id

theorem nodup_ids_iff :
    graph.ids.Nodup ↔ graph.nodes.Pairwise fun first second => first.id ≠ second.id :=
  List.pairwise_map

theorem nodup_messageTemplates_iff :
    graph.messageTemplates.Nodup ↔ graph.nodes.Pairwise fun first second =>
      first.kind = .message → second.kind = .message →
        first.templateId? ≠ second.templateId? := by
  rw [messageTemplates_eq_filterMap, List.Nodup, List.pairwise_filterMap]
  apply iff_of_eq
  congr
  funext first second
  simp only [← Node.exists_templateId_iff, eq_iff_iff]
  constructor
  · rintro apart ⟨id, named⟩ ⟨id', named'⟩ same
    exact apart id named id' named' (Option.some.inj (named.symm.trans (same.trans named')))
  · intro apart id named id' named' same
    exact apart ⟨id, named⟩ ⟨id', named'⟩ (by rw [named, named', same])

theorem mem_nodesOfKind {kind : NodeKind} {node : Node α} :
    node ∈ graph.nodesOfKind kind ↔ node ∈ graph.nodes ∧ node.kind = kind := by
  simp [nodesOfKind]

theorem mem_ids_iff {id : String} : id ∈ graph.ids ↔ ∃ node ∈ graph.nodes, node.id = id :=
  List.mem_map

theorem incoming_eq_nil_iff {id : String} :
    graph.incoming id = [] ↔ ∀ edge ∈ graph.edges, edge.target ≠ id := by
  simp [incoming, List.filter_eq_nil_iff]

theorem sound_iff_regular : graph.Sound ↔ graph.Regular := by
  constructor
  · rintro ⟨distinct, ends, templates, joined, start, starts, reached⟩
    have first : start ∈ graph.nodesOfKind .start := starts ▸ List.mem_cons_self
    obtain ⟨present, opens⟩ := mem_nodesOfKind.mp first
    obtain ⟨finish, last⟩ := List.exists_mem_of_ne_nil _ ends
    refine ⟨nodup_ids_iff.mp distinct, ?_, ⟨finish, mem_nodesOfKind.mp last⟩,
      nodup_messageTemplates_iff.mp templates,
      fun edge member => (joined edge member).imp mem_ids_iff.mp mem_ids_iff.mp,
      fun node member => (reached node member).imp (fun path => ⟨start, present, opens, path⟩)
        (.imp_right incoming_eq_nil_iff.mp)⟩
    have single := congrArg List.length starts
    rwa [nodesOfKind, ← List.countP_eq_length_filter] at single
  · rintro ⟨distinct, single, ⟨finish, member, last⟩, templates, joined, entered⟩
    have one : (graph.nodesOfKind .start).length = 1 := by
      rwa [nodesOfKind, ← List.countP_eq_length_filter]
    obtain ⟨start, starts⟩ := List.length_eq_one_iff.mp one
    refine ⟨nodup_ids_iff.mpr distinct, List.ne_nil_of_mem (mem_nodesOfKind.mpr ⟨member, last⟩),
      nodup_messageTemplates_iff.mpr templates,
      fun edge present => (joined edge present).imp mem_ids_iff.mpr mem_ids_iff.mpr,
      start, starts, fun node present => (entered node present).imp ?_
        (.imp_right incoming_eq_nil_iff.mpr)⟩
    -- what starts a path is the one start that there is
    rintro ⟨first, known, opens, path⟩
    have same : first ∈ [start] := starts ▸ mem_nodesOfKind.mpr ⟨known, opens⟩
    rwa [← List.mem_singleton.mp same]

theorem joins_congr (edges : other.edges.Perm graph.edges) : other.Joins = graph.Joins := by
  funext source target
  simp [Joins, edges.mem_iff]

/-- The rules do not speak of the order of nodes and edges. -/
theorem Regular.of_perm (regular : graph.Regular) (nodes : other.nodes.Perm graph.nodes)
    (edges : other.edges.Perm graph.edges) : other.Regular where
  distinct := (nodes.pairwise_iff fun apart => apart.symm).mpr regular.distinct
  start := (nodes.countP_eq _).trans regular.start
  finish := by simpa only [nodes.mem_iff] using regular.finish
  templates :=
    (nodes.pairwise_iff fun apart named named' => (apart named' named).symm).mpr regular.templates
  joined := by simpa only [nodes.mem_iff, edges.mem_iff] using regular.joined
  entered := by
    simpa only [nodes.mem_iff, edges.mem_iff, Reaches, joins_congr edges] using regular.entered

/-- A graph has no problems exactly if it keeps to the structural rules, and so its nodes and edges
may be put into any other order. -/
theorem problemTexts_nil_iff (graph : Graph α) :
    (graph.problemTexts = [] ↔ graph.Regular) ∧
      ∀ other : Graph α, other.nodes.Perm graph.nodes → other.edges.Perm graph.edges →
        (other.problemTexts = [] ↔ graph.problemTexts = []) := by
  have verdict (graph : Graph α) : graph.problemTexts = [] ↔ graph.Regular := by
    rw [problemTexts, List.map_eq_nil_iff, problems_eq_nil, sound_iff_regular]
  refine ⟨verdict graph, fun other nodes edges => ?_⟩
  rw [verdict, verdict]
  exact ⟨fun regular => regular.of_perm nodes.symm edges.symm,
    fun regular => regular.of_perm nodes edges⟩

end Graph

end ReplyFlow
