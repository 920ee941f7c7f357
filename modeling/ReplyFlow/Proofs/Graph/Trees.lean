import Mathlib.Data.List.Nodup
import ReplyFlow.Graph.Integrity
import ReplyFlow.Proofs.Graph.Paths

/-! Trees in a graph, found by the order of its nodes.

Where every edge leads from an earlier node to a later one there is no cycle, and where moreover one
edge leads to every node but the first, the graph is a tree.
-/

set_option autoImplicit false

namespace ReplyFlow

theorem idxOf_lt_idxOf {β : Type} [BEq β] [LawfulBEq β] {items : List β} {first second : β}
    (distinct : items.Nodup) (order : [first, second].Sublist items) :
    items.idxOf first < items.idxOf second := by
  induction items with
  | nil => cases order
  | cons item rest ih =>
    obtain ⟨new, others⟩ := List.nodup_cons.mp distinct
    cases order with
    | cons _ later =>
      have apart {id : β} (member : id ∈ [first, second]) : item ≠ id :=
        fun same => new (same ▸ later.subset member)
      rw [List.idxOf_cons_ne _ (apart List.mem_cons_self),
        List.idxOf_cons_ne _ (apart (List.mem_cons_of_mem _ List.mem_cons_self))]
      exact Nat.succ_lt_succ (ih others later)
    | cons_cons _ later =>
      have apart : first ≠ second :=
        fun same => new (same ▸ List.singleton_sublist.mp later)
      rw [List.idxOf_cons_self, List.idxOf_cons_ne _ apart]
      exact Nat.succ_pos _

namespace Graph

variable {α : Type}

/-- The first id stands before the second one in the order of the nodes. -/
def Precedes (graph : Graph α) (earlier later : String) : Prop :=
  graph.ids.idxOf earlier < graph.ids.idxOf later

instance (graph : Graph α) (earlier later : String) : Decidable (graph.Precedes earlier later) :=
  inferInstanceAs (Decidable (_ < _))

/-- The graph without the edges between some pairs of ids. -/
def without (graph : Graph α) (pairs : List (String × String)) : Graph α :=
  { graph with edges := graph.edges.filter fun edge => (edge.source, edge.target) ∉ pairs }

/-- The graph without a node and the edges that lead to it. -/
def remove (graph : Graph α) (id : String) : Graph α :=
  ⟨graph.nodes.filter (·.id ≠ id), graph.edges.filter (·.target ≠ id)⟩

/-- A tree: nothing leads to its root, one edge leads to every other node, and all of them are
reached from the root. -/
structure IsTree (graph : Graph α) (root : String) : Prop where
  distinct : graph.ids.Nodup
  joined : ∀ edge ∈ graph.edges, edge.source ∈ graph.ids ∧ edge.target ∈ graph.ids
  rooted : root ∈ graph.ids
  orphan : graph.incoming root = []
  parent : ∀ id ∈ graph.ids, id ≠ root → (graph.incoming id).length = 1
  reached : ∀ id ∈ graph.ids, graph.Reaches root id

/-- No path of one or more edges leads back to where it starts. -/
def Acyclic (graph : Graph α) : Prop :=
  ∀ id, ¬ Relation.TransGen graph.Joins id id

variable {graph : Graph α} {root : String}

theorem ids_remove (graph : Graph α) (id : String) :
    (graph.remove id).ids = graph.ids.filter (· ≠ id) := by
  rw [ids, ids, List.filter_map]
  rfl

/-- Going back along the edges ends at the root, as each of them comes from an earlier node. -/
theorem reaches_of_forward
    (joined : ∀ edge ∈ graph.edges, edge.source ∈ graph.ids ∧ edge.target ∈ graph.ids)
    (parent : ∀ id ∈ graph.ids, id ≠ root → (graph.incoming id).length = 1)
    (forward : ∀ edge ∈ graph.edges, graph.Precedes edge.source edge.target) :
    ∀ id ∈ graph.ids, graph.Reaches root id := by
  intro id member
  induction place : graph.ids.idxOf id using Nat.strongRecOn generalizing id with
  | ind place ih =>
    by_cases top : id = root
    · rw [top]
      exact .refl
    · obtain ⟨edge, only⟩ := List.length_eq_one_iff.mp (parent id member top)
      have leads : edge ∈ graph.incoming id := only ▸ List.mem_cons_self
      obtain ⟨present, target⟩ := graph.mem_incoming.mp leads
      have earlier := forward edge present
      rw [Precedes, target, place] at earlier
      have source := ih _ earlier edge.source (joined edge present).1 rfl
      exact source.tail ⟨edge, present, rfl, target⟩

/-- Where edges lead forward, but for those to a last id that nothing leaves, there is no cycle. -/
theorem acyclic_of_forward {last : String} (closed : graph.outgoing last = [])
    (forward : ∀ edge ∈ graph.edges,
      edge.target = last ∨ graph.Precedes edge.source edge.target) : graph.Acyclic := by
  have leaving : ∀ source target, graph.Joins source target → source ≠ last := by
    rintro _ _ ⟨edge, present, rfl, _⟩ same
    have leaves : edge ∈ graph.outgoing last := graph.mem_outgoing.mpr ⟨present, same⟩
    rw [closed] at leaves
    cases leaves
  have ahead : ∀ source target, Relation.TransGen graph.Joins source target →
      target = last ∨ graph.Precedes source target := by
    intro source target path
    induction path with
    | single joins =>
      obtain ⟨edge, present, rfl, rfl⟩ := joins
      exact forward edge present
    | tail _ joins ih =>
      have before := ih.resolve_left (leaving _ _ joins)
      obtain ⟨edge, present, rfl, rfl⟩ := joins
      exact (forward edge present).imp_right (Nat.lt_trans before)
  intro id cycle
  rcases ahead id id cycle with final | earlier
  · obtain ⟨next, joins, _⟩ := Relation.TransGen.head'_iff.mp cycle
    exact leaving _ _ joins final
  · exact Nat.lt_irrefl _ earlier

end Graph

end ReplyFlow
