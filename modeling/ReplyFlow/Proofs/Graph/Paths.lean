import Mathlib.Data.List.Perm.Subperm
import Mathlib.Logic.Relation
import ReplyFlow.Graph.Query
import ReplyFlow.Proofs.Lists

/-! Paths in a graph, and the search that finds where they end.

The search keeps two sets of ids, those found and those among them that are still to be followed.
What has been found can be reached, and what can be reached is found unless an id on the way there
is pending. Every step uses up a pending id or an edge that led to a new one, so the search ends,
whichever of the pending ids it follows next.
-/

set_option autoImplicit false

namespace ReplyFlow

namespace Graph

variable {α : Type} (graph : Graph α)

/-- One edge leads from the first id to the second. -/
def Joins (source target : String) : Prop :=
  ∃ edge ∈ graph.edges, edge.source = source ∧ edge.target = target

/-- A path of zero or more edges leads from the first id to the second. -/
def Reaches : String → String → Prop :=
  Relation.ReflTransGen graph.Joins

theorem mem_outgoing {edge : Edge} {id : String} :
    edge ∈ graph.outgoing id ↔ edge ∈ graph.edges ∧ edge.source = id := by
  simp [outgoing]

theorem mem_incoming {edge : Edge} {id : String} :
    edge ∈ graph.incoming id ↔ edge ∈ graph.edges ∧ edge.target = id := by
  simp [incoming]

theorem mem_successors {source target : String} :
    target ∈ graph.successors source ↔ graph.Joins source target := by
  simp [successors, Joins, mem_outgoing, and_assoc]

/-- The successors of an id that have not been found before, each of them once. -/
def fresh (id : String) (found : List String) : List String :=
  ((graph.successors id).filter (!found.contains ·)).eraseDups

theorem mem_fresh {id next : String} {found : List String} :
    next ∈ graph.fresh id found ↔ graph.Joins id next ∧ next ∉ found := by
  rw [fresh, List.mem_eraseDups, List.mem_filter, mem_successors]
  simp

/-- Edges that lead to an id which has not been found. -/
def unfound (found : List String) : Nat :=
  graph.edges.countP fun edge => !found.contains edge.target

-- Fresh ids are distinct, so each of them uses up an edge of its own: this is what
-- bounds the number of steps by the number of edges.
theorem unfound_append_fresh (id : String) (found : List String) :
    graph.unfound (graph.fresh id found ++ found) + (graph.fresh id found).length
      ≤ graph.unfound found := by
  have ends : graph.fresh id found ⊆
      (graph.edges.filter fun edge => (graph.fresh id found).contains edge.target).map
        Edge.target := by
    intro next member
    obtain ⟨⟨edge, present, _, same⟩, _⟩ := graph.mem_fresh.mp member
    refine List.mem_map.mpr ⟨edge, List.mem_filter.mpr ⟨present, ?_⟩, same⟩
    rw [List.contains_iff_mem, same]
    exact member
  have distinct : (graph.fresh id found).Nodup := nodup_eraseDups _
  have size := (distinct.subperm ends).length_le
  rw [List.length_map, ← List.countP_eq_length_filter] at size
  have split := graph.edges.countP_eq_countP_filter_add
    (fun edge => !found.contains edge.target)
    (fun edge => (graph.fresh id found).contains edge.target)
  rw [List.countP_filter, List.countP_filter] at split
  have inside : graph.edges.countP (fun edge => !found.contains edge.target
      && (graph.fresh id found).contains edge.target)
      = graph.edges.countP fun edge => (graph.fresh id found).contains edge.target := by
    apply List.countP_congr
    intro edge _
    have new (member : edge.target ∈ graph.fresh id found) : edge.target ∉ found :=
      (graph.mem_fresh.mp member).2
    simpa using new
  have outside : graph.edges.countP (fun edge => !found.contains edge.target
      && !(graph.fresh id found).contains edge.target)
      = graph.unfound (graph.fresh id found ++ found) := by
    apply List.countP_congr
    intro edge _
    simp [and_comm]
  unfold unfound at *
  omega

/-! ### The search, in any order

What is found does not depend on which of the pending ids is followed next, so the steps of the
search are a relation here; the search above is one run of them.
-/

/-- A search on its way: the ids found, and those of them that are still to be followed. -/
structure Frontier where
  pending : List String
  found : List String

/-- One of the pending ids is followed: its new successors, in any order, are found and pending. -/
inductive Advances : Frontier → Frontier → Prop where
  | follow {before after fresh pending found : List String} (id : String)
    (new : fresh.Perm (graph.fresh id found)) (rest : pending.Perm (fresh ++ (before ++ after))) :
    Advances ⟨before ++ id :: after, found⟩ ⟨pending, fresh ++ found⟩

/-- So many ids are followed one after the other. -/
inductive Run : Nat → Frontier → Frontier → Prop where
  | done (frontier : Frontier) : Run 0 frontier frontier
  | next {steps : Nat} {first second last : Frontier} : graph.Advances first second →
    Run steps second last → Run (steps + 1) first last

/-- What there is left to do: ids to follow, and edges that may still lead to a new one. -/
def work (frontier : Frontier) : Nat :=
  frontier.pending.length + graph.unfound frontier.found

theorem unfound_congr {found other : List String} (same : ∀ id, id ∈ found ↔ id ∈ other) :
    graph.unfound found = graph.unfound other := by
  apply List.countP_congr
  intro edge _
  simp [same]

variable {graph} {source : String} {steps : Nat} {first last : Frontier}

theorem Advances.work_lt (advances : graph.Advances first last) :
    graph.work last < graph.work first := by
  cases advances with
  | @follow before after fresh pending found id new rest =>
    have fewer := graph.unfound_append_fresh id found
    have same : graph.unfound (fresh ++ found) = graph.unfound (graph.fresh id found ++ found) :=
      graph.unfound_congr fun other => by simp [new.mem_iff]
    have size := rest.length_eq
    rw [← new.length_eq, ← same] at fewer
    simp only [List.length_append] at size
    simp only [work, List.length_append, List.length_cons]
    omega

/-- However the search goes on, it ends. -/
theorem Run.work_le (run : graph.Run steps first last) :
    steps + graph.work last ≤ graph.work first := by
  induction run with
  | done => simp
  | next advances _ ih =>
    have less := advances.work_lt
    omega

/-- The id in front is followed. -/
theorem advances_search (graph : Graph α) (id : String) (pending found : List String) :
    graph.Advances ⟨id :: pending, found⟩
      ⟨graph.fresh id found ++ pending, graph.fresh id found ++ found⟩ :=
  @Advances.follow _ graph [] pending _ _ found id (.refl _) (.refl _)

theorem exists_advances (unsettled : first.pending ≠ []) :
    ∃ second, graph.Advances first second := by
  obtain ⟨pending, found⟩ := first
  cases pending with
  | nil => exact absurd rfl unsettled
  | cons id rest => exact ⟨_, graph.advances_search id rest found⟩

/-- The search follows the id in front until nothing is pending. -/
theorem exists_run_search {steps : Nat} {pending found : List String}
    (enough : graph.work ⟨pending, found⟩ ≤ steps) :
    ∃ count, graph.Run count ⟨pending, found⟩ ⟨[], graph.search steps pending found⟩ := by
  induction steps generalizing pending found with
  | zero =>
    have none : pending = [] := List.eq_nil_of_length_eq_zero (by simp only [work] at enough; omega)
    rw [none]
    exact ⟨0, .done _⟩
  | succ steps ih =>
    cases pending with
    | nil => exact ⟨0, .done _⟩
    | cons id pending =>
      have advances := graph.advances_search id pending found
      have less := advances.work_lt
      obtain ⟨count, run⟩ := @ih (graph.fresh id found ++ pending) (graph.fresh id found ++ found)
        (by omega)
      exact ⟨count + 1, .next advances run⟩

/-! ### What a search knows -/

/-- No edge leads out of what has been found, unless it starts at a pending id. -/
def ClosedBut (graph : Graph α) (pending found : List String) : Prop :=
  ∀ id ∈ found, id ∉ pending → ∀ next, graph.Joins id next → next ∈ found

/-- All that has been found can be reached, and what can be reached is found unless an id on the way
there is pending. -/
structure Explores (graph : Graph α) (source : String) (frontier : Frontier) : Prop where
  origin : source ∈ frontier.found
  distinct : frontier.found.Nodup
  reached : ∀ id ∈ frontier.found, graph.Reaches source id
  known : frontier.pending ⊆ frontier.found
  closed : graph.ClosedBut frontier.pending frontier.found

theorem explores_start (graph : Graph α) (source : String) :
    graph.Explores source ⟨[source], [source]⟩ where
  origin := List.mem_cons_self
  distinct := List.pairwise_singleton _ source
  reached id member := by
    rw [List.mem_singleton.mp member]
    exact .refl
  known := List.Subset.refl _
  closed id member settled := absurd member settled

theorem Explores.advance (explores : graph.Explores source first)
    (advances : graph.Advances first last) : graph.Explores source last := by
  cases advances with
  | @follow before after fresh pending found id new rest =>
    obtain ⟨origin, distinct, reached, known, closed⟩ := explores
    have followed : id ∈ found := known (List.mem_append_right _ List.mem_cons_self)
    have fresh_iff {next : String} : next ∈ fresh ↔ graph.Joins id next ∧ next ∉ found :=
      new.mem_iff.trans graph.mem_fresh
    constructor
    · exact List.mem_append_right _ origin
    · refine List.nodup_append.mpr ⟨new.nodup_iff.mpr (nodup_eraseDups _), distinct, ?_⟩
      rintro next inFresh _ inFound rfl
      exact (fresh_iff.mp inFresh).2 inFound
    · intro next member
      rcases List.mem_append.mp member with inFresh | inFound
      · exact (reached id followed).tail (fresh_iff.mp inFresh).1
      · exact reached next inFound
    · intro next member
      have parts := rest.subset member
      simp only [List.mem_append] at parts
      rcases parts with inFresh | inBefore | inAfter
      · exact List.mem_append_left _ inFresh
      · exact List.mem_append_right _ (known (List.mem_append_left _ inBefore))
      · exact List.mem_append_right _
          (known (List.mem_append_right _ (List.mem_cons_of_mem _ inAfter)))
    · intro other member settled next joined
      simp only [rest.mem_iff, List.mem_append, not_or] at settled
      -- what is fresh is pending now; what is settled was so before, or is the id just followed
      have inFound := (List.mem_append.mp member).resolve_left settled.1
      by_cases present : next ∈ found
      · exact List.mem_append_right _ present
      · by_cases same : other = id
        · exact List.mem_append_left _ (fresh_iff.mpr ⟨same ▸ joined, present⟩)
        · have others : other ∉ before ++ id :: after := by
            simp [same, settled.2.1, settled.2.2]
          exact absurd (closed other inFound others next joined) present

theorem Run.explores (run : graph.Run steps first last) (explores : graph.Explores source first) :
    graph.Explores source last := by
  induction run with
  | done => exact explores
  | next advances _ ih => exact ih (explores.advance advances)

/-- Where nothing is pending, the search has found the ends of all paths and nothing else. -/
theorem Explores.mem_found_iff (explores : graph.Explores source last) (settled : last.pending = [])
    {target : String} : target ∈ last.found ↔ graph.Reaches source target := by
  constructor
  · exact explores.reached target
  · intro path
    have closed := explores.closed
    rw [settled] at closed
    induction path with
    | refl => exact explores.origin
    | tail _ joined ih => exact closed _ ih List.not_mem_nil _ joined

theorem work_start (graph : Graph α) (source : String) :
    graph.work ⟨[source], [source]⟩ ≤ graph.edges.length + 1 := by
  have bound : graph.unfound [source] ≤ graph.edges.length := List.countP_le_length
  simp only [work, List.length_singleton]
  omega

theorem exists_run_reachableFrom (graph : Graph α) (source : String) :
    ∃ count, graph.Run count ⟨[source], [source]⟩ ⟨[], graph.reachableFrom source⟩ :=
  exists_run_search (graph.work_start source)

theorem mem_reachableFrom (graph : Graph α) {source target : String} :
    target ∈ graph.reachableFrom source ↔ graph.Reaches source target := by
  obtain ⟨_, run⟩ := graph.exists_run_reachableFrom source
  exact (run.explores (graph.explores_start source)).mem_found_iff rfl

/-- A search from an id, in whatever order it follows the ids that it finds, comes to an end within
one step more than there are edges. It goes on as long as an id is pending, and has found then
exactly the ends of the paths from that id, each of them once. The ids that are reachable come from
one such search. -/
theorem reachableFrom_exact (graph : Graph α) (source : String) :
    (∀ (steps : Nat) (last : Frontier), graph.Run steps ⟨[source], [source]⟩ last →
      steps ≤ graph.edges.length + 1 ∧
      (last.pending ≠ [] → ∃ next, graph.Advances last next) ∧
      (last.pending = [] →
        last.found.Nodup ∧ ∀ target, target ∈ last.found ↔ graph.Reaches source target)) ∧
    (∃ steps, graph.Run steps ⟨[source], [source]⟩ ⟨[], graph.reachableFrom source⟩) ∧
    (graph.reachableFrom source).Nodup ∧
    ∀ target, target ∈ graph.reachableFrom source ↔ graph.Reaches source target := by
  obtain ⟨count, run⟩ := graph.exists_run_reachableFrom source
  refine ⟨fun steps last found => ?_, ⟨count, run⟩, ?_, fun target => graph.mem_reachableFrom⟩
  · have explores := found.explores (graph.explores_start source)
    have spent := found.work_le
    have whole := graph.work_start source
    exact ⟨by omega, exists_advances, fun settled =>
      ⟨explores.distinct, fun _ => explores.mem_found_iff settled⟩⟩
  · exact (run.explores (graph.explores_start source)).distinct

end Graph

end ReplyFlow
