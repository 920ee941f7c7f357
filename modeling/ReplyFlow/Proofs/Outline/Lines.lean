import Mathlib.Data.List.Nodup
import ReplyFlow.Outline.Printer
import ReplyFlow.Proofs.Compile.Naming
import ReplyFlow.Proofs.Graph.Paths

/-! The lines of an outline.

The traversal is told here without a bound on its calls: it is a relation between what was reached
before and the lines that come of it. Every id is followed when it is reached for the first time, so
the lines without a mark name each id that can be reached, and all lines together name each edge
that leads away from one. They also tell how many calls the traversal takes, and it is broken off
where there are fewer.
-/

set_option autoImplicit false

namespace ReplyFlow

namespace Graph

variable {α : Type}

/-- Edges are listed in turn when some ids have been reached. What lies below a target that is
reached for the first time comes right after its line. -/
inductive Traverses (graph : Graph α) :
    Nat → List Edge → List String → List FlowLine → List String → Prop where
  | done (depth : Nat) (reached : List String) : Traverses graph depth [] reached [] reached
  | again {depth : Nat} {edge : Edge} {rest : List Edge} {reached after : List String}
      {lines : List FlowLine} : edge.target ∈ reached →
      Traverses graph depth rest reached lines after →
      Traverses graph depth (edge :: rest) reached (⟨depth, edge, true⟩ :: lines) after
  | enter {depth : Nat} {edge : Edge} {rest : List Edge} {reached between after : List String}
      {inside lines : List FlowLine} : edge.target ∉ reached →
      Traverses graph (depth + 1) (graph.outgoing edge.target) (edge.target :: reached) inside
        between →
      Traverses graph depth rest between lines after →
      Traverses graph depth (edge :: rest) reached (⟨depth, edge, false⟩ :: inside ++ lines) after

/-- The targets that are reached for the first time, in order. -/
def entered (lines : List FlowLine) : List String :=
  (lines.filter (!·.again)).map (·.edge.target)

@[simp] theorem entered_nil : entered [] = [] := rfl

@[simp] theorem entered_again (depth : Nat) (edge : Edge) (lines : List FlowLine) :
    entered (⟨depth, edge, true⟩ :: lines) = entered lines := rfl

@[simp] theorem entered_new (depth : Nat) (edge : Edge) (lines : List FlowLine) :
    entered (⟨depth, edge, false⟩ :: lines) = edge.target :: entered lines := rfl

@[simp] theorem entered_append (first second : List FlowLine) :
    entered (first ++ second) = entered first ++ entered second := by
  simp [entered]

section

variable {graph : Graph α} {depth : Nat} {edges : List Edge} {reached after : List String}
  {lines : List FlowLine}

namespace Traverses

theorem after_eq (traverses : graph.Traverses depth edges reached lines after) :
    after = (entered lines).reverse ++ reached := by
  induction traverses with
  | done => rfl
  | again _ _ ih => simpa using ih
  | enter _ _ _ inner rest => simp [rest, inner]

theorem subset (traverses : graph.Traverses depth edges reached lines after) : reached ⊆ after := by
  rw [traverses.after_eq]
  exact List.subset_append_right _ _

theorem nodup (traverses : graph.Traverses depth edges reached lines after)
    (distinct : reached.Nodup) : after.Nodup := by
  induction traverses with
  | done => exact distinct
  | again _ _ ih => exact ih distinct
  | enter new _ _ inner rest => exact rest (inner (List.nodup_cons.mpr ⟨new, distinct⟩))

/-- The lines are for the given edges and for all that lead away from an id that is entered. -/
theorem perm_edges (traverses : graph.Traverses depth edges reached lines after) :
    (lines.map FlowLine.edge).Perm (edges ++ (entered lines).flatMap graph.outgoing) := by
  induction traverses with
  | done => exact .refl _
  | again _ _ ih => exact ih.cons _
  | enter _ _ _ inside outside =>
    simp only [List.map_cons, List.map_append, List.cons_append, entered_new, entered_append,
      List.flatMap_cons, List.flatMap_append]
    refine ((inside.append outside).trans ?_).cons _
    rw [← List.append_assoc (graph.outgoing _)]
    exact List.perm_append_comm_assoc _ _ _

theorem target_mem (traverses : graph.Traverses depth edges reached lines after) :
    ∀ line ∈ lines, line.edge.target ∈ after := by
  induction traverses with
  | done => nofun
  | again known traverses ih =>
    intro line member
    rcases List.mem_cons.mp member with rfl | member
    · exact traverses.subset known
    · exact ih line member
  | enter _ inner outer inside outside =>
    intro line member
    rcases List.mem_append.mp member with member | member
    · rcases List.mem_cons.mp member with rfl | member
      · exact outer.subset (inner.subset List.mem_cons_self)
      · exact outer.subset (inside line member)
    · exact outside line member

/-- What is entered lies on a path from the source of a given edge. -/
theorem reaches (traverses : graph.Traverses depth edges reached lines after) {source : String}
    (known : ∀ edge ∈ edges, edge ∈ graph.edges ∧ graph.Reaches source edge.source) :
    ∀ id ∈ entered lines, graph.Reaches source id := by
  induction traverses with
  | done => nofun
  | again _ _ ih => exact ih fun edge member => known edge (List.mem_cons_of_mem _ member)
  | @enter _ edge _ _ _ _ _ _ _ _ _ inside outside =>
    obtain ⟨present, path⟩ := known edge List.mem_cons_self
    have here : graph.Reaches source edge.target := path.tail ⟨edge, present, rfl, rfl⟩
    have below : ∀ next ∈ graph.outgoing edge.target,
        next ∈ graph.edges ∧ graph.Reaches source next.source := by
      intro next member
      obtain ⟨present, leaves⟩ := graph.mem_outgoing.mp member
      exact ⟨present, leaves ▸ here⟩
    intro id member
    simp only [List.cons_append, entered_new, entered_append, List.mem_cons, List.mem_append]
      at member
    rcases member with rfl | member | member
    · exact here
    · exact inside below id member
    · exact outside (fun next member => known next (List.mem_cons_of_mem _ member)) id member

end Traverses

/-- A line is marked exactly if its target was reached before: at first, or by an earlier line that
is not marked. -/
def Marked (reached : List String) : List FlowLine → Prop
  | [] => True
  | line :: rest =>
    (line.again = true ↔ line.edge.target ∈ reached) ∧
      Marked ((entered [line]).reverse ++ reached) rest

theorem marked_append {first second : List FlowLine} :
    Marked reached (first ++ second) ↔
      Marked reached first ∧ Marked ((entered first).reverse ++ reached) second := by
  induction first generalizing reached with
  | nil => simp [Marked]
  | cons line rest ih =>
    have both : (entered (line :: rest)).reverse ++ reached =
        (entered rest).reverse ++ ((entered [line]).reverse ++ reached) := by
      rw [← List.append_assoc, ← List.reverse_append, ← entered_append]
      rfl
    rw [List.cons_append, Marked, Marked, ih, both, and_assoc]

theorem Traverses.marked (traverses : graph.Traverses depth edges reached lines after) :
    Marked reached lines := by
  induction traverses with
  | done => trivial
  | again known _ ih => exact ⟨iff_of_true rfl known, ih⟩
  | enter new inner _ inside outside =>
    refine ⟨iff_of_false Bool.false_ne_true new, marked_append.mpr ⟨inside, ?_⟩⟩
    rw [inner.after_eq] at outside
    exact outside

theorem Marked.iff_of_eq {before later : List FlowLine} {line : FlowLine}
    (marked : Marked reached lines) (split : lines = before ++ line :: later) :
    line.again = true ↔ line.edge.target ∈ reached ∨
      ∃ earlier ∈ before, earlier.again = false ∧ earlier.edge.target = line.edge.target := by
  rw [split, marked_append, Marked] at marked
  rw [marked.2.1, List.mem_append, List.mem_reverse, Or.comm]
  simp [entered, and_assoc]

/-! ### The traversal ends -/

/-- When an id is reached, the edge that led there is used up. -/
theorem unfound_lt {edge : Edge} (present : edge ∈ graph.edges) (new : edge.target ∉ reached) :
    graph.unfound (edge.target :: reached) < graph.unfound reached := by
  have split : graph.unfound (edge.target :: reached) =
      ((graph.edges.filter (!reached.contains ·.target)).filter
        (·.target != edge.target)).length := by
    rw [unfound, List.countP_eq_length_filter, List.filter_filter]
    congr 2
    funext other
    rw [List.contains_cons, Bool.not_or]
    rfl
  rw [split, unfound, List.countP_eq_length_filter, List.length_filter_lt_length_iff_exists]
  exact ⟨edge, List.mem_filter.mpr ⟨present, by simpa using new⟩, by simp⟩

theorem unfound_mono {found more : List String} (subset : found ⊆ more) :
    graph.unfound more ≤ graph.unfound found := by
  refine List.countP_mono_left fun edge _ absent => ?_
  simp only [Bool.not_eq_true', ← Bool.not_eq_true, List.contains_iff_mem] at absent ⊢
  exact fun member => absent (subset member)

/-- Edges are traversed if targets are, as long as few enough edges lead to ids that have not been
reached. -/
theorem exists_traverses_edges {levels : Nat}
    (enters : ∀ depth id reached, graph.unfound (id :: reached) < levels →
      ∃ lines after, graph.Traverses depth (graph.outgoing id) (id :: reached) lines after)
    {edges : List Edge} (present : edges ⊆ graph.edges) (depth : Nat) {reached : List String}
    (few : graph.unfound reached ≤ levels) :
    ∃ lines after, graph.Traverses depth edges reached lines after := by
  induction edges generalizing reached with
  | nil => exact ⟨[], reached, .done depth reached⟩
  | cons edge rest ih =>
    obtain ⟨here, others⟩ := List.cons_subset.mp present
    by_cases known : edge.target ∈ reached
    · obtain ⟨lines, after, listed⟩ := ih others few
      exact ⟨_, after, .again known listed⟩
    · obtain ⟨inside, between, inner⟩ := enters (depth + 1) edge.target reached
        (Nat.lt_of_lt_of_le (unfound_lt here known) few)
      have subset : reached ⊆ between :=
        List.Subset.trans (List.subset_cons_self _ _) inner.subset
      obtain ⟨lines, after, listed⟩ := ih others (Nat.le_trans (unfound_mono subset) few)
      exact ⟨_, after, .enter known inner listed⟩

/-- The traversal ends by itself. -/
theorem exists_traverses (graph : Graph α) (start : String) :
    ∃ lines after, graph.Traverses 0 (graph.outgoing start) [start] lines after := by
  -- on the number of edges to ids that have not been reached
  have below (levels : Nat) : ∀ depth id reached, graph.unfound (id :: reached) < levels →
      ∃ lines after, graph.Traverses depth (graph.outgoing id) (id :: reached) lines after := by
    induction levels with
    | zero => exact fun _ _ _ few => absurd few (Nat.not_lt_zero _)
    | succ levels ih =>
      exact fun depth id reached few => exists_traverses_edges ih (List.filter_subset_self _) depth
        (Nat.le_of_lt_succ few)
  exact below (graph.edges.length + 1) 0 start [] (Nat.lt_succ_of_le List.countP_le_length)

/-! ### The calls that a traversal takes -/

/-- How many calls are inside one another at most: one follows the start, and one more each id that
is entered. -/
def nesting (lines : List FlowLine) : Nat :=
  lines.foldr (fun line most => if line.again then most else max (line.depth + 2) most) 1

@[simp] theorem nesting_nil : nesting [] = 1 := rfl

@[simp] theorem nesting_again (depth : Nat) (edge : Edge) (lines : List FlowLine) :
    nesting (⟨depth, edge, true⟩ :: lines) = nesting lines := rfl

@[simp] theorem nesting_new (depth : Nat) (edge : Edge) (lines : List FlowLine) :
    nesting (⟨depth, edge, false⟩ :: lines) = max (depth + 2) (nesting lines) := rfl

theorem one_le_nesting (lines : List FlowLine) : 1 ≤ nesting lines := by
  induction lines with
  | nil => exact Nat.le_refl 1
  | cons line rest ih =>
    obtain ⟨depth, edge, again⟩ := line
    cases again with
    | true => exact ih
    | false => exact Nat.le_trans ih (Nat.le_max_right _ _)

theorem nesting_append (first second : List FlowLine) :
    nesting (first ++ second) = max (nesting first) (nesting second) := by
  induction first with
  | nil => exact (Nat.max_eq_right (one_le_nesting second)).symm
  | cons line rest ih =>
    obtain ⟨depth, edge, again⟩ := line
    cases again <;> simp [ih, Nat.max_assoc]

/-- Each call enters another id. -/
theorem Traverses.nesting_le (traverses : graph.Traverses depth edges reached lines after) :
    nesting lines ≤ depth + 1 + (entered lines).length := by
  induction traverses with
  | done => simp
  | again _ _ ih => simpa using ih
  | enter _ _ _ inside outside =>
    simp only [List.cons_append, nesting_new, nesting_append, entered_new, entered_append,
      List.length_cons, List.length_append]
    omega

/-- The edges are listed as they are traversed if there are calls enough, and else the listing is
broken off. -/
theorem Traverses.listEdges_eq (traverses : graph.Traverses depth edges reached lines after)
    (calls : Nat) : listEdges (graph.flowBelow calls (depth + 1)) depth edges reached =
      if nesting lines ≤ depth + 1 + calls then .ok (lines, after) else .error .calls := by
  induction traverses generalizing calls with
  | done => rw [listEdges, nesting_nil, if_pos (by omega)]
  | again known _ ih =>
    rw [listEdges, if_pos (List.contains_iff_mem.mpr known), ih, nesting_again]
    split <;> rfl
  | @enter depth edge rest reached between after inside lines new _ _ insideIH restIH =>
    rw [listEdges, if_neg (mt List.contains_iff_mem.mp new), List.cons_append, nesting_new,
      nesting_append]
    cases calls with
    | zero =>
      rw [if_neg (by omega)]
      rfl
    | succ calls =>
      -- One call less is left inside; what stands beside has all of them again.
      rw [flowBelow, insideIH]
      by_cases inner : nesting inside ≤ depth + 1 + 1 + calls
      · rw [if_pos inner]
        dsimp only [bind, Except.bind]
        rw [restIH]
        by_cases outer : nesting lines ≤ depth + 1 + (calls + 1)
        · rw [if_pos outer, if_pos (by omega)]
          rfl
        · rw [if_neg outer, if_neg (by omega)]
      · rw [if_neg inner, if_neg (by omega)]
        rfl

theorem Traverses.flowBelow_eq {start : String}
    (traverses : graph.Traverses 0 (graph.outgoing start) [start] lines after) (calls : Nat) :
    graph.flowBelow calls 0 start [] =
      if nesting lines ≤ calls then .ok (lines, after) else .error .calls := by
  cases calls with
  | zero => rw [flowBelow, if_neg (Nat.not_le_of_lt (one_le_nesting lines))]
  | succ calls =>
    rw [flowBelow, traverses.listEdges_eq, Nat.zero_add, Nat.add_comm 1]

/-! ### What is listed below a start -/

section

variable {start : String}
  (traverses : graph.Traverses depth (graph.outgoing start) [start] lines after)

include traverses

/-- The lines are for all edges that lead away from what has been reached. -/
theorem Traverses.perm_outgoing :
    (lines.map FlowLine.edge).Perm ((start :: entered lines).flatMap graph.outgoing) :=
  traverses.perm_edges

theorem Traverses.mem_iff {id : String} : id ∈ after ↔ graph.Reaches start id := by
  constructor
  · intro member
    rw [traverses.after_eq, List.mem_append, List.mem_reverse, List.mem_singleton] at member
    rcases member with entered | rfl
    · refine traverses.reaches (fun edge leaves => ?_) id entered
      obtain ⟨present, source⟩ := graph.mem_outgoing.mp leaves
      exact ⟨present, source ▸ .refl⟩
    · exact .refl
  · intro path
    -- Each edge away from what was reached has its line, and the target of a line is reached.
    induction path with
    | refl => exact traverses.subset (List.mem_singleton_self start)
    | @tail id next _ joined member =>
      obtain ⟨edge, present, source, rfl⟩ := joined
      have listed : edge ∈ lines.map FlowLine.edge := by
        rw [traverses.perm_outgoing.mem_iff, List.mem_flatMap]
        refine ⟨id, ?_, graph.mem_outgoing.mpr ⟨present, source⟩⟩
        rw [traverses.after_eq, List.mem_append, List.mem_reverse, List.mem_singleton] at member
        exact List.mem_cons.mpr member.symm
      obtain ⟨line, inside, rfl⟩ := List.mem_map.mp listed
      exact traverses.target_mem line inside

/-- Each id that can be reached is the start or is entered once. -/
theorem Traverses.perm_reachableFrom :
    (start :: entered lines).Perm (graph.reachableFrom start) := by
  obtain ⟨_, _, once, reached⟩ := graph.reachableFrom_exact start
  have same : (start :: entered lines).Perm after := by
    rw [traverses.after_eq]
    exact ((List.reverse_perm _).symm.cons start).trans (List.perm_append_singleton _ _).symm
  refine same.trans ((List.perm_ext_iff_of_nodup ?_ once).mpr fun id => ?_)
  · exact traverses.nodup (List.pairwise_singleton _ start)
  · rw [traverses.mem_iff, reached]

end

theorem perm_outgoing (graph : Graph α) {ids : List String} (distinct : ids.Nodup) :
    (ids.flatMap graph.outgoing).Perm (graph.edges.filter fun edge => ids.contains edge.source) := by
  induction ids with
  | nil => simp
  | cons id rest ih =>
    obtain ⟨new, distinct⟩ := List.nodup_cons.mp distinct
    have split := List.filter_append_perm (fun edge : Edge => edge.source == id)
      (graph.edges.filter fun edge => (id :: rest).contains edge.source)
    rw [List.filter_filter, List.filter_filter] at split
    rw [List.flatMap_cons]
    -- the edges away from this id, and the others
    refine .trans (.append (.of_eq ?_) ((ih distinct).trans (.of_eq ?_))) split
    · refine List.filter_congr fun edge _ => ?_
      by_cases own : edge.source = id <;> simp [own]
    · refine List.filter_congr fun edge _ => ?_
      by_cases own : edge.source = id <;> simp [own, new]

end

/-! ### The printed lines -/

/-- A text begins, behind its indentation, with the mark of a target that was reached before. -/
def hasMark (text : String) : Bool :=
  (text.toList.dropWhile (· == ' ')).head? == some '↺'

theorem hasMark_flowLineText (graph : Graph α) (line : FlowLine) :
    hasMark (graph.flowLineText line) = line.again := by
  have indented (n : Nat) (text : String) :
      hasMark (Outline.rule n ' ' ++ text) = hasMark text := by
    rw [hasMark, Outline.rule, String.toList_append, String.toList_ofList,
      List.dropWhile_append_of_pos fun c member => beq_iff_eq.mpr (List.eq_of_mem_replicate member)]
    rfl
  rw [flowLineText, String.append_assoc, String.append_assoc, indented, hasMark,
    String.toList_append]
  cases line.again <;> rfl

/-- The lines of the outline below the one start of a graph. -/
structure Charts (graph : Graph α) (start : String) (lines : List FlowLine) : Prop where
  /-- The traversal ends by itself. -/
  ends : ∃ reached, graph.Traverses 0 (graph.outgoing start) [start] lines reached
  edges : (lines.map FlowLine.edge).Perm
    (graph.edges.filter fun edge => (graph.reachableFrom start).contains edge.source)
  targets : (start :: entered lines).Perm (graph.reachableFrom start)
  unmarked : ((lines.map graph.flowLineText).filter (!hasMark ·)).length =
    (graph.reachableFrom start).length - 1
  marks : ∀ before line later, lines = before ++ line :: later →
    hasMark (graph.flowLineText line) = line.again ∧
      (line.again = true ↔ line.edge.target = start ∨
        ∃ earlier ∈ before, earlier.again = false ∧ earlier.edge.target = line.edge.target)

theorem Traverses.charts {graph : Graph α} {start : String} {lines : List FlowLine}
    {after : List String}
    (traverses : graph.Traverses 0 (graph.outgoing start) [start] lines after) :
    graph.Charts start lines := by
  have targets := traverses.perm_reachableFrom
  have once := targets.nodup_iff.mpr (graph.reachableFrom_exact start).2.2.1
  refine ⟨⟨_, traverses⟩, ?_, targets, ?_, ?_⟩
  · refine traverses.perm_outgoing.trans ((graph.perm_outgoing once).trans (.of_eq ?_))
    refine List.filter_congr fun edge _ => ?_
    rw [Bool.eq_iff_iff, List.contains_iff_mem, List.contains_iff_mem, targets.mem_iff]
  · have new : (lines.map graph.flowLineText).filter (!hasMark ·) =
        (lines.filter (!·.again)).map graph.flowLineText := by
      simp only [List.filter_map, Function.comp_def, hasMark_flowLineText]
    have size : (entered lines).length + 1 = (graph.reachableFrom start).length :=
      targets.length_eq
    rw [new, List.length_map, ← size]
    exact (List.length_map _).symm
  · intro before line later split
    refine ⟨graph.hasMark_flowLineText line, ?_⟩
    rw [traverses.marked.iff_of_eq split, List.mem_singleton]

/-- The outline of a graph with one start has a line for the start and one for each edge that leads
away from an id that can be reached, as long as there are calls enough to follow what is nested most
deeply. It takes no more calls than there are ids that can be reached; where there are too few, no
line is printed. -/
theorem flow_charts (graph : Graph α) {start : Node α}
    (single : graph.nodesOfKind .start = [start]) :
    ∃ lines, graph.Charts start.id lines ∧
      nesting lines ≤ (graph.reachableFrom start.id).length ∧
      ∀ calls,
        (nesting lines ≤ calls → graph.flow calls = .ok [(start, lines)] ∧
          graph.flowTexts calls =
            .ok (graph.title start.id :: lines.map graph.flowLineText)) ∧
        (calls < nesting lines →
          graph.flow calls = .error .calls ∧ graph.flowTexts calls = .error .calls) := by
  obtain ⟨lines, after, traverses⟩ := graph.exists_traverses start.id
  have size : (entered lines).length + 1 = (graph.reachableFrom start.id).length :=
    traverses.perm_reachableFrom.length_eq
  refine ⟨lines, traverses.charts, ?_, fun calls => ⟨fun enough => ?_, fun few => ?_⟩⟩
  · have most := traverses.nesting_le
    omega
  · have flow : graph.flow calls = .ok [(start, lines)] := by
      rw [Graph.flow, single, flowOf, traverses.flowBelow_eq, if_pos enough]
      rfl
    refine ⟨flow, ?_⟩
    rw [flowTexts, flow]
    exact congrArg Except.ok (List.append_nil _)
  · have flow : graph.flow calls = .error .calls := by
      rw [Graph.flow, single, flowOf, traverses.flowBelow_eq, if_neg (Nat.not_le_of_lt few)]
      rfl
    refine ⟨flow, ?_⟩
    rw [flowTexts, flow]
    rfl

end Graph

namespace Samples

def opening : Node Float :=
  ⟨"start", .start, ⟨0, 0⟩, .marker "Begin" false none, rfl⟩

/-- Two edges lead from the start to one id, which leads back to it, to itself and to an id without
a node. One more edge leads away from an id that cannot be reached. -/
def knot : Graph Float :=
  ⟨[opening],
    [⟨"1", "start", "a", none⟩, ⟨"2", "a", "start", none⟩, ⟨"3", "a", "a", some "Again"⟩,
      ⟨"4", "a", "b", none⟩, ⟨"5", "start", "a", none⟩, ⟨"6", "c", "a", none⟩]⟩

example : knot.flowTexts 3 =
    .ok ["Begin", "└──→ a", "  ↺ Begin", "  ↺ a [Again]", "  └──→ b", "↺ a"] := by
  decide +kernel

end Samples

theorem Graph.flow_charts_knot :
    Samples.knot.nodesOfKind .start = [Samples.opening] ∧
      ∃ lines, Samples.knot.Charts Samples.opening.id lines ∧
        Graph.nesting lines ≤ (Samples.knot.reachableFrom Samples.opening.id).length := by
  have single : Samples.knot.nodesOfKind .start = [Samples.opening] := rfl
  obtain ⟨lines, charts, few, _⟩ := Samples.knot.flow_charts single
  exact ⟨single, lines, charts, few⟩

namespace Samples

def pathStart : Node Float :=
  ⟨Nat.repr 0, .start, ⟨0, 0⟩, .marker "Begin" false none, rfl⟩

def pathEdge (id : Nat) : Edge :=
  ⟨edgeName id.repr (id + 1).repr, id.repr, (id + 1).repr, none⟩

/-- A path of so many edges. Only its start has a node. -/
def path (length : Nat) : Graph Float :=
  ⟨[pathStart], (List.range length).map pathEdge⟩

theorem repr_injective {m n : Nat} (same : m.repr = n.repr) : m = n :=
  toDigits_injective (String.ofList_injective same)

theorem outgoing_path {length id : Nat} (before : id < length) :
    (path length).outgoing id.repr = [pathEdge id] := by
  have own : (fun edge : Edge => edge.source == id.repr) ∘ pathEdge = (· == id) := by
    funext other
    rw [Bool.eq_iff_iff, beq_iff_eq]
    exact beq_iff_eq.trans ⟨repr_injective, congrArg Nat.repr⟩
  have once : (List.range length).count id = 1 :=
    List.count_eq_one_of_mem List.nodup_range (List.mem_range.mpr before)
  rw [Graph.outgoing, path, List.filter_map, own, List.filter_beq, once]
  rfl

/-- Every id on the way is followed inside the call for the one before it. -/
theorem flowBelow_path {length calls depth id : Nat} {reached : List String}
    (short : id + calls ≤ length) (behind : ∀ other ∈ reached, ∃ k < id, other = k.repr) :
    (path length).flowBelow calls depth id.repr reached = .error .calls := by
  induction calls generalizing depth id reached with
  | zero => rfl
  | succ calls ih =>
    have older : ∀ other ∈ id.repr :: reached, ∃ k < id + 1, other = k.repr := by
      intro other member
      rcases List.mem_cons.mp member with rfl | old
      · exact ⟨id, Nat.lt_succ_self id, rfl⟩
      · obtain ⟨k, before, same⟩ := behind other old
        exact ⟨k, Nat.lt_succ_of_lt before, same⟩
    have new : (pathEdge id).target ∉ id.repr :: reached := by
      intro known
      obtain ⟨k, before, same⟩ := older _ known
      exact Nat.ne_of_gt before (repr_injective same)
    have below : (path length).flowBelow calls (depth + 1) (pathEdge id).target (id.repr :: reached) =
        .error .calls := ih (by omega) older
    rw [Graph.flowBelow, outgoing_path (by omega), Graph.listEdges,
      if_neg (mt List.contains_iff_mem.mp new), below]
    rfl

end Samples

/-- Nothing is printed of a path that is longer than there are calls, although each of its ids can be
reached. -/
theorem Graph.flowTexts_path :
    (Samples.path 1000).nodesOfKind .start = [Samples.pathStart] ∧
      (Samples.path 1000).flowTexts Limits.usual.calls = .error .calls := by
  refine ⟨rfl, ?_⟩
  have short : 0 + Limits.usual.calls ≤ 1000 := by decide
  have broken : (Samples.path 1000).flowBelow Limits.usual.calls 0 Samples.pathStart.id [] =
      .error .calls := Samples.flowBelow_path short (List.forall_mem_nil _)
  have single : (Samples.path 1000).nodesOfKind .start = [Samples.pathStart] := rfl
  rw [flowTexts, Graph.flow, single, flowOf, broken]
  rfl

end ReplyFlow
