import Mathlib.Tactic.Ring
import ReplyFlow.Canvas.Codec
import ReplyFlow.Proofs.Graph.Verdict
import ReplyFlow.Proofs.Layout.Exact

/-! Plans with exact coordinates.

A curve arrives level with its end, so its arrowhead points straight to the right or to the left. It
stays between the middle of one box and the side of another one, and the margin is wide enough for
the arrowhead.
-/

set_option autoImplicit false

namespace ReplyFlow

open Coordinate

/-! ### Curves -/

/-- The arrowhead of a level arrow; `heading` is 1 to the right and -1 to the left. -/
def Arrowhead.level (tip : Position ℚ) (heading : ℚ) : Arrowhead ℚ :=
  ⟨⟨tip.x - 10 * heading, tip.y + 7 / 2 * heading⟩, tip,
    ⟨tip.x - 10 * heading, tip.y - 7 / 2 * heading⟩⟩

/-- Two points on one level are never as far apart as nothing, unless they coincide: then the
direction is to the right. -/
theorem direction_of_level {control tip : Position ℚ} (level : control.y = tip.y) :
    direction control tip = ⟨if tip.x < control.x then -1 else 1, 0⟩ := by
  have length : root ((tip.x - control.x) * (tip.x - control.x)
      + (tip.y - control.y) * (tip.y - control.y)) = |tip.x - control.x| := by
    rw [level, sub_self, mul_zero, add_zero]
    exact Rat.sqrt_eq _
  have zero : (ofInt 0 : ℚ) = 0 := rfl
  have one : (ofInt 1 : ℚ) = 1 := rfl
  unfold direction
  simp only [zero, one]
  rw [length]
  rcases lt_trichotomy tip.x control.x with left | same | right
  · have negative : tip.x - control.x < 0 := sub_neg.mpr left
    rw [if_neg (by simpa using negative.ne), if_pos left, abs_of_neg negative, level, sub_self,
      zero_div, div_neg, div_self negative.ne]
  · rw [if_pos (by simp [same]), if_neg (by simp [same])]
  · have positive : 0 < tip.x - control.x := sub_pos.mpr right
    rw [if_neg (by simpa using positive.ne'), if_neg right.not_gt, abs_of_pos positive, level,
      sub_self, zero_div, div_self positive.ne']

theorem middle_eq (a b : ℚ) : middle a b = (a + b) / 2 := rfl

theorem Curve.arrowhead_between (start finish : Position ℚ) :
    (Curve.between start finish).arrowhead =
      .level finish (if finish.x < start.x then -1 else 1) := by
  have side : finish.x < middle start.x finish.x ↔ finish.x < start.x := by
    rw [middle_eq]
    constructor <;> intro less <;> linarith
  have length : (arrowLength : ℚ) = 10 := rfl
  have spread : (arrowSpread : ℚ) = 7 / 2 := rfl
  have arrives : (between start finish).secondControl.y = finish.y := rfl
  have along : direction (between start finish).secondControl finish =
      ⟨if finish.x < start.x then -1 else 1, 0⟩ := by
    rw [direction_of_level arrives]
    simp only [between, side]
  change Arrowhead.pointing (between start finish).secondControl finish = _
  rw [Arrowhead.pointing, along, length, spread, Arrowhead.level]
  generalize (if finish.x < start.x then -1 else 1 : ℚ) = heading
  simp only [Arrowhead.mk.injEq, Position.mk.injEq, true_and]
  refine ⟨⟨?_, ?_⟩, ?_, ?_⟩ <;> ring

/-! ### Boxes that can be found -/

namespace Graph

variable {α : Type} {graph : Graph α}

theorem lastNode?_eq_none_iff {id : String} : graph.lastNode? id = none ↔ id ∉ graph.ids := by
  rw [lastNode?, List.find?_eq_none, ids]
  simp

theorem mem_of_lastNode? {id : String} {node : Node α} (found : graph.lastNode? id = some node) :
    node ∈ graph.nodes ∧ node.id = id :=
  ⟨List.mem_reverse.mp (List.mem_of_find?_eq_some found), by simpa using List.find?_some found⟩

end Graph

namespace BoxSize

variable {α : Type} [Coordinate α] (size : BoxSize α) {graph : Graph α} {edge : Edge}

theorem edge_of_connector? {connector : Connector α}
    (made : size.connector? graph edge = some connector) : connector.edge = edge := by
  rw [connector?] at made
  split at made
  · cases made
    rfl
  · cases made

theorem isSome_connector? (size : BoxSize α) (graph : Graph α) (edge : Edge) :
    (size.connector? graph edge).isSome =
      (graph.ids.contains edge.source && graph.ids.contains edge.target) := by
  have found (id : String) : (graph.lastNode? id).isSome = graph.ids.contains id := by
    rw [Bool.eq_iff_iff, List.contains_iff_mem, Option.isSome_iff_ne_none, ne_eq,
      Graph.lastNode?_eq_none_iff, not_not]
  rw [← found, ← found, connector?]
  cases graph.lastNode? edge.source <;> cases graph.lastNode? edge.target <;> rfl

/-- There is a connector for each edge between two nodes, in the order of the edges. -/
theorem map_edge_connectors (size : BoxSize α) (graph : Graph α) :
    (graph.plan size).connectors.map Connector.edge =
      graph.edges.filter fun edge =>
        graph.ids.contains edge.source && graph.ids.contains edge.target := by
  change (graph.edges.filterMap (size.connector? graph)).map Connector.edge = _
  rw [List.map_filterMap, ← List.filterMap_eq_filter]
  refine List.filterMap_congr fun edge _ => ?_
  have known := size.isSome_connector? graph edge
  cases made : size.connector? graph edge with
  | none =>
    rw [made] at known
    simp only [Option.guard, ← known]
    rfl
  | some connector =>
    rw [made] at known
    simp only [Option.guard, ← known, Option.map_some, size.edge_of_connector? made]
    rfl

end BoxSize

/-! ### Where everything is drawn -/

/-- A connector leads from the middle of one box to the middle of the left side of another one. It
leaves and arrives level with its ends, and its arrowhead is turned to the side of the end. -/
structure Connector.Placed (connector : Connector ℚ) (source target : Box ℚ) : Prop where
  start : connector.curve.start =
    ⟨source.node.position.x + source.width / 2, source.node.position.y + source.height / 2⟩
  finish : connector.curve.finish =
    ⟨target.node.position.x, target.node.position.y + target.height / 2⟩
  firstControl : connector.curve.firstControl =
    ⟨(connector.curve.start.x + connector.curve.finish.x) / 2, connector.curve.start.y⟩
  secondControl : connector.curve.secondControl =
    ⟨(connector.curve.start.x + connector.curve.finish.x) / 2, connector.curve.finish.y⟩
  arrowhead : connector.curve.arrowhead = .level connector.curve.finish
    (if connector.curve.finish.x < connector.curve.start.x then -1 else 1)
  label : connector.labelPosition? = connector.edge.shownLabel?.map fun _ =>
    ⟨(connector.curve.start.x + connector.curve.finish.x) / 2,
      (connector.curve.start.y + connector.curve.finish.y) / 2⟩

/-- All points by which a connector is drawn. -/
def Connector.points (connector : Connector ℚ) : List (Position ℚ) :=
  [connector.curve.start, connector.curve.firstControl, connector.curve.secondControl,
    connector.curve.finish] ++ connector.curve.arrowhead.points ++ connector.labelPosition?.toList

/-- A point lies neither to the right of the canvas nor below it. -/
structure Plan.Spans (plan : Plan ℚ) (point : Position ℚ) : Prop where
  right : point.x ≤ plan.width
  bottom : point.y ≤ plan.height

namespace Graph

variable {graph : Graph ℚ} {size : BoxSize ℚ}

theorem placed_connector {edge : Edge} {connector : Connector ℚ}
    (distinct : graph.ids.Nodup) (made : size.connector? graph edge = some connector)
    {source target : Node ℚ} (left : source ∈ graph.nodes) (leaves : source.id = edge.source)
    (right : target ∈ graph.nodes) (arrives : target.id = edge.target) :
    connector.Placed (size.box source) (size.box target) := by
  have only {id : String} {node other : Node ℚ} (found : graph.lastNode? id = some node)
      (member : other ∈ graph.nodes) (own : other.id = id) : node = other := by
    obtain ⟨present, same⟩ := mem_of_lastNode? found
    exact List.inj_on_of_nodup_map distinct present member (same.trans own.symm)
  rw [BoxSize.connector?] at made
  split at made
  · next first second found known =>
    cases made
    cases only found left leaves
    cases only known right arrives
    exact ⟨rfl, rfl, rfl, rfl, Curve.arrowhead_between _ _, rfl⟩
  · cases made

/-- The margin is left free next to every box. -/
theorem margin_of_mem {box : Box ℚ} (member : box ∈ (graph.plan size).boxes) :
    box.right + 100 ≤ (graph.plan size).width ∧ box.bottom + 100 ≤ (graph.plan size).height := by
  have right := le_maximum (List.mem_map_of_mem (f := Box.right) member)
  have bottom := le_maximum (List.mem_map_of_mem (f := Box.bottom) member)
  exact ⟨add_le_add_left right 100, add_le_add_left bottom 100⟩

end Graph

/-- What is drawn of a connector lies within its ends, but for an arrowhead that is smaller than the
margin. -/
theorem Connector.Placed.spans {connector : Connector ℚ} {source target : Box ℚ} {plan : Plan ℚ}
    (placed : connector.Placed source target)
    (start : plan.Spans ⟨connector.curve.start.x + 100, connector.curve.start.y + 100⟩)
    (finish : plan.Spans ⟨connector.curve.finish.x + 100, connector.curve.finish.y + 100⟩) :
    ∀ point ∈ connector.points, plan.Spans point := by
  obtain ⟨startRight, startBottom⟩ := start
  obtain ⟨finishRight, finishBottom⟩ := finish
  dsimp only at startRight startBottom finishRight finishBottom
  have within {x y : ℚ} (right : x ≤ plan.width) (bottom : y ≤ plan.height) : plan.Spans ⟨x, y⟩ :=
    ⟨right, bottom⟩
  have arrowhead : ∀ point ∈ connector.curve.arrowhead.points, plan.Spans point := by
    rw [placed.arrowhead]
    simp only [Arrowhead.points, Arrowhead.level, List.forall_mem_cons]
    split <;> exact ⟨within (by linarith) (by linarith), ⟨by linarith, by linarith⟩,
      within (by linarith) (by linarith), nofun⟩
  have label : ∀ point ∈ connector.labelPosition?, plan.Spans point := by
    intro point shown
    rw [placed.label, Option.mem_map] at shown
    obtain ⟨_, _, rfl⟩ := shown
    exact within (by linarith) (by linarith)
  rw [points, placed.firstControl, placed.secondControl]
  simp only [List.forall_mem_append, List.forall_mem_cons, Option.mem_toList]
  exact ⟨⟨⟨⟨by linarith, by linarith⟩, within (by linarith) (by linarith),
    within (by linarith) (by linarith), ⟨by linarith, by linarith⟩, nofun⟩, arrowhead⟩, label⟩

namespace Graph

variable {size : BoxSize ℚ}

theorem exists_nodes_of_connector {graph : Graph ℚ} {connector : Connector ℚ}
    (member : connector ∈ (graph.plan size).connectors) :
    size.connector? graph connector.edge = some connector ∧
      (∃ source ∈ graph.nodes, source.id = connector.edge.source) ∧
      ∃ target ∈ graph.nodes, target.id = connector.edge.target := by
  obtain ⟨edge, _, made⟩ := List.mem_filterMap.mp member
  cases size.edge_of_connector? made
  have known := size.isSome_connector? graph connector.edge
  rw [made, Option.isSome_some, eq_comm, Bool.and_eq_true, List.contains_iff_mem,
    List.contains_iff_mem, mem_ids_iff, mem_ids_iff] at known
  exact ⟨made, known⟩

/-- A plan shows a graph in boxes of one size. -/
structure ShownBy (graph : Graph ℚ) (size : BoxSize ℚ) (plan : Plan ℚ) : Prop where
  boxes : plan.boxes.map Box.node = graph.nodes
  sizes : ∀ box ∈ plan.boxes, box.width = size.width ∧ box.height = size.height
  connectors : plan.connectors.map Connector.edge = graph.edges.filter fun edge =>
    graph.ids.contains edge.source && graph.ids.contains edge.target
  complete : graph.problemTexts = [] → plan.connectors.map Connector.edge = graph.edges
  placed : ∀ connector ∈ plan.connectors, ∀ source ∈ plan.boxes, ∀ target ∈ plan.boxes,
    source.node.id = connector.edge.source → target.node.id = connector.edge.target →
      connector.Placed source target
  spansBoxes : ∀ box ∈ plan.boxes, plan.Spans ⟨box.right, box.bottom⟩
  spansConnectors : ∀ connector ∈ plan.connectors, ∀ point ∈ connector.points, plan.Spans point

/-- A plan has a box for each node and a connector for each edge between two nodes, both in order;
every connector is placed between the boxes of its two nodes, and nothing lies to the right of the
canvas or below it. -/
theorem plan_shows (graph : Graph ℚ)
    (distinct : graph.nodes.Pairwise fun first second => first.id ≠ second.id)
    (wide : 0 < size.width) (high : 0 < size.height) : graph.ShownBy size (graph.plan size) := by
  have boxes {node : Node ℚ} (member : node ∈ graph.nodes) :
      size.box node ∈ (graph.plan size).boxes := List.mem_map_of_mem member
  have placed : ∀ connector ∈ (graph.plan size).connectors, ∀ source ∈ graph.nodes,
      ∀ target ∈ graph.nodes, source.id = connector.edge.source →
        target.id = connector.edge.target →
          connector.Placed (size.box source) (size.box target) :=
    fun connector member source left target right leaves arrives =>
      placed_connector (nodup_ids_iff.mpr distinct) (exists_nodes_of_connector member).1 left leaves
        right arrives
  refine ⟨?_, ?_, size.map_edge_connectors graph, ?_, ?_, ?_, ?_⟩
  · exact (List.map_map ..).trans (List.map_id _)
  · intro box member
    obtain ⟨node, _, rfl⟩ := List.mem_map.mp member
    exact ⟨rfl, rfl⟩
  · intro sound
    rw [size.map_edge_connectors, List.filter_eq_self]
    intro edge member
    have joined := ((graph.problemTexts_nil_iff.1.mp sound).joined edge member)
    rw [Bool.and_eq_true, List.contains_iff_mem, List.contains_iff_mem, mem_ids_iff, mem_ids_iff]
    exact joined
  · intro connector member source left target right
    obtain ⟨first, inside, rfl⟩ := List.mem_map.mp left
    obtain ⟨second, within, rfl⟩ := List.mem_map.mp right
    exact placed connector member first inside second within
  · intro box member
    obtain ⟨right, bottom⟩ := margin_of_mem member
    exact ⟨by linarith, by linarith⟩
  · intro connector member
    obtain ⟨_, ⟨source, left, leaves⟩, target, right, arrives⟩ := exists_nodes_of_connector member
    have drawn := placed connector member source left target right leaves arrives
    obtain ⟨sourceRight, sourceBottom⟩ := margin_of_mem (boxes left)
    obtain ⟨targetRight, targetBottom⟩ := margin_of_mem (boxes right)
    change source.position.x + size.width + 100 ≤ _ at sourceRight
    change source.position.y + size.height + 100 ≤ _ at sourceBottom
    change target.position.x + size.width + 100 ≤ _ at targetRight
    change target.position.y + size.height + 100 ≤ _ at targetBottom
    refine drawn.spans ?_ ?_
    · rw [drawn.start]
      constructor
      · change source.position.x + size.width / 2 + 100 ≤ _
        linarith
      · change source.position.y + size.height / 2 + 100 ≤ _
        linarith
    · rw [drawn.finish]
      constructor
      · change target.position.x + 100 ≤ _
        linarith
      · change target.position.y + size.height / 2 + 100 ≤ _
        linarith

end Graph

namespace Samples

/-- The first curve comes to an end right where it starts, and the second one leads back to the
left. The last edge leads to no node. -/
def zigzag : Graph ℚ :=
  ⟨[⟨"start", .start, ⟨0, 0⟩, .marker "Here" false none, rfl⟩,
      ⟨"pause", .delay, ⟨100, 0⟩, .delay "Pause" 1 "minutes", rfl⟩,
      ⟨"end", .finish, ⟨-300, 80⟩, .marker "There" false none, rfl⟩],
    [⟨"1", "start", "pause", some "Go"⟩, ⟨"2", "pause", "end", none⟩, ⟨"3", "pause", "void", none⟩]⟩

example : (zigzag.plan .default).connectors.map (·.curve.arrowhead.points) =
    [[⟨90, 67 / 2⟩, ⟨100, 30⟩, ⟨90, 53 / 2⟩],
      [⟨-290, 213 / 2⟩, ⟨-300, 110⟩, ⟨-290, 227 / 2⟩]] := by
  decide +kernel

end Samples

theorem Graph.plan_shows_zigzag :
    Samples.zigzag.nodes.Pairwise (fun first second => first.id ≠ second.id) ∧
      0 < (BoxSize.default : BoxSize ℚ).width ∧ 0 < (BoxSize.default : BoxSize ℚ).height ∧
      Samples.zigzag.ShownBy .default (Samples.zigzag.plan .default) := by
  have distinct : Samples.zigzag.nodes.Pairwise fun first second => first.id ≠ second.id := by
    decide
  have wide : 0 < (BoxSize.default : BoxSize ℚ).width := by decide
  have high : 0 < (BoxSize.default : BoxSize ℚ).height := by decide
  exact ⟨distinct, wide, high, Samples.zigzag.plan_shows distinct wide high⟩

end ReplyFlow
