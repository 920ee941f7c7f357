import ReplyFlow.Proofs.Compile.Exits
import ReplyFlow.Proofs.Compile.Fans

/-! In which column everything stands.

A node is only ever moved down, so its column is known from the depth at which its template is
entered. Hence a link that leads on spans one column, and a graph is as wide as it is deep.
-/

set_option autoImplicit false

namespace ReplyFlow

/-- Columns from the message that a step belongs to. -/
def StepName.offset : StepName → ℕ
  | .start | .finish | .message _ => 0
  | .condition .. => 1
  | .delay .. => 2
  | .continuation .. => 3

/-! ## Depths -/

/-- The templates that are entered, with their depths. -/
def Branches.levels : ℕ → Branches → List (Int × ℕ)
  | _, done => []
  | depth, stop _ _ rest => rest.levels depth
  | depth, into _ child inside rest =>
    (child.id, depth) :: inside.levels (depth + 1) ++ rest.levels depth

def Expansion.levels (expansion : Expansion) : List (Int × ℕ) :=
  (expansion.first.id, 0) :: expansion.branches.levels 1

/-- The depths of all messages in a compiled graph. -/
def Rules.levels (rules : Rules) : List Template → List (Int × ℕ)
  | [] => []
  | first :: others => (rules.expand (first :: others) first).levels

theorem Branches.map_fst_levels (tree : Branches) (depth : ℕ) :
    (tree.levels depth).map Prod.fst = tree.entered.map Template.id := by
  induction tree generalizing depth with
  | done => rfl
  | stop _ _ _ ih => exact ih depth
  | into _ _ _ _ insideIH restIH => simp [levels, entered, insideIH, restIH]

theorem Follows.lt_of_mem_levels {rules : Rules} {index : List Template} {depth top : ℕ}
    {branches : List Branch} {visited after : Visited} {tree : Branches} {entry : Int × ℕ}
    (follows : Follows rules index depth branches visited tree after)
    (member : entry ∈ tree.levels top) : entry.2 < top + depth := by
  induction follows generalizing top with
  | done => cases member
  | finish _ ih => exact ih member
  | back _ _ ih => exact ih member
  | cut _ _ ih => exact ih member
  | into _ _ _ insideIH restIH =>
    rw [Branches.levels, List.cons_append, List.mem_cons, List.mem_append] at member
    rcases member with rfl | below | beside
    · omega
    · have deeper := insideIH below
      omega
    · exact restIH beside

namespace Rules

variable (rules : Rules) (first : Template) (others : List Template)

theorem map_fst_levels : (rules.levels (first :: others)).map Prod.fst =
    (rules.expand (first :: others) first).scenes.map fun scene => scene.owner.id := by
  rw [owners_expand, levels, Expansion.levels, List.map_cons, Branches.map_fst_levels]
  rfl

theorem le_maxDepth {entry : Int × ℕ} (member : entry ∈ rules.levels (first :: others)) :
    entry.2 ≤ rules.maxDepth := by
  obtain ⟨after, follows⟩ := follows_expand rules (first :: others) first
  rcases List.mem_cons.mp member with rfl | below
  · exact Nat.zero_le _
  · have bound := follows.lt_of_mem_levels below
    omega

end Rules

/-! ## Columns of steps -/

/-- The link leads from one column to the next. -/
def Link.Advances (link : Link) (grid : Grid ℚ) (nodes : List (Node ℚ)) : Prop :=
  ∃ source target, Stands nodes link.source source ∧ Stands nodes link.target target ∧
    target.x = source.x + grid.levelSpacing

/-- The step is in the column of its template's depth. -/
def StepName.InColumn (step : StepName) (grid : Grid ℚ) (nodes : List (Node ℚ))
    (entry : Int × ℕ) : Prop :=
  step.owner? = some entry.1 ∧ ∃ row, Stands nodes step
    ⟨grid.messageColumn entry.2 + step.offset * grid.levelSpacing, row⟩

namespace Grid

variable {grid : Grid ℚ} {nodes : List (Node ℚ)} {owner : Int} {parent : Position ℚ}
  {count place depth : ℕ} {row : ℚ}

theorem messageColumn_zero : grid.messageColumn (0 : ℕ) = grid.firstPosition.x := by
  change grid.firstPosition.x + ((0 * 3 : ℤ) : ℚ) * grid.levelSpacing = _
  simp

theorem messageColumn_succ (depth : ℕ) :
    grid.messageColumn (depth + 1 : ℕ) = grid.messageColumn depth + 3 * grid.levelSpacing := by
  change grid.firstPosition.x + (((depth + 1 : ℕ) * 3 : ℤ) : ℚ) * grid.levelSpacing =
    grid.firstPosition.x + ((depth * 3 : ℤ) : ℚ) * grid.levelSpacing + 3 * grid.levelSpacing
  push_cast
  ring

theorem messageColumn_mono {low high : ℕ} (bound : low ≤ high) :
    grid.messageColumn low ≤ grid.messageColumn high := by
  induction high, bound using Nat.le_induction with
  | base => exact le_refl _
  | succ high _ ih =>
    rw [messageColumn_succ]
    have spacing := grid.spacing_pos.1
    linarith

/-- A branch is in the columns of its message. -/
theorem Seats.inColumn (seats : grid.Seats owner parent count place nodes row)
    (column : parent.x = grid.messageColumn depth) :
    (StepName.condition owner place).InColumn grid nodes (owner, depth) ∧
      (StepName.delay owner place).InColumn grid nodes (owner, depth) := by
  have condition := seats.condition
  have delay := seats.delay
  rw [column] at condition delay
  refine ⟨⟨rfl, row, ?_⟩, rfl, row, ?_⟩
  · simpa [StepName.offset] using condition
  · simpa [StepName.offset, two_mul, add_assoc] using delay

theorem inColumn_message {id : Int} {position : Position ℚ}
    (message : Stands nodes (.message id) position)
    (column : position.x = grid.messageColumn depth) :
    (StepName.message id).InColumn grid nodes (id, depth) := by
  refine ⟨rfl, position.y, ?_⟩
  rw [← column, StepName.offset, Nat.cast_zero, zero_mul, add_zero]
  exact message

theorem Seats.advances {rules : Rules} {response : Response}
    (seats : grid.Seats owner parent count place nodes row)
    (message : Stands nodes (.message owner) parent) :
    ∀ link ∈ (rules.branchPlan owner place response).links, link.Advances grid nodes := by
  intro link member
  rcases List.mem_pair.mp member with rfl | rfl
  · exact ⟨_, _, message, seats.condition, rfl⟩
  · exact ⟨_, _, seats.condition, seats.delay, rfl⟩

end Grid

namespace Branches.Laid

variable {grid : Grid ℚ} {nodes : List (Node ℚ)} {owner : Int} {parent : Position ℚ}
  {count place : ℕ} {rows : List ℚ} {tree : Branches} {rules : Rules}

theorem inColumn {depth : ℕ} (laid : tree.Laid grid nodes owner parent count place rows)
    (column : parent.x = grid.messageColumn depth) :
    ∀ step ∈ (tree.plan rules owner place).ownSteps,
      ∃ entry ∈ (owner, depth) :: tree.levels (depth + 1), step.InColumn grid nodes entry := by
  induction laid generalizing depth with
  | done => exact nofun
  | @stop _ _ _ _ _ _ _ ending _ seats _ marks _ ih =>
    obtain ⟨condition, delay⟩ := seats.inColumn column
    intro step member
    rw [ownSteps_stop, List.mem_cons, List.mem_cons, List.mem_append] at member
    rcases member with rfl | rfl | mark | later
    · exact ⟨_, List.mem_cons_self, condition⟩
    · exact ⟨_, List.mem_cons_self, delay⟩
    · cases ending with
      | finish | back => cases mark
      | cut target =>
        obtain ⟨y, stands⟩ := marks target rfl
        rw [List.mem_singleton.mp mark]
        refine ⟨_, List.mem_cons_self, rfl, y, ?_⟩
        simpa [StepName.offset, column] using stands
    · exact ih column step later
  | @into _ _ position _ _ _ _ _ _ child inside rest seats _ message shifted _ _ insideIH restIH =>
    obtain ⟨condition, delay⟩ := seats.inColumn column
    have childColumn := shifted
    rw [column, ← Grid.messageColumn_succ] at childColumn
    intro step member
    rw [ownSteps_into, List.mem_cons, List.mem_cons, List.mem_cons, List.mem_append] at member
    rw [levels, List.cons_append]
    rcases member with rfl | rfl | rfl | below | later
    · exact ⟨_, List.mem_cons_self, condition⟩
    · exact ⟨_, List.mem_cons_self, delay⟩
    · exact ⟨_, List.mem_cons_of_mem _ List.mem_cons_self,
        Grid.inColumn_message message childColumn⟩
    · obtain ⟨entry, known, inside⟩ := insideIH childColumn step below
      exact ⟨entry, List.mem_cons_of_mem _ (List.mem_append_left _ known), inside⟩
    · obtain ⟨entry, known, inside⟩ := restIH column step later
      refine ⟨entry, ?_, inside⟩
      rcases List.mem_cons.mp known with rfl | known
      · exact List.mem_cons_self
      · exact List.mem_cons_of_mem _ (List.mem_cons_of_mem _ (List.mem_append_right _ known))

/-- Every stem leads one column on. -/
theorem advances (laid : tree.Laid grid nodes owner parent count place rows)
    (message : Stands nodes (.message owner) parent) :
    ∀ link ∈ tree.stems rules owner place, link.Advances grid nodes := by
  induction laid with
  | done => exact nofun
  | @stop _ _ _ _ _ _ _ ending _ seats _ marks _ ih =>
    intro link member
    rw [stems, List.mem_append, List.mem_append] at member
    rcases member with branch | mark | later
    · exact seats.advances message link branch
    · cases ending with
      | finish | back => cases mark
      | cut target =>
        obtain ⟨y, stands⟩ := marks target rfl
        rw [List.mem_singleton.mp mark]
        exact ⟨_, _, seats.delay, stands, by ring⟩
    · exact ih message link later
  | into seats _ child shifted _ _ insideIH restIH =>
    intro link member
    rw [stems, List.cons_append, List.mem_append, List.mem_cons, List.mem_append] at member
    rcases member with branch | rfl | below | later
    · exact seats.advances message link branch
    · exact ⟨_, _, seats.delay, child, by rw [shifted]; ring⟩
    · exact insideIH child link below
    · exact restIH message link later

end Branches.Laid

namespace Expansion.Laid

variable {grid : Grid ℚ} {nodes : List (Node ℚ)} {rules : Rules} {first : Template}
  {others : List Template}

theorem inColumn (laid : (rules.expand (first :: others) first).Laid grid nodes) :
    ∀ step ∈ (rules.conversationPlan (first :: others) first).ownSteps,
      ∃ entry ∈ rules.levels (first :: others), step.InColumn grid nodes entry := by
  obtain ⟨position, rows, message, column, branches⟩ := laid.branches
  rw [← Grid.messageColumn_zero] at column
  intro step member
  rw [Rules.ownSteps_conversationPlan, List.mem_cons] at member
  rcases member with rfl | below
  · exact ⟨_, List.mem_cons_self, Grid.inColumn_message message column⟩
  · exact branches.inColumn column step below

theorem advances (laid : (rules.expand (first :: others) first).Laid grid nodes) :
    ∀ link ∈ rules.stems (first :: others) first, link.Advances grid nodes := by
  obtain ⟨position, rows, message, column, branches⟩ := laid.branches
  exact List.forall_mem_cons.mpr ⟨⟨_, _, laid.start, message, column⟩, branches.advances message⟩

end Expansion.Laid

/-! ## The last column -/

/-- An end in an open drawing is one that something leads to. -/
theorem Rules.exists_link_finish {rules : Rules} {first : Template} {others : List Template}
    (drawn : .finish ∈ (rules.conversationPlan (first :: others) first).steps) :
    ∃ link ∈ (rules.plan (first :: others)).links, link.target = .finish := by
  by_contra! none
  have keeps : (rules.conversationPlan (first :: others) first).Keeps (· ≠ .finish) := by
    intro link member _
    exact none link (links_plan_cons rules first others ▸ List.mem_cons_of_mem _ member)
  exact reached_conversationPlan keeps nofun .finish drawn rfl

namespace Compiler

variable {compiler : Compiler ℚ} {templates : List Template} {compilation : Compilation ℚ}
  {first : Template} {others : List Template}

/-- An open drawing has an end only if its plan has. -/
theorem finish_mem_steps {opened : Draft ℚ}
    (opening : compiler.drawOpen (compiler.rules.expand (first :: others) first) = .ok opened)
    (ended : opened.finish.isSome) :
    .finish ∈ (compiler.rules.conversationPlan (first :: others) first).steps := by
  have extended := @draws_drawOpen ℚ _ compiler (compiler.rules.expand (first :: others) first)
  rw [opening] at extended
  cases extended with
  | drawn extended =>
    have finished : opened.finish.isSome = _ := extended.finish
    rw [finished] at ended
    obtain ⟨sketch, member, same⟩ := List.any_eq_true.mp ended
    have last : sketch.step = .finish := of_decide_eq_true same
    rcases List.mem_cons.mp member with rfl | inside
    · cases last
    · exact last ▸ List.mem_map_of_mem inside

/-- An end that nothing leads to is drawn last, to the right of all the rest. -/
theorem exists_loose (compiled : compiler.compile templates = .ok compilation)
    (selected : (compiler.rules.select templates).templates = first :: others)
    (loose : compilation.graph.incoming StepName.finish.text = []) :
    ∃ finish nodes, finish.id = StepName.finish.text ∧
      compilation.graph.nodes = nodes ++ [finish] ∧
      ∀ node ∈ nodes, node.position.x < finish.position.x := by
  have drawn := shows_plan compiled
  obtain ⟨draft, result, rfl⟩ := exists_drawn compiled
  rw [selected] at drawn result
  obtain ⟨-, opened, opening, last⟩ := (achieves_draw compiler _).of_ok result
  have missing : opened.finish = none := by
    rw [← Option.not_isSome_iff_eq_none]
    intro ended
    have used := Rules.exists_link_finish (finish_mem_steps opening ended)
    exact drawn.incoming_finish_iff.mpr used loose
  obtain ⟨finish, named, column, nodes⟩ := last missing
  refine ⟨finish, opened.nodes, named, nodes, fun node member => ?_⟩
  have bound : node.position.x ≤ opened.maxX := Coordinate.le_maximum (List.mem_map_of_mem member)
  have spacing := compiler.grid.spacing_pos.1
  rw [column]
  linarith

end Compiler

/-! ## The whole graph -/

/-- Every message is in the column of its depth, and what belongs to it at a fixed distance. All
rows are halves of whole ones. A link that leads on spans one column, so no message is further right
than the greatest depth; and an end that nothing leads to is further right than all the rest. -/
structure Compilation.InColumns (compilation : Compilation ℚ) (grid : Grid ℚ) (maxDepth : ℕ)
    (levels : List (Int × ℕ)) : Prop where
  messages : levels.map Prod.fst = compilation.graph.messageTemplates
  columns : ∀ entry ∈ levels, entry.2 ≤ maxDepth ∧
    ∃ column row, grid.templateColumn entry.2 = .ok column ∧
      compilation.graph.place? (.message entry.1) = some ⟨column, row⟩ ∧
      ∀ step position, step.owner? = some entry.1 →
        compilation.graph.place? step = some position →
          position.x = column + step.offset * grid.levelSpacing
  aligned : ∀ node ∈ compilation.graph.nodes, grid.Aligned node.position.y
  advances : ∀ edge ∈ compilation.graph.edges,
    (edge.source, edge.target) ∉ compilation.report.backEdges →
      edge.target ≠ StepName.finish.text →
        ∃ source target, compilation.graph.node? edge.source = some source ∧
          compilation.graph.node? edge.target = some target ∧
          target.position.x = source.position.x + grid.levelSpacing
  narrow : ∃ column, grid.templateColumn maxDepth = .ok column ∧
    ∀ node ∈ compilation.graph.nodes, node.kind = .message → node.position.x ≤ column
  loose : compilation.graph.incoming StepName.finish.text = [] →
    ∃ finish, compilation.graph.node? StepName.finish.text = some finish ∧
      ∀ node ∈ compilation.graph.nodes, node ≠ finish → node.position.x < finish.position.x

theorem Link.Advances.edge {graph : Graph ℚ} {grid : Grid ℚ} {link : Link}
    (advances : link.Advances grid graph.nodes) (distinct : graph.ids.Nodup) :
    ∃ source target, graph.node? link.edge.source = some source ∧
      graph.node? link.edge.target = some target ∧
      target.position.x = source.position.x + grid.levelSpacing := by
  obtain ⟨_, _, ⟨source, sourceMember, sourceName, rfl⟩, ⟨target, targetMember, targetName, rfl⟩,
    spans⟩ := advances
  refine ⟨source, target, ?_, ?_, spans⟩
  · change graph.node? link.source.text = some source
    rw [← sourceName, Graph.node?_of_mem distinct sourceMember]
  · change graph.node? link.target.text = some target
    rw [← targetName, Graph.node?_of_mem distinct targetMember]

namespace Compiler

variable {compiler : Compiler ℚ} {templates : List Template} {compilation : Compilation ℚ}
  {first : Template} {others : List Template}

theorem inColumns_nil (compiled : compiler.compile templates = .ok compilation)
    (selected : (compiler.rules.select templates).templates = []) :
    compilation.InColumns compiler.grid compiler.rules.maxDepth [] := by
  have drawn := shows_plan compiled
  rw [selected] at drawn
  have steps : (compiler.rules.plan []).steps = [.start, .finish] := rfl
  have links : (compiler.rules.plan []).links = [⟨.start, .finish, none⟩] := rfl
  exact {
    messages := by
      rw [drawn.messageTemplates_eq compiler.rules.sound_plan_nil.agrees, steps]
      rfl
    columns := nofun
    aligned := by
      obtain ⟨draft, result, rfl⟩ := exists_drawn compiled
      rw [selected] at result
      exact achieves_drawNothing.of_ok result
    advances := by
      intro edge member _ inner
      obtain ⟨link, linked, rfl⟩ := drawn.exists_link edge member
      rw [links, List.mem_singleton] at linked
      exact absurd (congrArg (fun link => link.edge.target) linked) inner
    narrow := by
      refine ⟨_, rfl, fun node member kind => ?_⟩
      obtain ⟨step, present, _, same⟩ := drawn.exists_step member
      rw [steps] at present
      rcases List.mem_pair.mp present with rfl | rfl <;> cases kind.symm.trans same
    loose := by
      intro loose
      exact absurd loose (drawn.incoming_finish_iff.mpr ⟨_, links ▸ List.mem_cons_self, rfl⟩) }

/-- A step of a conversation is in the column of its template's depth. -/
theorem exists_level (compiled : compiler.compile templates = .ok compilation)
    (selected : (compiler.rules.select templates).templates = first :: others) {step : StepName}
    (present : step ∈ (compiler.rules.plan (first :: others)).steps) {id : Int}
    (owned : step.owner? = some id) :
    ∃ entry ∈ compiler.rules.levels (first :: others), entry.1 = id ∧
      ∃ row, compilation.graph.place? step = some
        ⟨compiler.grid.messageColumn entry.2 + step.offset * compiler.grid.levelSpacing, row⟩ := by
  have drawn := shows_plan compiled
  rw [selected] at drawn
  have own : step ∈ (compiler.rules.plan (first :: others)).ownSteps := by
    refine List.mem_filter.mpr ⟨present, ?_⟩
    cases step with
    | finish => cases owned
    | start | message | condition | delay | continuation => rfl
  rw [Rules.ownSteps_plan_cons, List.mem_cons] at own
  rcases own with rfl | inside
  · cases owned
  · obtain ⟨entry, known, same, row, stands⟩ :=
      (exists_laid compiled selected).inColumn step inside
    exact ⟨entry, known, Option.some.inj (same.symm.trans owned), row,
      Graph.place?_of_stands (drawn.nodup_ids (compiler.rules.sound_plan _).distinct) stands⟩

theorem inColumns_cons (compiled : compiler.compile templates = .ok compilation)
    (selected : (compiler.rules.select templates).templates = first :: others) :
    compilation.InColumns compiler.grid compiler.rules.maxDepth
      (compiler.rules.levels (first :: others)) := by
  have drawn := shows_plan compiled
  rw [selected] at drawn
  have distinct := drawn.nodup_ids (compiler.rules.sound_plan _).distinct
  have laid := exists_laid compiled selected
  have levels := compiler.rules.map_fst_levels first others
  have owners := compiler.rules.nodup_owners (first :: others) first
  rw [← levels] at owners
  have column {entry : Int × ℕ} (known : entry ∈ compiler.rules.levels (first :: others))
      {step : StepName} (owned : step.owner? = some entry.1)
      (present : step ∈ (compiler.rules.plan (first :: others)).steps) :
      ∃ row, compilation.graph.place? step = some
        ⟨compiler.grid.messageColumn entry.2 + step.offset * compiler.grid.levelSpacing, row⟩ := by
    obtain ⟨other, among, same, row, placed⟩ := exists_level compiled selected present owned
    cases List.inj_on_of_nodup_map owners among known same
    exact ⟨row, placed⟩
  exact {
    messages := levels.trans (messageTemplates_eq_owners compiled selected).symm
    columns := by
      intro entry known
      have entered : entry.1 ∈ (compiler.rules.plan (first :: others)).steps.filterMap
          StepName.message? := by
        rw [Rules.messages_plan_cons, ← levels]
        exact List.mem_map_of_mem known
      obtain ⟨step, present, message⟩ := List.mem_filterMap.mp entered
      cases step with
      | start | finish | condition | delay | continuation => cases message
      | message id =>
        cases message
        obtain ⟨row, placed⟩ := column known rfl present
        rw [StepName.offset, Nat.cast_zero, zero_mul, add_zero] at placed
        refine ⟨compiler.rules.le_maxDepth first others known, _, row, rfl, placed, ?_⟩
        intro step position owned placed
        obtain ⟨row, same⟩ := column known owned (drawn.mem_steps_of_place? placed)
        cases placed.symm.trans same
        rfl
    aligned := laid.aligned
    advances := by
      intro edge member apart inner
      obtain ⟨link, linked, rfl⟩ := drawn.exists_link edge member
      have inner : link.target ≠ .finish := mt (congrArg StepName.text) inner
      rcases (compiler.rules.grows_plan first others).stem_or_back linked inner with stem | returns
      · exact (laid.advances link stem).edge distinct
      · rw [backEdges_eq compiled selected, ← Branches.map_backLinks] at apart
        exact absurd (List.mem_map_of_mem returns) apart
    narrow := by
      refine ⟨_, rfl, fun node member kind => ?_⟩
      obtain ⟨step, present, named, same⟩ := drawn.exists_step member
      rw [kind] at same
      cases step with
      | start | finish | condition | delay | continuation => cases same
      | message id =>
        obtain ⟨entry, known, rfl, row, placed⟩ := exists_level compiled selected present rfl
        rw [Graph.place?_of_stands distinct ⟨node, member, named, rfl⟩] at placed
        rw [Option.some.inj placed]
        have bound := compiler.rules.le_maxDepth first others known
        simpa [StepName.offset] using Grid.messageColumn_mono bound
    loose := by
      intro unused
      obtain ⟨finish, nodes, named, all, bound⟩ := exists_loose compiled selected unused
      have last : finish ∈ compilation.graph.nodes := by simp [all]
      refine ⟨finish, named ▸ Graph.node?_of_mem distinct last, fun node member other => ?_⟩
      rw [all, List.mem_append, List.mem_singleton] at member
      exact bound node (member.resolve_right other) }

/-- In exact arithmetic everything is compiled, and everything stands in the column of its depth. -/
theorem compile_columns (compiler : Compiler ℚ) (templates : List Template) :
    (0 ≤ compiler.rules.delayDuration →
      ∃ compilation, compiler.compile templates = .ok compilation) ∧
    ∀ compilation, compiler.compile templates = .ok compilation →
      compilation.InColumns compiler.grid compiler.rules.maxDepth
        (compiler.rules.levels (compiler.rules.select templates).templates) := by
  refine ⟨exists_compile, fun compilation compiled => ?_⟩
  cases selected : (compiler.rules.select templates).templates with
  | nil => exact inColumns_nil compiled selected
  | cons first others => exact inColumns_cons compiled selected

theorem compile_columns_detour :
    0 ≤ Samples.rational.rules.delayDuration ∧
      ∃ compilation, Samples.rational.compile Samples.detour = .ok compilation ∧
        compilation.InColumns Samples.rational.grid Samples.rational.rules.maxDepth
          (Samples.rational.rules.levels
            (Samples.rational.rules.select Samples.detour).templates) := by
  have waits : 0 ≤ Samples.rational.rules.delayDuration := by decide
  obtain ⟨compilation, compiled⟩ := (compile_columns _ Samples.detour).1 waits
  exact ⟨waits, compilation, compiled, (compile_columns _ _).2 compilation compiled⟩

end Compiler

end ReplyFlow
