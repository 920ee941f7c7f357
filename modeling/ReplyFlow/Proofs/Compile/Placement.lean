import Mathlib.Tactic.Ring
import ReplyFlow.Proofs.Compile.Simulation
import ReplyFlow.Proofs.Layout.RowSearch

/-! Where everything is drawn, in exact arithmetic.

The tree of a conversation is laid out level by level: a branch stands beside its message, and what
it leads to beside the branch. Only rows are searched for, and the search never fails. All branches
of one message try rows of one progression, and a row that one of them has passed over stays taken,
so a later branch stands below an earlier one whatever has been drawn between them.
-/

set_option autoImplicit false

namespace ReplyFlow

/-- A node of this step stands at this position. -/
def Stands {α : Type} (nodes : List (Node α)) (step : StepName) (position : Position α) : Prop :=
  ∃ node ∈ nodes, node.id = step.text ∧ node.position = position

theorem Stands.mono {α : Type} {nodes more : List (Node α)} {step : StepName}
    {position : Position α} (stands : Stands nodes step position) (grown : nodes ⊆ more) :
    Stands more step position := by
  obtain ⟨node, member, named, placed⟩ := stands
  exact ⟨node, grown member, named, placed⟩

namespace Graph

/-- Where the node of a step is. -/
def place? {α : Type} (graph : Graph α) (step : StepName) : Option (Position α) :=
  (graph.node? step.text).map Node.position

theorem place?_of_stands {α : Type} {graph : Graph α} (distinct : graph.ids.Nodup)
    {step : StepName} {position : Position α} (stands : Stands graph.nodes step position) :
    graph.place? step = some position := by
  obtain ⟨node, member, named, rfl⟩ := stands
  rw [place?, ← named, node?_of_mem distinct member]
  rfl

end Graph

namespace Grid

variable (grid : Grid ℚ)

/-- The row of branch `place` of `count` if nothing is in its way. -/
def nominalRow (row : ℚ) (count place : ℕ) : ℚ :=
  row + (place - (count - 1) / 2) * grid.branchSpacing

/-- So many half rows away from the start. -/
def Aligned (row : ℚ) : Prop :=
  ∃ halves : ℤ, row = grid.origin.y + halves * (grid.branchSpacing / 2)

/-- The columns of the conditions and the delays of a message. -/
def branchColumns (parent : Position ℚ) : List ℚ :=
  [parent.x + grid.levelSpacing, parent.x + grid.levelSpacing + grid.levelSpacing]

/-- No row down to `bar` is left for branch `place`. -/
def FilledTo (parent : Position ℚ) (count place : ℕ) (occupied : List (Slot ℚ)) (bar : ℚ) : Prop :=
  ∀ rows : ℕ, grid.nominalRow parent.y count place + rows * grid.branchSpacing ≤ bar →
    Blocked (grid.branchColumns parent) occupied
      (grid.nominalRow parent.y count place + rows * grid.branchSpacing)

/-- The condition and the delay of a branch stand side by side, some rows below the nominal one. -/
structure Seats (owner : Int) (parent : Position ℚ) (count place : ℕ) (nodes : List (Node ℚ))
    (row : ℚ) : Prop where
  condition : Stands nodes (.condition owner place) ⟨parent.x + grid.levelSpacing, row⟩
  delay : Stands nodes (.delay owner place)
    ⟨parent.x + grid.levelSpacing + grid.levelSpacing, row⟩
  shifted : ∃ rows : ℕ, row = grid.nominalRow parent.y count place + rows * grid.branchSpacing

variable {grid} {row bar : ℚ} {parent : Position ℚ} {count place : ℕ}
  {occupied more : List (Slot ℚ)} {nodes : List (Node ℚ)} {owner : Int}

theorem aligned_origin : grid.Aligned grid.origin.y :=
  ⟨0, by simp⟩

theorem Aligned.shift (aligned : grid.Aligned row) (rows : ℕ) :
    grid.Aligned (row + rows * grid.branchSpacing) := by
  obtain ⟨halves, rfl⟩ := aligned
  refine ⟨halves + 2 * rows, ?_⟩
  push_cast
  ring

theorem Aligned.nominalRow (aligned : grid.Aligned row) (count place : ℕ) :
    grid.Aligned (grid.nominalRow row count place) := by
  obtain ⟨halves, rfl⟩ := aligned
  refine ⟨halves + 2 * place - (count - 1), ?_⟩
  rw [Grid.nominalRow]
  push_cast
  ring

theorem nominalRow_succ (row : ℚ) (count place rows : ℕ) :
    grid.nominalRow row count (place + 1) + rows * grid.branchSpacing
      = grid.nominalRow row count place + (rows + 1 : ℕ) * grid.branchSpacing := by
  rw [nominalRow, nominalRow]
  push_cast
  ring

theorem conditionPosition_eq (parent : Position ℚ) (count place : ℕ) :
    grid.conditionPosition parent place count =
      ⟨parent.x + grid.levelSpacing, grid.nominalRow parent.y count place⟩ := by
  change Position.mk _ (parent.y + (((place : ℤ) : ℚ) - (((count : ℤ) - 1 : ℤ) : ℚ) / 2) * _) = _
  rw [nominalRow]
  push_cast
  rfl

theorem Blocked.mono {columns : List ℚ} (blocked : Blocked columns occupied row)
    (grown : occupied ⊆ more) : Blocked columns more row := by
  obtain ⟨x, column, slot, taken, covers⟩ := blocked
  exact ⟨x, column, slot, grown taken, covers⟩

/-- What the next branch could take starts one row further down. -/
theorem FilledTo.next (filled : grid.FilledTo parent count place occupied bar)
    (grown : occupied ⊆ more) : grid.FilledTo parent count (place + 1) more bar := by
  intro rows above
  rw [nominalRow_succ] at above ⊢
  exact (filled (rows + 1) above).mono grown

/-- The row that a branch takes: all rows passed over are taken, and it takes its own. -/
theorem exists_branchRow (grid : Grid ℚ) (parent : Position ℚ) (count place : ℕ)
    (occupied : List (Slot ℚ)) :
    ∃ row, grid.freeRow? (grid.nominalRow parent.y count place) (grid.branchColumns parent)
        occupied = some row ∧
      (∃ rows : ℕ, row = grid.nominalRow parent.y count place + rows * grid.branchSpacing) ∧
      (∀ bar, grid.FilledTo parent count place occupied bar → bar < row) ∧
      ∀ later, occupied ⊆ later →
        Position.slot ⟨parent.x + grid.levelSpacing, row⟩ ∈ later →
        grid.FilledTo parent count place later row := by
  obtain ⟨rows, found, taken, free⟩ := grid.exists_freeRow
    (grid.nominalRow parent.y count place) (grid.branchColumns parent) occupied
  refine ⟨_, found, ⟨rows, rfl⟩, fun bar filled => ?_, fun later grown own j above => ?_⟩
  · exact not_le.mp fun above => free (filled rows above)
  · have above := le_of_mul_le_mul_right (le_of_add_le_add_left above) grid.spacing_pos.2
    rcases (Nat.cast_le.mp above).eq_or_lt with rfl | less
    · exact ⟨_, List.mem_cons_self, _, own, Slot.covers_iff.mpr rfl⟩
    · exact (taken j less).mono grown

theorem Seats.mono {later : List (Node ℚ)} (seats : grid.Seats owner parent count place nodes row)
    (grown : nodes ⊆ later) : grid.Seats owner parent count place later row :=
  ⟨seats.condition.mono grown, seats.delay.mono grown, seats.shifted⟩

end Grid

/-- The branches of a message from number `place` on stand on `rows`, each above the next one, and
so on for everything that follows them. -/
inductive Branches.Laid (grid : Grid ℚ) (nodes : List (Node ℚ)) :
    Int → Position ℚ → ℕ → ℕ → List ℚ → Branches → Prop where
  | done {owner : Int} {parent : Position ℚ} {count place : ℕ} :
    Laid grid nodes owner parent count place [] .done
  | stop {owner : Int} {parent : Position ℚ} {count place : ℕ} {row : ℚ} {rows : List ℚ}
      {response : Response} {ending : Ending} {rest : Branches} :
    grid.Seats owner parent count place nodes row → (∀ later ∈ rows, row < later) →
    (∀ target, ending = .cut target →
      ∃ y, Stands nodes (.continuation owner place) ⟨parent.x + 3 * grid.levelSpacing, y⟩) →
    Laid grid nodes owner parent count (place + 1) rows rest →
    Laid grid nodes owner parent count place (row :: rows) (.stop response ending rest)
  | into {owner : Int} {parent position : Position ℚ} {count place : ℕ} {row : ℚ}
      {rows below : List ℚ} {response : Response} {child : Template} {inside rest : Branches} :
    grid.Seats owner parent count place nodes row → (∀ later ∈ rows, row < later) →
    Stands nodes (.message child.id) position → position.x = parent.x + 3 * grid.levelSpacing →
    Laid grid nodes child.id position inside.length 0 below inside →
    Laid grid nodes owner parent count (place + 1) rows rest →
    Laid grid nodes owner parent count place (row :: rows) (.into response child inside rest)

theorem Branches.Laid.mono {grid : Grid ℚ} {nodes more : List (Node ℚ)} {owner : Int}
    {parent : Position ℚ} {count place : ℕ} {rows : List ℚ} {tree : Branches}
    (laid : tree.Laid grid nodes owner parent count place rows) (grown : nodes ⊆ more) :
    tree.Laid grid more owner parent count place rows := by
  induction laid with
  | done => exact .done
  | stop seats ahead marks _ ih =>
    refine .stop (seats.mono grown) ahead (fun target cut => ?_) ih
    obtain ⟨y, mark⟩ := marks target cut
    exact ⟨y, mark.mono grown⟩
  | into seats ahead message column _ _ insideIH restIH =>
    exact .into (seats.mono grown) ahead (message.mono grown) column insideIH restIH

/-- A conversation is laid out from its start on, with every node on a half row. -/
structure Expansion.Laid (grid : Grid ℚ) (expansion : Expansion) (nodes : List (Node ℚ)) :
    Prop where
  aligned : ∀ node ∈ nodes, grid.Aligned node.position.y
  start : Stands nodes .start grid.origin
  branches : ∃ position rows, Stands nodes (.message expansion.first.id) position ∧
    position.x = grid.firstPosition.x ∧ expansion.branches.Laid grid nodes expansion.first.id
      position expansion.branches.length 0 rows

/-! ## Growing drafts -/

/-- Nothing is taken away from a draft, and what is added stands on a half row. -/
structure Draft.Grows (grid : Grid ℚ) (draft drawn : Draft ℚ) : Prop where
  nodes : draft.nodes ⊆ drawn.nodes
  occupied : draft.occupied ⊆ drawn.occupied
  aligned : ∀ node ∈ drawn.nodes, node ∈ draft.nodes ∨ grid.Aligned node.position.y

namespace Draft

variable {grid : Grid ℚ} {draft middle drawn : Draft ℚ}

theorem Grows.refl (draft : Draft ℚ) : draft.Grows grid draft :=
  ⟨List.Subset.refl _, List.Subset.refl _, fun _ member => .inl member⟩

theorem Grows.trans (first : draft.Grows grid middle) (second : middle.Grows grid drawn) :
    draft.Grows grid drawn where
  nodes := List.Subset.trans first.nodes second.nodes
  occupied := List.Subset.trans first.occupied second.occupied
  aligned node member := (second.aligned node member).elim (first.aligned node) .inr

theorem mem_occupied_push (draft : Draft ℚ) (node : Node ℚ) :
    node.position.slot ∈ (draft.push node).occupied := by
  have taken : (Slot.insert draft.occupied node.position.slot).contains node.position.slot := by
    rw [Slot.contains_insert]
    simp
  exact List.contains_iff_mem.mp taken

theorem grows_push {node : Node ℚ} (aligned : grid.Aligned node.position.y) :
    draft.Grows grid (draft.push node) where
  nodes := List.subset_append_left _ _
  occupied slot taken := by
    have kept : (Slot.insert draft.occupied node.position.slot).contains slot := by
      rw [Slot.contains_insert, List.contains_iff_mem.mpr taken, Bool.true_or]
    exact List.contains_iff_mem.mp kept
  aligned other member := by
    rcases List.mem_append.mp member with old | new
    · exact .inl old
    · exact .inr (List.mem_singleton.mp new ▸ aligned)

theorem stands_push (draft : Draft ℚ) {node : Node ℚ} {step : StepName}
    (named : node.id = step.text) : Stands (draft.push node).nodes step node.position :=
  ⟨node, List.mem_append_right _ List.mem_cons_self, named, rfl⟩

theorem Grows.all_aligned (grown : draft.Grows grid drawn)
    (aligned : ∀ node ∈ draft.nodes, grid.Aligned node.position.y) :
    ∀ node ∈ drawn.nodes, grid.Aligned node.position.y :=
  fun node member => (grown.aligned node member).elim (aligned node) id

theorem Grows.laid {expansion : Expansion} (grown : draft.Grows grid drawn)
    (laid : expansion.Laid grid draft.nodes) : expansion.Laid grid drawn.nodes where
  aligned := grown.all_aligned laid.aligned
  start := laid.start.mono grown.nodes
  branches := by
    obtain ⟨position, rows, message, column, branches⟩ := laid.branches
    exact ⟨position, rows, message.mono grown.nodes, column, branches.mono grown.nodes⟩

theorem Grows.link (grown : draft.Grows grid drawn) (source target : StepName)
    (label : Option String) : draft.Grows grid (Compiler.link source target label drawn) :=
  ⟨grown.nodes, grown.occupied, grown.aligned⟩

end Draft

namespace Compiler

variable {β γ : Type}

/-- Something holds of a result; if there is none, no row is to blame. -/
inductive Achieves (holds : β → Prop) : Except Fault β → Prop where
  | value {result : β} : holds result → Achieves holds (.ok result)
  | fault {fault : Fault} : fault ≠ .noFreeRow → Achieves holds (.error fault)

theorem Achieves.refused {holds : β → Prop} (fault : Draft.Fault) :
    Achieves holds (.error (.refused fault)) :=
  .fault fun same => Fault.noConfusion same

theorem Achieves.negative {holds : β → Prop} (duration : Int) :
    Achieves holds (.error (.negativeDelay duration)) :=
  .fault fun same => Fault.noConfusion same

theorem Achieves.bind {holds : β → Prop} {more : γ → Prop} {first : Except Fault β}
    {next : β → Except Fault γ} (start : Achieves holds first)
    (rest : ∀ result, holds result → Achieves more (next result)) :
    Achieves more (first >>= next) := by
  cases start with
  | value known => exact rest _ known
  | fault other => exact .fault other

theorem Achieves.imp {holds more : β → Prop} {result : Except Fault β}
    (known : Achieves holds result) (weaker : ∀ result, holds result → more result) :
    Achieves more result := by
  cases known with
  | value known => exact .value (weaker _ known)
  | fault other => exact .fault other

theorem Achieves.of_ok {holds : β → Prop} {value : β} {result : Except Fault β}
    (achieved : Achieves holds result) (same : result = .ok value) : holds value := by
  cases achieved with
  | value known => exact Except.ok.inj same ▸ known
  | fault => cases same

variable {compiler : Compiler ℚ} {draft : Draft ℚ} {parent : Position ℚ}

theorem achieves_place (wanted : Position ℚ) (draft : Draft ℚ) :
    Achieves (fun position => ∃ rows : ℕ,
        position = ⟨wanted.x, wanted.y + rows * compiler.grid.branchSpacing⟩)
      (compiler.place wanted draft) := by
  obtain ⟨rows, found, _⟩ := compiler.grid.exists_freePosition wanted draft.occupied
  rw [place, found]
  exact .value ⟨rows, rfl⟩

theorem achieves_add (step : StepName) (kind : NodeKind) (position : Position ℚ)
    (payload : Payload) (draft : Draft ℚ) :
    Achieves (fun drawn => ∃ node : Node ℚ, node.id = step.text ∧ node.position = position
      ∧ drawn = draft.push node) (add step kind position payload draft) := by
  rw [add]
  cases added : draft.addNode step.text kind position payload with
  | ok drawn => exact .value (Draft.exists_node_of_addNode added)
  | error fault => exact .refused fault

theorem achieves_delayPayload : Achieves (fun _ => True) compiler.delayPayload := by
  rw [delayPayload]
  split
  · exact .value trivial
  · exact .negative _

/-- The end is drawn one column on, if it is drawn. -/
theorem achieves_drawEnd (anchor : Position ℚ) (aligned : compiler.grid.Aligned anchor.y) :
    Achieves (fun drawn => draft.Grows compiler.grid drawn ∧ (draft.finish = none →
        ∃ node : Node ℚ, node.id = StepName.finish.text ∧
          node.position.x = anchor.x + compiler.grid.levelSpacing ∧
          drawn.nodes = draft.nodes ++ [node]))
      (compiler.drawEnd anchor draft) := by
  rw [drawEnd]
  split
  next known =>
    have present := ne_of_eq_of_ne known (Option.some_ne_none _)
    exact .value ⟨.refl draft, fun missing => absurd missing present⟩
  next unknown =>
    apply (achieves_place _ draft).bind
    rintro position ⟨rows, rfl⟩
    rw [Draft.ensureEnd, unknown]
    cases added : draft.addNode StepName.finish.text .finish
        ⟨_, (compiler.grid.endPosition anchor).y + rows * compiler.grid.branchSpacing⟩
        (.marker "End" false none) with
    | error fault => exact .refused fault
    | ok drawn =>
      obtain ⟨node, named, placed, rfl⟩ := Draft.exists_node_of_addNode added
      have grown : draft.Grows compiler.grid (draft.push node) :=
        Draft.grows_push (placed ▸ aligned.shift rows)
      exact .value ⟨⟨grown.nodes, grown.occupied, grown.aligned⟩,
        fun _ => ⟨node, named, by rw [placed]; rfl, rfl⟩⟩

theorem achieves_drawMessage (template : Template) (wanted : Position ℚ)
    (aligned : compiler.grid.Aligned wanted.y) :
    Achieves (fun drawn => draft.Grows compiler.grid drawn.1 ∧
        Stands drawn.1.nodes (.message template.id) drawn.2 ∧ drawn.2.x = wanted.x ∧
        compiler.grid.Aligned drawn.2.y)
      (compiler.drawMessage template wanted draft) := by
  apply (achieves_place wanted draft).bind
  rintro position ⟨rows, rfl⟩
  apply Achieves.bind (achieves_add (.message template.id) .message _ _ _)
  rintro _ ⟨node, named, placed, rfl⟩
  have even := aligned.shift rows
  have grown : (draft.markVisited template.id (StepName.message template.id).text).Grows
      compiler.grid (Draft.push _ node) := Draft.grows_push (placed ▸ even)
  exact .value ⟨⟨grown.nodes, grown.occupied, grown.aligned⟩,
    placed ▸ Draft.stands_push _ named, rfl, even⟩

/-- A branch stands below every row down to which the rows it could take are filled, and fills them
down to its own. -/
theorem achieves_drawBranch (owner : Template) (count place : ℕ) (response : Response)
    (aligned : compiler.grid.Aligned parent.y) :
    Achieves (fun drawn => draft.Grows compiler.grid drawn.1 ∧
        ∃ row, drawn.2 = ⟨parent.x + compiler.grid.levelSpacing + compiler.grid.levelSpacing, row⟩ ∧
          compiler.grid.Aligned row ∧
          compiler.grid.Seats owner.id parent count place drawn.1.nodes row ∧
          compiler.grid.FilledTo parent count place drawn.1.occupied row ∧
          ∀ bar, compiler.grid.FilledTo parent count place draft.occupied bar → bar < row)
      (compiler.drawBranch owner parent place count response draft) := by
  obtain ⟨row, found, shifted, below, fills⟩ :=
    compiler.grid.exists_branchRow parent count place draft.occupied
  have even : compiler.grid.Aligned row := by
    obtain ⟨rows, rfl⟩ := shifted
    exact (aligned.nominalRow count place).shift rows
  rw [drawBranch, Grid.conditionPosition_eq]
  split
  · next missing => cases found.symm.trans missing
  next _ chosen =>
  cases found.symm.trans chosen
  apply Achieves.bind (achieves_add (.condition owner.id place) .condition _ _ draft)
  rintro _ ⟨condition, conditionName, conditionPlace, rfl⟩
  apply achieves_delayPayload.bind
  intro payload _
  apply Achieves.bind (achieves_add (.delay owner.id place) .delay _ _ _)
  rintro _ ⟨delay, delayName, delayPlace, rfl⟩
  have conditioned : draft.Grows compiler.grid (draft.push condition) :=
    Draft.grows_push (by rw [conditionPlace]; exact even)
  have delayed : (draft.push condition).Grows compiler.grid ((draft.push condition).push delay) :=
    Draft.grows_push (by rw [delayPlace]; exact even)
  have grown := conditioned.trans delayed
  refine .value ⟨⟨grown.nodes, grown.occupied, grown.aligned⟩, row, rfl, even, ⟨?_, ?_, shifted⟩,
    fills _ grown.occupied ?_, below⟩
  · exact conditionPlace ▸ (draft.stands_push conditionName).mono delayed.nodes
  · exact delayPlace ▸ Draft.stands_push _ delayName
  · exact delayed.occupied (conditionPlace ▸ draft.mem_occupied_push condition)

theorem achieves_drawEnding (owner : Template) (place : ℕ) (delay : Position ℚ) (ending : Ending)
    (aligned : compiler.grid.Aligned delay.y) :
    Achieves (fun drawn => draft.Grows compiler.grid drawn ∧
        ∀ target, ending = .cut target → ∃ y, Stands drawn.nodes (.continuation owner.id place)
          ⟨parent.x + 3 * compiler.grid.levelSpacing, y⟩)
      (compiler.drawEnding owner parent place delay ending draft) := by
  cases ending with
  | finish =>
    apply (achieves_drawEnd _ aligned).bind
    exact fun _ ended => .value ⟨ended.1.link _ _ _, nofun⟩
  | back target => exact .value ⟨(Draft.Grows.refl draft).link _ _ _, nofun⟩
  | cut target =>
    apply (achieves_place _ draft).bind
    rintro position ⟨rows, rfl⟩
    apply Achieves.bind (achieves_add (.continuation owner.id place) .finish _ _ draft)
    rintro _ ⟨node, named, placed, rfl⟩
    have even : compiler.grid.Aligned node.position.y := by
      rw [placed]
      exact aligned.shift rows
    exact .value ⟨(Draft.grows_push even).link _ _ _,
      fun _ _ => ⟨_, placed ▸ draft.stands_push named⟩⟩

theorem achieves_closeMessage (template : Template) {position : Position ℚ} (branches : Branches)
    (aligned : compiler.grid.Aligned position.y) :
    Achieves (draft.Grows compiler.grid)
      (compiler.closeMessage template position branches draft) := by
  cases branches with
  | done =>
    apply (achieves_drawEnd _ aligned).bind
    exact fun _ ended => .value (ended.1.link _ _ _)
  | stop | into => exact .value (.refl draft)

/-- All branches of a message from number `place` on stand below every row down to which the rows
that they could take are filled. -/
theorem achieves_drawBranches (owner : Template) (count place : ℕ) (branches : Branches)
    (aligned : compiler.grid.Aligned parent.y) :
    Achieves (fun drawn => draft.Grows compiler.grid drawn ∧
        ∃ rows, branches.Laid compiler.grid drawn.nodes owner.id parent count place rows ∧
          ∀ bar, compiler.grid.FilledTo parent count place draft.occupied bar →
            ∀ row ∈ rows, bar < row)
      (compiler.drawBranches owner parent count place branches draft) := by
  -- on the tree, for every draft: whatever is drawn between two branches, the row of the first
  -- one stays a bar for the second
  induction branches generalizing owner parent count place draft with
  | done => exact .value ⟨.refl draft, [], .done, nofun⟩
  | stop response ending rest ih =>
    apply (achieves_drawBranch owner count place response aligned).bind
    rintro ⟨branched, _⟩ ⟨branchGrown, row, rfl, even, seats, filled, below⟩
    apply (achieves_drawEnding owner place _ ending even).bind
    rintro ended ⟨endGrown, marks⟩
    apply (ih owner count (place + 1) aligned).imp
    rintro drawn ⟨grown, rows, laid, bars⟩
    have ahead := bars row (filled.next endGrown.occupied)
    refine ⟨(branchGrown.trans endGrown).trans grown, row :: rows,
      .stop (seats.mono (endGrown.trans grown).nodes) ahead (fun target cut => ?_) laid, ?_⟩
    · obtain ⟨y, mark⟩ := marks target cut
      exact ⟨y, mark.mono grown.nodes⟩
    · exact fun bar lower => List.forall_mem_cons.mpr
        ⟨below bar lower, fun later member => (below bar lower).trans (ahead later member)⟩
  | into response child inside rest insideIH restIH =>
    apply (achieves_drawBranch owner count place response aligned).bind
    rintro ⟨branched, _⟩ ⟨branchGrown, row, rfl, even, seats, filled, below⟩
    apply (achieves_drawMessage child (compiler.grid.childPosition parent row) even).bind
    rintro ⟨messaged, position⟩ ⟨messageGrown, message, column, messageEven⟩
    apply (insideIH child inside.length 0 messageEven).bind
    rintro followed ⟨insideGrown, rowsInside, laidInside, -⟩
    apply (achieves_closeMessage child inside messageEven).bind
    intro closed closeGrown
    apply (restIH owner count (place + 1) aligned).imp
    rintro drawn ⟨grown, rows, laid, bars⟩
    have afterInside : followed.Grows compiler.grid drawn :=
      (closeGrown.link (.delay owner.id place) (.message child.id) none).trans grown
    have afterMessage := insideGrown.trans afterInside
    have afterBranch := messageGrown.trans afterMessage
    have ahead := bars row (filled.next
      (messageGrown.trans (insideGrown.trans closeGrown)).occupied)
    refine ⟨branchGrown.trans afterBranch, row :: rows,
      .into (seats.mono afterBranch.nodes) ahead (message.mono afterMessage.nodes) column
        (laidInside.mono afterInside.nodes) laid, ?_⟩
    exact fun bar lower => List.forall_mem_cons.mpr
      ⟨below bar lower, fun later member => (below bar lower).trans (ahead later member)⟩

theorem achieves_drawStart :
    Achieves (fun drawn => (∀ node ∈ drawn.nodes, compiler.grid.Aligned node.position.y) ∧
        Stands drawn.nodes .start compiler.grid.origin) compiler.drawStart := by
  apply (achieves_add .start .start compiler.grid.startPosition _ Draft.empty).imp
  rintro _ ⟨node, named, placed, rfl⟩
  have grown : Draft.empty.Grows compiler.grid (Draft.empty.push node) :=
    Draft.grows_push (placed ▸ Grid.aligned_origin)
  have start := Draft.empty.stands_push named
  rw [placed] at start
  exact ⟨grown.all_aligned nofun, start⟩

theorem achieves_drawOpen (compiler : Compiler ℚ) (expansion : Expansion) :
    Achieves (fun drawn => expansion.Laid compiler.grid drawn.nodes)
      (compiler.drawOpen expansion) := by
  apply achieves_drawStart.bind
  rintro started ⟨aligned, start⟩
  apply (achieves_drawMessage expansion.first compiler.grid.firstPosition Grid.aligned_origin).bind
  rintro ⟨messaged, position⟩ ⟨messageGrown, message, column, even⟩
  apply (achieves_drawBranches expansion.first _ 0 expansion.branches even).bind
  rintro followed ⟨grown, rows, laid, -⟩
  apply (achieves_closeMessage expansion.first expansion.branches even).imp
  intro closed closeGrown
  have opened := messageGrown.trans grown
  exact closeGrown.laid ⟨opened.all_aligned aligned, start.mono opened.nodes, position, rows,
    message.mono grown.nodes, column, laid⟩

/-- An end that is drawn last stands one column on from all the rest. -/
theorem achieves_draw (compiler : Compiler ℚ) (expansion : Expansion) :
    Achieves (fun drawn => expansion.Laid compiler.grid drawn.nodes ∧
        ∃ opened, compiler.drawOpen expansion = .ok opened ∧ (opened.finish = none →
          ∃ node : Node ℚ, node.id = StepName.finish.text ∧
            node.position.x = opened.maxX + compiler.grid.levelSpacing ∧
            drawn.nodes = opened.nodes ++ [node]))
      (compiler.draw expansion) := by
  have opening := achieves_drawOpen compiler expansion
  rw [draw]
  cases result : compiler.drawOpen expansion with
  | error fault =>
    rw [result] at opening
    cases opening with
    | fault other => exact .fault other
  | ok opened =>
    rw [result] at opening
    cases opening with
    | value laid =>
      apply (achieves_drawEnd ⟨opened.maxX, _⟩ Grid.aligned_origin).imp
      exact fun drawn ended => ⟨ended.1.laid laid, opened, rfl, ended.2⟩

theorem achieves_drawNothing :
    Achieves (fun drawn => ∀ node ∈ drawn.nodes, compiler.grid.Aligned node.position.y)
      compiler.drawNothing := by
  apply achieves_drawStart.bind
  rintro started ⟨aligned, -⟩
  apply (achieves_drawEnd _ Grid.aligned_origin).bind
  exact fun ended grown => .value (grown.1.all_aligned aligned)

variable {templates : List Template}

/-- Exact rows never run out. -/
theorem compile_ne_noFreeRow : compiler.compile templates ≠ .error .noFreeRow := by
  have achieves : Achieves (fun _ => True)
      (compiler.drawTemplates (compiler.rules.select templates).templates) := by
    cases (compiler.rules.select templates).templates with
    | nil => exact achieves_drawNothing.imp fun _ _ => trivial
    | cons first others => exact (achieves_draw _ _).imp fun _ _ => trivial
  rw [compile_eq]
  cases result : compiler.drawTemplates (compiler.rules.select templates).templates with
  | ok => exact nofun
  | error fault =>
    rw [result] at achieves
    cases achieves with
    | fault other => exact fun crowded => other (Except.error.inj crowded)

/-- In exact arithmetic everything is compiled. -/
theorem exists_compile (waits : 0 ≤ compiler.rules.delayDuration) :
    ∃ compilation, compiler.compile templates = .ok compilation := by
  have sound := compiler.rules.sound_plan (compiler.rules.select templates).templates
  have texts := (nodup_settle sound.distinct).map fun _ _ => StepName.text_injective
  rw [List.map_map] at texts
  rcases compile_cases texts with crowded | negative | compiled
  · exact absurd crowded compile_ne_noFreeRow
  · exact absurd negative (delay?_ne_none waits)
  · exact compiled

theorem exists_laid {compilation : Compilation ℚ} {first : Template} {others : List Template}
    (compiled : compiler.compile templates = .ok compilation)
    (selected : (compiler.rules.select templates).templates = first :: others) :
    (compiler.rules.expand (first :: others) first).Laid compiler.grid compilation.graph.nodes := by
  obtain ⟨draft, result, rfl⟩ := exists_drawn compiled
  rw [selected] at result
  exact ((achieves_draw compiler _).of_ok result).1

end Compiler

end ReplyFlow
