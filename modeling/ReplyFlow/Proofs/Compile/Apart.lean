import ReplyFlow.Proofs.Compile.Integrity
import ReplyFlow.Proofs.Decimal.Equality
import ReplyFlow.Proofs.Layout.Exact

/-! No node covers another one.

Every node is placed where no slot of an earlier node is. Only the condition and the delay of one
branch are placed at the same time, so these may fall into one slot where the columns are too narrow
to be told apart.
-/

set_option autoImplicit false

namespace ReplyFlow

variable {α : Type} [Coordinate α]

instance [PartialEquivBEq α] : PartialEquivBEq (Slot α) where
  symm same := by
    obtain ⟨columns, rows⟩ := Slot.beq_iff.mp same
    exact Slot.beq_iff.mpr ⟨PartialEquivBEq.symm columns, PartialEquivBEq.symm rows⟩
  trans first second := by
    obtain ⟨columns, rows⟩ := Slot.beq_iff.mp first
    obtain ⟨nextColumns, nextRows⟩ := Slot.beq_iff.mp second
    exact Slot.beq_iff.mpr
      ⟨PartialEquivBEq.trans columns nextColumns, PartialEquivBEq.trans rows nextRows⟩

/-- What equals a slot counts as taken once that slot has been added. -/
theorem Slot.contains_insert_of_beq [PartialEquivBEq α] {occupied : List (Slot α)}
    {slot other : Slot α} (same : other == slot) : (Slot.insert occupied slot).contains other := by
  rw [Slot.contains_insert]
  by_cases present : occupied.contains slot
  · obtain ⟨taken, member, equal⟩ := List.contains_iff_exists_mem_beq.mp present
    have counted : occupied.contains other :=
      List.contains_iff_exists_mem_beq.mpr ⟨taken, member, PartialEquivBEq.trans same equal⟩
    rw [counted, Bool.true_or]
  · simp [present, same]

/-- The condition and the delay of one branch, in columns that are rounded to one. -/
structure Grid.Cramped (grid : Grid α) (condition delay : Node α) : Prop where
  branch : ∃ owner index, condition.id = (StepName.condition owner index).text
    ∧ delay.id = (StepName.delay owner index).text
  beside : delay.position = grid.nextColumn condition.position
  rounded : Coordinate.toThousandth condition.position.x
    == Coordinate.toThousandth delay.position.x

namespace Draft

variable {grid : Grid α} {draft : Draft α} {position : Position α}

def Vacant (draft : Draft α) (position : Position α) : Prop :=
  draft.occupied.contains position.slot = false

/-- Nodes keep apart, and their slots are known to be taken. -/
structure Separate (grid : Grid α) (draft : Draft α) : Prop where
  apart : draft.nodes.Pairwise fun first second =>
    first.position.slot == second.position.slot → grid.Cramped first second
  known : ∀ node ∈ draft.nodes, ∀ slot, slot == node.position.slot → draft.occupied.contains slot

theorem separate_empty : Separate grid (empty : Draft α) :=
  ⟨.nil, nofun⟩

theorem Separate.connect (separate : draft.Separate grid) (source target : StepName)
    (label : Option String) : (Compiler.link source target label draft).Separate grid :=
  ⟨separate.apart, separate.known⟩

theorem Separate.markVisited (separate : draft.Separate grid) (template : Int) (id : String) :
    (draft.markVisited template id).Separate grid :=
  ⟨separate.apart, separate.known⟩

variable [PartialEquivBEq α]

theorem Separate.ne_of_vacant (separate : draft.Separate grid) (vacant : draft.Vacant position)
    {node : Node α} (member : node ∈ draft.nodes) : ¬ node.position.slot == position.slot := by
  intro same
  have taken := separate.known node member position.slot (PartialEquivBEq.symm same)
  rw [vacant] at taken
  cases taken

theorem Separate.push {node : Node α} (separate : draft.Separate grid)
    (clear : ∀ other ∈ draft.nodes, other.position.slot == node.position.slot →
      grid.Cramped other node) : (draft.push node).Separate grid where
  apart := by
    rw [Draft.push, List.pairwise_append]
    refine ⟨separate.apart, List.pairwise_singleton _ _, fun other member last within => ?_⟩
    rw [List.mem_singleton.mp within]
    exact clear other member
  known := by
    intro other member slot same
    rcases List.mem_append.mp member with old | new
    · rw [Draft.push, Slot.contains_insert, separate.known other old slot same, Bool.true_or]
    · rw [List.mem_singleton.mp new] at same
      exact Slot.contains_insert_of_beq same

theorem Separate.push_vacant {node : Node α} (separate : draft.Separate grid)
    (vacant : draft.Vacant node.position) : (draft.push node).Separate grid :=
  separate.push fun _ member same => absurd same (separate.ne_of_vacant vacant member)

/-- A condition and a delay are both clear of what is there, though not of each other. -/
theorem Separate.push_branch {condition delay : Node α} (separate : draft.Separate grid)
    (branch : ∃ owner index, condition.id = (StepName.condition owner index).text
      ∧ delay.id = (StepName.delay owner index).text)
    (beside : delay.position = grid.nextColumn condition.position)
    (first : draft.Vacant condition.position) (second : draft.Vacant delay.position) :
    ((draft.push condition).push delay).Separate grid := by
  apply (separate.push_vacant first).push
  intro other member same
  rcases List.mem_append.mp member with old | new
  · exact absurd same (separate.ne_of_vacant second old)
  · rw [List.mem_singleton.mp new] at same ⊢
    exact ⟨branch, beside, (Slot.beq_iff.mp same).1⟩

end Draft

namespace Compiler

variable {β γ : Type}

/-- Something holds of a result, if there is one. -/
inductive Yields (holds : β → Prop) : Except Fault β → Prop where
  | value {result : β} : holds result → Yields holds (.ok result)
  | fault {fault : Fault} : Yields holds (.error fault)

theorem Yields.bind {holds : β → Prop} {more : γ → Prop} {first : Except Fault β}
    {next : β → Except Fault γ} (start : Yields holds first)
    (rest : ∀ result, holds result → Yields more (next result)) : Yields more (first >>= next) := by
  cases start with
  | value known => exact rest _ known
  | fault => exact .fault

theorem Yields.imp {holds more : β → Prop} {result : Except Fault β} (known : Yields holds result)
    (weaker : ∀ result, holds result → more result) : Yields more result := by
  cases known with
  | value known => exact .value (weaker _ known)
  | fault => exact .fault

variable {compiler : Compiler α} {draft : Draft α}

theorem yields_place (wanted : Position α) (draft : Draft α) :
    Yields draft.Vacant (compiler.place wanted draft) := by
  rw [place]
  split
  · next position found =>
    obtain ⟨row, searched, rfl⟩ := Option.map_eq_some_iff.mp found
    have free := Grid.isTaken_of_freeRow searched
    rw [Grid.isTaken, List.any_cons, Bool.or_eq_false_iff] at free
    exact .value free.1
  · exact .fault

theorem yields_add (step : StepName) (kind : NodeKind) (position : Position α) (payload : Payload)
    (draft : Draft α) :
    Yields (fun drawn => ∃ node : Node α, node.id = step.text ∧ node.position = position
      ∧ drawn = draft.push node) (add step kind position payload draft) := by
  rw [add]
  split
  · next added => exact .value (Draft.exists_node_of_addNode added)
  · exact .fault

theorem yields_delayPayload : Yields (fun _ => True) compiler.delayPayload := by
  rw [delayPayload]
  split
  · exact .value trivial
  · exact .fault

variable [PartialEquivBEq α] (separate : draft.Separate compiler.grid)
include separate

theorem yields_drawEnd (anchor : Position α) :
    Yields (Draft.Separate compiler.grid) (compiler.drawEnd anchor draft) := by
  rw [drawEnd]
  split
  · exact .value separate
  · next unknown =>
    apply (yields_place _ draft).bind
    intro position vacant
    rw [Draft.ensureEnd, unknown]
    cases added : draft.addNode StepName.finish.text .finish position (.marker "End" false none) with
    | error => exact .fault
    | ok drawn =>
      obtain ⟨node, -, rfl, rfl⟩ := Draft.exists_node_of_addNode added
      have kept := separate.push_vacant vacant
      exact .value ⟨kept.apart, kept.known⟩

theorem yields_drawMessage (template : Template) (wanted : Position α) :
    Yields (fun drawn => drawn.1.Separate compiler.grid)
      (compiler.drawMessage template wanted draft) := by
  apply (yields_place wanted draft).bind
  intro position vacant
  apply Yields.bind (yields_add (.message template.id) .message position _ _)
  rintro _ ⟨node, -, rfl, rfl⟩
  exact .value ((separate.markVisited _ _).push_vacant vacant)

theorem yields_drawBranch (owner : Template) (parent : Position α) (index count : Nat)
    (response : Response) :
    Yields (fun drawn => drawn.1.Separate compiler.grid)
      (compiler.drawBranch owner parent index count response draft) := by
  rw [drawBranch]
  split
  · exact .fault
  · next row found =>
    have free := Grid.isTaken_of_freeRow found
    simp only [Grid.isTaken, List.any_cons, List.any_nil, Bool.or_false, Bool.or_eq_false_iff]
      at free
    apply Yields.bind (yields_add (.condition owner.id index) .condition _ _ draft)
    rintro _ ⟨condition, conditionName, conditionPlace, rfl⟩
    apply yields_delayPayload.bind
    intro payload _
    apply Yields.bind (yields_add (.delay owner.id index) .delay _ _ _)
    rintro _ ⟨delay, delayName, delayPlace, rfl⟩
    have drawn : ((draft.push condition).push delay).Separate compiler.grid := by
      apply separate.push_branch ⟨_, _, conditionName, delayName⟩
      · rw [delayPlace, conditionPlace]
        rfl
      · rw [conditionPlace]
        exact free.1
      · rw [delayPlace]
        exact free.2
    exact .value ⟨drawn.apart, drawn.known⟩

theorem yields_drawEnding (owner : Template) (parent : Position α) (index : Nat)
    (delay : Position α) (ending : Ending) :
    Yields (Draft.Separate compiler.grid)
      (compiler.drawEnding owner parent index delay ending draft) := by
  cases ending with
  | finish =>
    apply (yields_drawEnd separate delay).bind
    intro ended kept
    exact .value (kept.connect _ _ _)
  | back target => exact .value (separate.connect _ _ _)
  | cut target =>
    apply (yields_place _ draft).bind
    intro position vacant
    apply Yields.bind (yields_add (.continuation owner.id index) .finish position _ draft)
    rintro _ ⟨node, -, rfl, rfl⟩
    exact .value ((separate.push_vacant vacant).connect _ _ _)

theorem yields_closeMessage (template : Template) (position : Position α) (branches : Branches) :
    Yields (Draft.Separate compiler.grid)
      (compiler.closeMessage template position branches draft) := by
  cases branches with
  | done =>
    apply (yields_drawEnd separate position).bind
    intro ended kept
    exact .value (kept.connect _ _ _)
  | stop | into => exact .value separate

omit separate

theorem yields_drawBranches (owner : Template) (parent : Position α) (count index : Nat)
    (branches : Branches) (separate : draft.Separate compiler.grid) :
    Yields (Draft.Separate compiler.grid)
      (compiler.drawBranches owner parent count index branches draft) := by
  -- on the tree, for every draft: what a branch leads to is drawn before the next one is placed
  induction branches generalizing owner parent count index draft with
  | done => exact .value separate
  | stop response ending rest ih =>
    apply (yields_drawBranch separate owner parent index count response).bind
    rintro ⟨branched, delay⟩ branchedKept
    apply (yields_drawEnding branchedKept owner parent index delay ending).bind
    intro ended endedKept
    exact ih owner parent count (index + 1) endedKept
  | into response child inside rest insideIH restIH =>
    apply (yields_drawBranch separate owner parent index count response).bind
    rintro ⟨branched, delay⟩ branchedKept
    apply (yields_drawMessage branchedKept child _).bind
    rintro ⟨messaged, position⟩ messagedKept
    apply (insideIH child position inside.length 0 messagedKept).bind
    intro followed followedKept
    apply (yields_closeMessage followedKept child position inside).bind
    intro closed closedKept
    exact restIH owner parent count (index + 1) (closedKept.connect _ _ _)

theorem yields_drawStart : Yields (Draft.Separate compiler.grid) compiler.drawStart := by
  apply (yields_add .start .start compiler.grid.startPosition _ Draft.empty).imp
  rintro _ ⟨node, -, -, rfl⟩
  exact Draft.separate_empty.push nofun

theorem yields_drawOpen (expansion : Expansion) :
    Yields (Draft.Separate compiler.grid) (compiler.drawOpen expansion) := by
  apply yields_drawStart.bind
  intro started startedKept
  apply (yields_drawMessage (startedKept.connect .start (.message expansion.first.id) none)
    expansion.first _).bind
  rintro ⟨messaged, position⟩ messagedKept
  apply (yields_drawBranches expansion.first position _ 0 expansion.branches messagedKept).bind
  intro followed followedKept
  exact yields_closeMessage followedKept expansion.first position expansion.branches

theorem yields_drawNothing : Yields (Draft.Separate compiler.grid) compiler.drawNothing := by
  apply yields_drawStart.bind
  intro started startedKept
  apply (yields_drawEnd startedKept _).bind
  intro ended endedKept
  exact .value (endedKept.connect _ _ _)

theorem yields_drawTemplates (compiler : Compiler α) (templates : List Template) :
    Yields (Draft.Separate compiler.grid) (compiler.drawTemplates templates) := by
  cases templates with
  | nil => exact yields_drawNothing
  | cons first others =>
    apply (yields_drawOpen _).bind
    intro opened openedKept
    exact yields_drawEnd openedKept _

theorem pairwise_compile {templates : List Template} {compilation : Compilation α}
    (compiled : compiler.compile templates = .ok compilation) :
    compilation.graph.nodes.Pairwise fun first second =>
      first.position.slot == second.position.slot → compiler.grid.Cramped first second := by
  obtain ⟨draft, result, rfl⟩ := exists_drawn compiled
  have drawing := yields_drawTemplates compiler (compiler.rules.select templates).templates
  rw [result] at drawing
  cases drawing with
  | value separate => exact separate.apart

end Compiler

/-- A column of more than a thousandth is never lost in exact arithmetic. -/
theorem Grid.not_cramped {grid : Grid ℚ} (wide : 1 / 1000 < grid.levelSpacing)
    (condition delay : Node ℚ) : ¬ grid.Cramped condition delay := by
  intro cramped
  have rounded := eq_of_beq cramped.rounded
  rw [cramped.beside] at rounded
  exact Decimal.thousandth_ne_of_lt (add_lt_add_right wide _) rounded

/-- No two nodes take one slot, except perhaps the condition and the delay of one branch where the
column between them is lost in rounding; no exact column of more than a thousandth is lost. -/
theorem Compiler.compile_apart :
    (∀ {β : Type} [Coordinate β] [PartialEquivBEq β] (compiler : Compiler β)
      (templates : List Template) (compilation : Compilation β),
      compiler.compile templates = .ok compilation →
        compilation.graph.nodes.Pairwise fun first second =>
          first.position.slot == second.position.slot → compiler.grid.Cramped first second) ∧
    ∀ (compiler : Compiler ℚ) (templates : List Template) (compilation : Compilation ℚ),
      1 / 1000 < compiler.grid.levelSpacing → compiler.compile templates = .ok compilation →
        compilation.graph.nodes.Pairwise fun first second =>
          first.position.slot ≠ second.position.slot := by
  refine ⟨fun _ _ _ => pairwise_compile, fun compiler templates compilation wide compiled => ?_⟩
  apply (pairwise_compile compiled).imp
  intro first second covers same
  have equal : first.position.slot == second.position.slot :=
    Slot.beq_iff.mpr ⟨beq_of_eq (congrArg Slot.x same), beq_of_eq (congrArg Slot.y same)⟩
  exact Grid.not_cramped wide first second (covers equal)

namespace Samples

/-- The compiler `shallow` in exact arithmetic. -/
def rational : Compiler ℚ where
  rules := shallow.rules
  grid := ⟨200, 150, ⟨100, 300⟩, by decide +kernel⟩

theorem exists_rational_detour : ∃ compilation, rational.compile detour = .ok compilation :=
  exists_ok_of_isSome (by decide +kernel)

/-- Columns that are too narrow to be told apart. -/
def narrow : Compiler ℚ where
  rules := shallow.rules
  grid := ⟨1 / 10000, 150, ⟨100, 300⟩, by decide +kernel⟩

example : (narrow.compile detour).toOption.any fun compilation =>
    ¬ compilation.graph.nodes.Pairwise fun first second =>
      (first.position.slot == second.position.slot) = false := by
  decide +kernel

end Samples

theorem Compiler.compile_apart_detour :
    (∃ compilation, Samples.shallow.compile Samples.detour = .ok compilation ∧
      compilation.graph.nodes.Pairwise fun first second =>
        first.position.slot == second.position.slot →
          Samples.shallow.grid.Cramped first second) ∧
    1 / 1000 < Samples.rational.grid.levelSpacing ∧
      ∃ compilation, Samples.rational.compile Samples.detour = .ok compilation ∧
        compilation.graph.nodes.Pairwise fun first second =>
          first.position.slot ≠ second.position.slot := by
  obtain ⟨shallow, shallowCompiled⟩ := Samples.exists_compile_detour
  obtain ⟨rational, rationalCompiled⟩ := Samples.exists_rational_detour
  have wide : 1 / 1000 < Samples.rational.grid.levelSpacing := by
    decide +kernel
  exact ⟨⟨shallow, shallowCompiled, compile_apart.1 _ _ _ shallowCompiled⟩, wide,
    rational, rationalCompiled, compile_apart.2 _ _ _ wide rationalCompiled⟩

end ReplyFlow
