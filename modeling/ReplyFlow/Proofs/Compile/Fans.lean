import Mathlib.Algebra.BigOperators.Group.Finset.Basic
import ReplyFlow.Proofs.Compile.Apart
import ReplyFlow.Proofs.Compile.Placement
import ReplyFlow.Proofs.Compile.Trunk

/-! How the branches of a message fan out.

Without collisions they are spread evenly around the row of their message. A branch that collides
moves down by whole rows, and never past a later one, whatever an earlier one leads to.
-/

set_option autoImplicit false

namespace ReplyFlow

namespace Grid

variable {grid : Grid ℚ} {nodes : List (Node ℚ)} {owner : Int} {parent : Position ℚ}
  {count place : ℕ} {row : ℚ} {rows : List ℚ}

/-- Around any middle, rows are as far above it as below it. -/
theorem sum_nominalRow (grid : Grid ℚ) (row : ℚ) (count : ℕ) :
    ∑ place ∈ Finset.range count, grid.nominalRow row count place = count * row := by
  have partial_sum (middle : ℚ) (shown : ℕ) :
      ∑ place ∈ Finset.range shown, (row + (place - middle) * grid.branchSpacing) =
        shown * (row + ((shown - 1) / 2 - middle) * grid.branchSpacing) := by
    induction shown with
    | zero => simp
    | succ shown ih =>
      rw [Finset.sum_range_succ, ih]
      push_cast
      ring
  simp only [nominalRow]
  rw [partial_sum, sub_self, zero_mul, add_zero]

/-- Branches from number `place` on, from the top down. -/
structure Fanned (grid : Grid ℚ) (nodes : List (Node ℚ)) (owner : Int) (parent : Position ℚ)
    (count place : ℕ) (rows : List ℚ) : Prop where
  ordered : rows.Pairwise (· < ·)
  seats : ∀ (index : ℕ) (bound : index < rows.length),
    grid.Seats owner parent count (place + index) nodes rows[index]

theorem fanned_nil : grid.Fanned nodes owner parent count place [] :=
  ⟨.nil, nofun⟩

theorem Fanned.cons (rest : grid.Fanned nodes owner parent count (place + 1) rows)
    (seats : grid.Seats owner parent count place nodes row) (ahead : ∀ later ∈ rows, row < later) :
    grid.Fanned nodes owner parent count place (row :: rows) where
  ordered := rest.ordered.cons ahead
  seats index bound := by
    cases index with
    | zero => exact seats
    | succ index =>
      have later := rest.seats index (Nat.lt_of_succ_lt_succ bound)
      rwa [Nat.add_assoc, Nat.add_comm 1] at later

end Grid

section

variable {grid : Grid ℚ} {nodes : List (Node ℚ)} {owner : Int} {parent : Position ℚ}
  {count place : ℕ} {rows : List ℚ} {tree : Branches}

theorem Branches.length_turns (tree : Branches) : tree.turns.length = tree.length := by
  induction tree with
  | done => rfl
  | stop _ _ _ ih | into _ _ _ _ _ ih => exact congrArg (· + 1) ih

theorem Branches.Laid.length_eq (laid : tree.Laid grid nodes owner parent count place rows) :
    rows.length = tree.length := by
  induction laid with
  | done => rfl
  | stop _ _ _ _ ih => exact congrArg (· + 1) ih
  | into _ _ _ _ _ _ _ ih => exact congrArg (· + 1) ih

theorem Branches.Laid.fanned (laid : tree.Laid grid nodes owner parent count place rows) :
    grid.Fanned nodes owner parent count place rows := by
  induction laid with
  | done => exact Grid.fanned_nil
  | stop seats ahead _ _ ih => exact ih.cons seats ahead
  | into seats ahead _ _ _ _ _ ih => exact ih.cons seats ahead

/-- The branches of one scene fan out from its message. -/
def Scene.Fans (scene : Scene) (grid : Grid ℚ) (nodes : List (Node ℚ)) : Prop :=
  ∃ parent rows, Stands nodes (.message scene.owner.id) parent ∧
    rows.length = scene.turns.length ∧
    grid.Fanned nodes scene.owner.id parent rows.length 0 rows

theorem Branches.Laid.scene_fans {child : Template}
    (message : Stands nodes (.message child.id) parent)
    (laid : tree.Laid grid nodes child.id parent tree.length 0 rows) :
    Scene.Fans ⟨child, tree.turns⟩ grid nodes :=
  ⟨parent, rows, message, laid.length_eq.trans tree.length_turns.symm,
    laid.length_eq ▸ laid.fanned⟩

theorem Branches.Laid.fans (laid : tree.Laid grid nodes owner parent count place rows) :
    ∀ scene ∈ tree.scenes, scene.Fans grid nodes := by
  induction laid with
  | done => exact nofun
  | stop _ _ _ _ ih => exact ih
  | into _ _ message _ inside _ insideIH restIH =>
    intro scene member
    rw [scenes, List.cons_append, List.mem_cons, List.mem_append] at member
    rcases member with rfl | below | beside
    · exact inside.scene_fans message
    · exact insideIH scene below
    · exact restIH scene beside

theorem Expansion.Laid.fans {expansion : Expansion} (laid : expansion.Laid grid nodes) :
    ∀ scene ∈ expansion.scenes, scene.Fans grid nodes := by
  obtain ⟨position, rows, message, _, branches⟩ := laid.branches
  exact List.forall_mem_cons.mpr ⟨branches.scene_fans message, branches.fans⟩

end

/-! ## In the graph -/

namespace Graph

/-- The branches of a message: no others than these are drawn, one below the other, each with its
delay beside it and some whole rows below its nominal one; and these are balanced around the
message. -/
structure Fan (graph : Graph ℚ) (grid : Grid ℚ) (template : Int) (parent : Position ℚ)
    (rows : List ℚ) : Prop where
  message : graph.place? (.message template) = some parent
  only : ∀ number : Int, graph.place? (.condition template number) ≠ none →
    ∃ place < rows.length, number = (place : ℕ)
  condition : ∀ (place : ℕ) (bound : place < rows.length),
    graph.place? (.condition template place) = some ⟨parent.x + grid.levelSpacing, rows[place]⟩
  delay : ∀ (place : ℕ) (bound : place < rows.length),
    graph.place? (.delay template place) =
      some ⟨parent.x + grid.levelSpacing + grid.levelSpacing, rows[place]⟩
  ordered : rows.Pairwise (· < ·)
  shifted : ∀ (place : ℕ) (bound : place < rows.length), ∃ moved : ℕ,
    rows[place] = grid.nominalRow parent.y rows.length place + moved * grid.branchSpacing
  balanced : ∑ place ∈ Finset.range rows.length, grid.nominalRow parent.y rows.length place =
    rows.length * parent.y

end Graph

section

variable {rules : Rules} {owner : Int} {place : ℕ}

theorem Rules.index_lt_of_mem {turns : List Turn} {step : StepName}
    (member : step ∈ (rules.turnsPlan owner place turns).ownSteps) :
    ∃ index < place + turns.length, step.index? = some (index : Int) := by
  obtain ⟨turn, index, offered, inside⟩ := mem_ownSteps_turnsPlan.mp member
  exact ⟨index, List.snd_lt_add_of_mem_zipIdx offered, (Turn.mem_ownSteps inside).2⟩

theorem Graph.Shows.mem_steps_of_place? {α : Type} {graph : Graph α} {plan : Blueprint}
    (drawn : graph.Shows plan) {step : StepName} {position : Position α}
    (placed : graph.place? step = some position) : step ∈ plan.steps := by
  obtain ⟨node, found, _⟩ := Option.map_eq_some_iff.mp placed
  have named : node.id = step.text := by simpa using List.find?_some found
  obtain ⟨other, known, id, _⟩ := drawn.exists_step (List.mem_of_find?_eq_some found)
  exact StepName.text_injective (named.symm.trans id) ▸ known

theorem Graph.Shows.exists_turn {α : Type} {graph : Graph α} {first : Template}
    {others : List Template} (drawn : graph.Shows (rules.plan (first :: others))) {scene : Scene}
    (member : scene ∈ (rules.expand (first :: others) first).scenes) {number : Int}
    (present : graph.place? (.condition scene.owner.id number) ≠ none) :
    ∃ place < scene.turns.length, number = (place : ℕ) := by
  obtain ⟨position, placed⟩ := Option.ne_none_iff_exists'.mp present
  have own : StepName.condition scene.owner.id number ∈
      (rules.plan (first :: others)).ownSteps :=
    List.mem_filter.mpr ⟨drawn.mem_steps_of_place? placed, rfl⟩
  rw [Rules.ownSteps_plan_cons, List.mem_cons, (rules.perm_conversationPlan _ _).ownSteps.mem_iff,
    Rules.mem_ownSteps_scenesPlan] at own
  obtain ⟨other, scened, inside⟩ := own.resolve_left nofun
  -- the step belongs to this scene, as no other one has the same owner
  have owned : other.owner.id = scene.owner.id :=
    (Option.some.inj (Scene.owner_of_mem inside)).symm
  cases List.inj_on_of_nodup_map (rules.nodup_owners _ _) scened member owned
  rw [Scene.ownSteps_plan, List.mem_cons] at inside
  obtain ⟨place, bound, numbered⟩ := Rules.index_lt_of_mem (inside.resolve_left nofun)
  exact ⟨place, by omega, Option.some.inj numbered⟩

end

namespace Compiler

/-- In exact arithmetic everything is compiled, and the branches of every message fan out: however
far they are moved, they keep their order. -/
theorem compile_fans (compiler : Compiler ℚ) (templates : List Template) :
    (0 ≤ compiler.rules.delayDuration →
      ∃ compilation, compiler.compile templates = .ok compilation) ∧
    ∀ compilation, compiler.compile templates = .ok compilation →
      ∀ template ∈ compilation.graph.templates (compiler.rules.select templates).templates,
        ∃ message rows,
          rows.length =
            (compiler.rules.kept (compiler.rules.select templates).templates template).length ∧
          compilation.graph.Fan compiler.grid template.id message rows := by
  refine ⟨exists_compile, fun compilation compiled template entered => ?_⟩
  have drawn := shows_plan compiled
  have distinct := drawn.nodup_ids (compiler.rules.sound_plan _).distinct
  cases selected : (compiler.rules.select templates).templates with
  | nil =>
    rw [selected, Graph.templates] at entered
    obtain ⟨_, _, found⟩ := List.mem_filterMap.mp entered
    cases found
  | cons first others =>
    rw [selected] at drawn entered
    rw [templates_eq compiled selected] at entered
    obtain ⟨scene, member, rfl⟩ := List.mem_map.mp entered
    have laid := exists_laid compiled selected
    obtain ⟨message, rows, stands, length, fanned⟩ := laid.fans scene member
    have seats (place : ℕ) (bound : place < rows.length) :
        compiler.grid.Seats scene.owner.id message rows.length place compilation.graph.nodes
          rows[place] := by
      simpa using fanned.seats place bound
    refine ⟨message, rows, ?_, {
      message := Graph.place?_of_stands distinct stands
      only := fun number present => length ▸ drawn.exists_turn member present
      condition := fun place bound => Graph.place?_of_stands distinct (seats place bound).condition
      delay := fun place bound => Graph.place?_of_stands distinct (seats place bound).delay
      ordered := fanned.ordered
      shifted := fun place bound => (seats place bound).shifted
      balanced := compiler.grid.sum_nominalRow message.y rows.length }⟩
    rw [length, Rules.length_kept member]

theorem compile_fans_detour :
    0 ≤ Samples.rational.rules.delayDuration ∧
      ∃ compilation first others, Samples.rational.compile Samples.detour = .ok compilation ∧
        (Samples.rational.rules.select Samples.detour).templates = first :: others ∧
        first ∈ compilation.graph.templates (first :: others) ∧
        ∃ message rows, rows.length = 2 ∧
          compilation.graph.Fan Samples.rational.grid first.id message rows := by
  have waits : 0 ≤ Samples.rational.rules.delayDuration := by decide
  obtain ⟨compilation, compiled⟩ := (compile_fans _ Samples.detour).1 waits
  have selected : (Samples.rational.rules.select Samples.detour).templates =
      Samples.detour.head (List.cons_ne_nil _ _) :: Samples.detour.tail := rfl
  have entered : Samples.detour.head (List.cons_ne_nil _ _) ∈ compilation.graph.templates
      (Samples.rational.rules.select Samples.detour).templates := by
    rw [selected, templates_eq compiled selected]
    exact List.mem_cons_self
  obtain ⟨message, rows, length, fan⟩ := (compile_fans _ _).2 compilation compiled _ entered
  exact ⟨waits, compilation, _, _, compiled, selected, entered, message, rows, length, fan⟩

end Compiler

end ReplyFlow
