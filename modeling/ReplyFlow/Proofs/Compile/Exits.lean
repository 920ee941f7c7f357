import ReplyFlow.Proofs.Compile.Trunk

/-! Which ends of a compiled graph are reached.

Every node but the shared end is reached from the start, and so is the shared end if anything leads
to it. The branches that lead to it are those of replies that lead nowhere; a message without
branches leads to it as well. A branch that is cut does not, although a mark is an end too.
-/

set_option autoImplicit false

namespace ReplyFlow

/-! ## What leads to the end -/

/-- The conversation stops at this message, or at one of its branches. -/
def Scene.Stops (scene : Scene) : Prop :=
  scene.turns = [] ∨ ∃ turn ∈ scene.turns, turn.landing = .finish

section

variable {rules : Rules} {owner : Int} {place : Nat}

theorem Turn.landing_of_link {turn : Turn} {link : Link}
    (member : link ∈ (turn.plan rules owner place).links) (last : link.target = .finish) :
    turn.landing = .finish := by
  simp only [links_plan, List.mem_cons, List.not_mem_nil, or_false] at member
  rcases member with rfl | rfl | rfl
  · cases last
  · cases last
  · cases landing : turn.landing with
    | finish => rfl
    | message | continuation =>
      rw [landing] at last
      cases last

theorem Rules.exists_turn_of_link {turns : List Turn} {link : Link}
    (member : link ∈ (rules.turnsPlan owner place turns).links) (last : link.target = .finish) :
    ∃ turn ∈ turns, turn.landing = .finish := by
  obtain ⟨turn, _, offered, inside⟩ := mem_links_turnsPlan.mp member
  exact ⟨turn, List.fst_mem_of_mem_zipIdx offered, Turn.landing_of_link inside last⟩

theorem Scene.stops_of_link {scene : Scene} {link : Link}
    (member : link ∈ (scene.plan rules).links) (last : link.target = .finish) : scene.Stops := by
  simp only [plan, Blueprint.links_append, List.mem_append] at member
  rcases member with none | inside | closing
  · cases none
  · exact .inr (Rules.exists_turn_of_link inside last)
  · rw [closingPlan] at closing
    split at closing
    next silent => exact .inl silent
    · cases closing

theorem Rules.exists_turn_of_mark {turns : List Turn} {template index : Int}
    (member : .continuation template index ∈ (rules.turnsPlan owner place turns).ownSteps) :
    ∃ turn ∈ turns, ∃ id, turn.landing = .continuation id := by
  obtain ⟨turn, _, offered, inside⟩ := mem_ownSteps_turnsPlan.mp member
  refine ⟨turn, List.fst_mem_of_mem_zipIdx offered, ?_⟩
  rw [Turn.ownSteps_plan] at inside
  cases landing : turn.landing with
  | continuation id => exact ⟨id, rfl⟩
  | finish | message => simp [landing, Landing.mark] at inside

/-- A mark stands where a branch is cut. -/
theorem Rules.cuts_ne_nil {index : List Template} {first : Template} {template number : Int}
    (member : .continuation template number ∈
      (rules.scenesPlan (rules.expand index first).scenes).ownSteps) :
    (rules.expand index first).branches.cuts first ≠ [] := by
  obtain ⟨scene, known, inside⟩ := mem_ownSteps_scenesPlan.mp member
  rw [Scene.ownSteps_plan, List.mem_cons] at inside
  rcases inside with message | inside
  · cases message
  · obtain ⟨turn, offered, id, lands⟩ := exists_turn_of_mark inside
    exact fun whole => Branches.whole_scenes whole scene known turn offered id lands

end

/-! ## What is reached -/

namespace Graph

variable {α : Type}

/-- If some end is reached from the start, every node is. -/
def ReachedWithEnd (graph : Graph α) : Prop :=
  (∃ node ∈ graph.nodes, node.kind = .finish ∧ graph.Reaches StepName.start.text node.id) →
    ∀ node ∈ graph.nodes, graph.Reaches StepName.start.text node.id

instance (graph : Graph α) : Decidable graph.ReachedWithEnd :=
  decidable_of_iff
    ((∃ node ∈ graph.nodes, node.kind = .finish ∧
        node.id ∈ graph.reachableFrom StepName.start.text) →
      ∀ node ∈ graph.nodes, node.id ∈ graph.reachableFrom StepName.start.text)
    (by simp only [ReachedWithEnd, mem_reachableFrom])

theorem incoming_ne_nil {graph : Graph α} {source target : String}
    (joins : graph.Joins source target) : graph.incoming target ≠ [] := by
  obtain ⟨edge, present, _, leads⟩ := joins
  exact List.ne_nil_of_mem (graph.mem_incoming.mpr ⟨present, leads⟩)

namespace Shows

variable {graph : Graph α} {plan : Blueprint}

theorem reaches_or_loose (drawn : graph.Shows plan) (sound : plan.Sound) {step : StepName}
    (member : step ∈ plan.steps) : graph.Reaches StepName.start.text step.text ∨
      step = .finish ∧ ∀ link ∈ plan.links, link.target ≠ .finish :=
  sound.reached _ (drawn.keeps_reaches _) .refl step member

theorem reaches_node (drawn : graph.Shows plan) (sound : plan.Sound) {node : Node α}
    (member : node ∈ graph.nodes) (inner : node.id ≠ StepName.finish.text) :
    graph.Reaches StepName.start.text node.id := by
  obtain ⟨step, present, id, _⟩ := drawn.exists_step member
  rw [id] at inner ⊢
  rcases drawn.reaches_or_loose sound present with reached | ⟨last, _⟩
  · exact reached
  · exact absurd (congrArg StepName.text last) inner

theorem incoming_finish_iff (drawn : graph.Shows plan) :
    graph.incoming StepName.finish.text ≠ [] ↔ ∃ link ∈ plan.links, link.target = .finish := by
  constructor
  · intro entered
    by_contra none
    push Not at none
    exact entered (drawn.incoming_finish none)
  · rintro ⟨link, linked, last⟩
    exact incoming_ne_nil (drawn.joins_iff.mpr ⟨link, linked, rfl, last⟩)

/-- The shared end is reached exactly if something leads to it. -/
theorem reaches_finish_iff (drawn : graph.Shows plan) (sound : plan.Sound) :
    graph.Reaches StepName.start.text StepName.finish.text ↔
      graph.incoming StepName.finish.text ≠ [] := by
  constructor
  · intro path
    rcases Relation.ReflTransGen.cases_tail path with same | ⟨_, _, joins⟩
    · cases StepName.text_injective same
    · exact incoming_ne_nil joins
  · intro entered
    obtain ⟨link, linked, last⟩ := drawn.incoming_finish_iff.mp entered
    rcases drawn.reaches_or_loose sound sound.finish with reached | ⟨_, loose⟩
    · exact reached
    · exact absurd last (loose link linked)

theorem exists_finish (drawn : graph.Shows plan) (sound : plan.Sound) :
    ∃ node ∈ graph.nodes, node.id = StepName.finish.text ∧ node.kind = .finish := by
  have present : StepName.finish.text ∈ graph.ids := drawn.mem_ids.mpr sound.finish
  obtain ⟨node, member, id⟩ := List.mem_map.mp present
  obtain ⟨step, _, named, kind⟩ := drawn.exists_step member
  rw [id] at named
  rw [← StepName.text_injective named] at kind
  exact ⟨node, member, id, kind⟩

end Shows

end Graph

section

variable {α : Type} {graph : Graph α} {rules : Rules} {first : Template} {others : List Template}

/-- A message without branches has no kept reply; a branch to the end is a reply that leads
nowhere. -/
theorem Rules.stops_iff {scene : Scene}
    (member : scene ∈ (rules.expand (first :: others) first).scenes) :
    scene.Stops ↔ rules.kept (first :: others) scene.owner = [] ∨
      ∃ response ∈ rules.kept (first :: others) scene.owner, response.next = none := by
  rw [Scene.Stops, ← map_response_turns member, List.map_eq_nil_iff]
  refine or_congr_right ⟨?_, ?_⟩
  · rintro ⟨turn, offered, lands⟩
    refine ⟨turn.response, List.mem_map_of_mem offered, ?_⟩
    rw [next_turn member offered, lands]
    rfl
  · rintro ⟨_, known, next⟩
    obtain ⟨turn, offered, rfl⟩ := List.mem_map.mp known
    rw [next_turn member offered] at next
    refine ⟨turn, offered, ?_⟩
    cases landing : turn.landing with
    | finish => rfl
    | message | continuation =>
      rw [landing] at next
      cases next

namespace Graph.Shows

theorem incoming_of_stops (drawn : graph.Shows (rules.plan (first :: others))) {scene : Scene}
    (member : scene ∈ (rules.expand (first :: others) first).scenes) (stops : scene.Stops) :
    graph.incoming StepName.finish.text ≠ [] := by
  rcases stops with silent | ⟨turn, offered, lands⟩
  · exact incoming_ne_nil (drawn.leadsTo_finish member silent).joins
  · obtain ⟨place, bound, here⟩ := List.mem_iff_getElem.mp offered
    have leads := drawn.leadsTo_landing member (List.getElem?_eq_some_iff.mpr ⟨bound, here⟩)
    rw [lands] at leads
    exact incoming_ne_nil leads.joins

theorem exists_stop (drawn : graph.Shows (rules.plan (first :: others)))
    (entered : graph.incoming StepName.finish.text ≠ []) :
    ∃ scene ∈ (rules.expand (first :: others) first).scenes, scene.Stops := by
  obtain ⟨link, linked, last⟩ := drawn.incoming_finish_iff.mp entered
  rw [Rules.links_plan_cons, List.mem_cons] at linked
  rcases linked with rfl | inside
  · cases last
  · rw [(rules.perm_conversationPlan (first :: others) first).links.mem_iff] at inside
    obtain ⟨scene, member, own⟩ := List.mem_flatMap.mp inside
    exact ⟨scene, member, Scene.stops_of_link own last⟩

/-- An end that is not the shared one is a mark, so some branch is cut. -/
theorem cuts_ne_nil (drawn : graph.Shows (rules.plan (first :: others))) {node : Node α}
    (member : node ∈ graph.nodes) (kind : node.kind = .finish)
    (other : node.id ≠ StepName.finish.text) :
    (rules.expand (first :: others) first).branches.cuts first ≠ [] := by
  obtain ⟨step, present, id, same⟩ := drawn.exists_step member
  rw [kind] at same
  cases step with
  | continuation template place =>
    have own : StepName.continuation template place ∈ (rules.plan (first :: others)).ownSteps :=
      List.mem_filter.mpr ⟨present, rfl⟩
    rw [Rules.ownSteps_plan_cons, List.mem_cons,
      (Rules.perm_conversationPlan _ _ _).ownSteps.mem_iff] at own
    exact Rules.cuts_ne_nil (own.resolve_left nofun)
  | finish => exact absurd id other
  | start | message | condition | delay => cases same

theorem exists_mark (drawn : graph.Shows (rules.plan (first :: others)))
    (cut : (rules.expand (first :: others) first).branches.cuts first ≠ []) :
    ∃ node ∈ graph.nodes, node.kind = .finish ∧ node.id ≠ StepName.finish.text := by
  have marks := drawn.forall₂_marks.length_eq
  obtain ⟨node, marked⟩ := List.exists_mem_of_length_pos (marks ▸ List.length_pos_iff.mpr cut)
  obtain ⟨member, mark⟩ := List.mem_filter.mp marked
  obtain ⟨template, place, named⟩ := drawn.exists_continuation member mark
  obtain ⟨step, _, id, kind⟩ := drawn.exists_step member
  rw [named] at id
  rw [← StepName.text_injective id] at kind
  refine ⟨node, member, kind, fun same => ?_⟩
  rw [named] at same
  cases StepName.text_injective same

theorem kind_of_nil (drawn : graph.Shows (rules.plan [])) {node : Node α}
    (member : node ∈ graph.nodes) (kind : node.kind = .finish) :
    node.id = StepName.finish.text := by
  obtain ⟨step, present, id, same⟩ := drawn.exists_step member
  have steps : (rules.plan []).steps = [.start, .finish] := rfl
  rw [steps] at present
  rcases List.mem_pair.mp present with rfl | rfl
  · rw [kind] at same
    cases same
  · exact id

end Graph.Shows

end

namespace Compiler

variable {α : Type} [Coordinate α] {compiler : Compiler α} {templates : List Template}
  {compilation : Compilation α}

/-- An end beside the shared one is the mark of a branch that was cut. -/
theorem exists_mark_iff (compiled : compiler.compile templates = .ok compilation) :
    (∃ node ∈ compilation.graph.nodes, node.kind = .finish ∧ node.id ≠ StepName.finish.text) ↔
      compilation.report.truncated ≠ [] := by
  have drawn := shows_plan compiled
  cases selected : (compiler.rules.select templates).templates with
  | nil =>
    rw [selected] at drawn
    have enough : (compiler.rules.select templates).templates.length ≤
        compiler.rules.maxDepth + 1 := by
      rw [selected]
      exact Nat.zero_le _
    refine iff_of_false ?_ (not_not_intro (truncated_eq_nil compiled enough))
    rintro ⟨node, member, kind, other⟩
    exact other (drawn.kind_of_nil member kind)
  | cons first others =>
    rw [selected] at drawn
    rw [truncated_eq compiled selected]
    constructor
    · rintro ⟨node, member, kind, other⟩
      exact drawn.cuts_ne_nil member kind other
    · exact drawn.exists_mark

/-- Something leads to the shared end exactly if there are no templates at all, or a message has no
branch, or a kept reply leads nowhere. -/
theorem incoming_finish_iff (compiled : compiler.compile templates = .ok compilation) :
    compilation.graph.incoming StepName.finish.text ≠ [] ↔
      (compiler.rules.select templates).templates = [] ∨
      ∃ template ∈ compilation.graph.templates (compiler.rules.select templates).templates,
        compiler.rules.kept (compiler.rules.select templates).templates template = [] ∨
        ∃ response ∈ compiler.rules.kept (compiler.rules.select templates).templates template,
          response.next = none := by
  have drawn := shows_plan compiled
  cases selected : (compiler.rules.select templates).templates with
  | nil =>
    rw [selected] at drawn
    refine iff_of_true (drawn.incoming_finish_iff.mpr ?_) (.inl rfl)
    exact ⟨⟨.start, .finish, none⟩, List.mem_cons_self, rfl⟩
  | cons first others =>
    rw [selected] at drawn
    have entered := templates_eq compiled selected
    rw [or_iff_right (List.cons_ne_nil first others), entered]
    constructor
    · intro used
      obtain ⟨scene, member, stops⟩ := drawn.exists_stop used
      exact ⟨scene.owner, List.mem_map_of_mem member, (Rules.stops_iff member).mp stops⟩
    · rintro ⟨_, known, stops⟩
      obtain ⟨scene, member, rfl⟩ := List.mem_map.mp known
      exact drawn.incoming_of_stops member ((Rules.stops_iff member).mpr stops)

/-- Every node but the shared end is reached, and the shared end is reached exactly if something
leads to it. So if some end is reached every node is, unless the ends that are reached are all marks
of branches that were cut. -/
theorem compile_exits (compiled : compiler.compile templates = .ok compilation) :
    (∀ node ∈ compilation.graph.nodes, node.id ≠ StepName.finish.text →
      compilation.graph.Reaches StepName.start.text node.id) ∧
    (compilation.graph.Reaches StepName.start.text StepName.finish.text ↔
      (compiler.rules.select templates).templates = [] ∨
      ∃ template ∈ compilation.graph.templates (compiler.rules.select templates).templates,
        compiler.rules.kept (compiler.rules.select templates).templates template = [] ∨
        ∃ response ∈ compiler.rules.kept (compiler.rules.select templates).templates template,
          response.next = none) ∧
    ((∃ node ∈ compilation.graph.nodes, node.kind = .finish ∧
        compilation.graph.Reaches StepName.start.text node.id) ↔
      compilation.graph.Reaches StepName.start.text StepName.finish.text ∨
        compilation.report.truncated ≠ []) ∧
    (compilation.graph.ReachedWithEnd ↔
      compilation.graph.Reaches StepName.start.text StepName.finish.text ∨
        compilation.report.truncated = []) := by
  have drawn := shows_plan compiled
  have sound := compiler.rules.sound_plan (compiler.rules.select templates).templates
  have inner : ∀ node ∈ compilation.graph.nodes, node.id ≠ StepName.finish.text →
      compilation.graph.Reaches StepName.start.text node.id :=
    fun _ member other => drawn.reaches_node sound member other
  obtain ⟨last, present, named, kind⟩ := drawn.exists_finish sound
  have ended : (∃ node ∈ compilation.graph.nodes, node.kind = .finish ∧
        compilation.graph.Reaches StepName.start.text node.id) ↔
      compilation.graph.Reaches StepName.start.text StepName.finish.text ∨
        compilation.report.truncated ≠ [] := by
    rw [← exists_mark_iff compiled]
    constructor
    · rintro ⟨node, member, final, reached⟩
      by_cases same : node.id = StepName.finish.text
      · exact .inl (same ▸ reached)
      · exact .inr ⟨node, member, final, same⟩
    · rintro (reached | ⟨node, member, final, other⟩)
      · exact ⟨last, present, kind, named ▸ reached⟩
      · exact ⟨node, member, final, inner node member other⟩
  refine ⟨inner, ?_, ended, ?_⟩
  · rw [drawn.reaches_finish_iff sound, incoming_finish_iff compiled]
  · rw [Graph.ReachedWithEnd, ended]
    constructor
    · intro whole
      by_cases cut : compilation.report.truncated = []
      · exact .inr cut
      · exact .inl (named ▸ whole (.inr cut) last present)
    · intro closed some node member
      by_cases same : node.id = StepName.finish.text
      -- with nothing cut, the end that is reached can only be the shared one
      · exact same ▸ closed.elim id fun whole => some.resolve_right (not_not_intro whole)
      · exact inner node member same

theorem compile_exits_detour :
    ∃ compilation, Samples.shallow.compile Samples.detour = .ok compilation ∧
      compilation.report.truncated ≠ [] ∧ compilation.graph.ReachedWithEnd := by
  obtain ⟨compilation, compiled⟩ := Samples.exists_compile_detour
  have cut : (Samples.shallow.compile Samples.detour).toOption.any
      (!·.report.truncated.isEmpty) := by decide +kernel
  rw [compiled] at cut
  obtain ⟨_, finish, _, whole⟩ := compile_exits compiled
  -- the third message has no branches, so it leads to the end
  have stops : compilation.graph.Reaches StepName.start.text StepName.finish.text := by
    have silent : (Samples.shallow.compile Samples.detour).toOption.any fun compilation =>
        (compilation.graph.templates (Samples.shallow.rules.select Samples.detour).templates).any
          fun template => (Samples.shallow.rules.kept
            (Samples.shallow.rules.select Samples.detour).templates template).isEmpty := by
      decide +kernel
    rw [compiled] at silent
    obtain ⟨template, member, none⟩ := List.any_eq_true.mp silent
    exact finish.mpr (.inr ⟨template, member, .inl (List.isEmpty_iff.mp none)⟩)
  exact ⟨compilation, compiled, by simpa [Except.toOption] using cut, whole.mpr (.inl stops)⟩

/-- With no level left both branches of the first message are cut. Their marks are reached, and the
end that is drawn beside them is not. -/
theorem not_reachedWithEnd_detour :
    ∃ compilation, (Samples.shallow.withDepth 0).compile Samples.detour = .ok compilation ∧
      ¬ compilation.graph.ReachedWithEnd := by
  have broken : ((Samples.shallow.withDepth 0).compile Samples.detour).toOption.any
      fun compilation => !decide compilation.graph.ReachedWithEnd := by decide +kernel
  cases compiled : (Samples.shallow.withDepth 0).compile Samples.detour with
  | error => rw [compiled] at broken; cases broken
  | ok compilation =>
    rw [compiled] at broken
    exact ⟨compilation, rfl, by simpa [Except.toOption] using broken⟩

end Compiler

end ReplyFlow
