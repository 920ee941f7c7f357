import ReplyFlow.Proofs.Compile.Linkage
import ReplyFlow.Proofs.Compile.Naming
import ReplyFlow.Proofs.Compile.Realisation
import ReplyFlow.Proofs.Graph.Soundness
import ReplyFlow.Template.Samples

/-! Every compiled graph is sound. -/

set_option autoImplicit false

namespace ReplyFlow

variable {α : Type}

/-- What makes a graph sound, said of the blueprint that it shows. -/
structure Blueprint.Sound (plan : Blueprint) : Prop where
  distinct : plan.ownSteps.Nodup
  agrees : ∀ sketch ∈ plan.sketches, sketch.Agrees
  start : ∃ rest, plan.sketches = .start :: rest ∧ ∀ sketch ∈ rest, sketch.step.kind ≠ .start
  finish : .finish ∈ plan.steps
  messages : (plan.steps.filterMap StepName.message?).Nodup
  joined : ∀ link ∈ plan.links, link.source ∈ plan.steps ∧ link.target ∈ plan.steps
  reached : ∀ Reached : StepName → Prop, plan.Keeps Reached → Reached .start →
    ∀ step ∈ plan.steps, Reached step ∨ step = .finish ∧ ∀ link ∈ plan.links, link.target ≠ .finish

namespace Graph.Shows

variable {graph : Graph α} {plan : Blueprint}

theorem ids_eq (drawn : graph.Shows plan) :
    graph.ids = ((settle false plan.sketches).map Sketch.step).map StepName.text := by
  have contents := congrArg (List.map NodeContent.id) drawn.contents
  rw [List.map_map, List.map_map] at contents
  rw [List.map_map]
  exact contents

theorem mem_ids (drawn : graph.Shows plan) {step : StepName} :
    step.text ∈ graph.ids ↔ step ∈ plan.steps := by
  rw [drawn.ids_eq, List.mem_map_of_injective fun _ _ => StepName.text_injective, mem_settle]
  simp [Blueprint.steps]

theorem nodup_ids (drawn : graph.Shows plan) (distinct : plan.ownSteps.Nodup) :
    graph.ids.Nodup := by
  rw [drawn.ids_eq]
  exact (nodup_settle distinct).map fun _ _ => StepName.text_injective

theorem exists_sketch (drawn : graph.Shows plan) {node : Node α} (member : node ∈ graph.nodes) :
    ∃ sketch ∈ settle false plan.sketches, node.content = sketch.content := by
  have content : node.content ∈ graph.nodes.map Node.content := List.mem_map_of_mem member
  rw [drawn.contents] at content
  obtain ⟨sketch, present, same⟩ := List.mem_map.mp content
  exact ⟨sketch, present, same.symm⟩

theorem exists_node (drawn : graph.Shows plan) {sketch : Sketch}
    (member : sketch ∈ settle false plan.sketches) :
    ∃ node ∈ graph.nodes, node.content = sketch.content := by
  have content : sketch.content ∈ (settle false plan.sketches).map Sketch.content :=
    List.mem_map_of_mem member
  rw [← drawn.contents] at content
  exact List.mem_map.mp content

theorem joins_iff (drawn : graph.Shows plan) {source target : StepName} :
    graph.Joins source.text target.text ↔
      ∃ link ∈ plan.links, link.source = source ∧ link.target = target := by
  rw [Joins, drawn.edges]
  constructor
  · rintro ⟨_, member, sources, targets⟩
    obtain ⟨link, present, rfl⟩ := List.mem_map.mp member
    exact ⟨link, present, StepName.text_injective sources, StepName.text_injective targets⟩
  · rintro ⟨link, present, rfl, rfl⟩
    exact ⟨link.edge, List.mem_map_of_mem present, rfl, rfl⟩

/-- Only the end is left out of a drawing, so all messages are in it. -/
theorem messages_settle (sketches : List Sketch) :
    (settle false sketches).filterMap (fun sketch => sketch.step.message?) =
      sketches.filterMap fun sketch => sketch.step.message? := by
  -- both sides are taken from the sketches of messages alone, and these are all kept
  have kept := filter_settle false sketches (fun sketch => sketch.step.message?.isSome)
    (fun sketch _ message last => by simp [last, StepName.message?] at message)
  have only (items : List Sketch) :
      (items.filter fun sketch => sketch.step.message?.isSome).filterMap
        (fun sketch => sketch.step.message?) = items.filterMap fun sketch => sketch.step.message? := by
    rw [List.filterMap_filter]
    congr
    funext sketch
    cases sketch.step.message? <;> rfl
  rw [← only, kept, only]

theorem messageTemplates_eq (drawn : graph.Shows plan)
    (agrees : ∀ sketch ∈ plan.sketches, sketch.Agrees) :
    graph.messageTemplates = plan.steps.filterMap StepName.message? := by
  have nodes : graph.messageTemplates = (graph.nodes.map Node.content).filterMap
      NodeContent.message? := by
    rw [messageTemplates_eq_filterMap, List.filterMap_map]
    congr
    funext node
    exact node.message?_content.symm
  have sketches : ∀ sketch ∈ settle false plan.sketches,
      (NodeContent.message? ∘ Sketch.content) sketch = sketch.step.message? :=
    fun sketch member => (agrees sketch ((settle_sublist false _).subset member)).message
  rw [nodes, drawn.contents, List.filterMap_map, List.filterMap_congr sketches, messages_settle,
    Blueprint.steps, List.filterMap_map]
  rfl

/-- The nodes of one kind other than ends are the sketches of that kind. -/
theorem contents_nodesOfKind (drawn : graph.Shows plan) (kind : NodeKind)
    (other : kind ≠ StepName.finish.kind) :
    (graph.nodesOfKind kind).map Node.content =
      (plan.sketches.filter fun sketch => sketch.step.kind == kind).map Sketch.content := by
  have kept := filter_settle false plan.sketches (fun sketch => sketch.step.kind == kind) (by
    intro sketch _ same last
    rw [beq_iff_eq, last] at same
    exact other same.symm)
  calc (graph.nodesOfKind kind).map Node.content
    _ = (graph.nodes.map Node.content).filter (fun content => content.kind == kind) := by
      rw [nodesOfKind, List.filter_map]
      rfl
    _ = ((settle false plan.sketches).filter fun sketch => sketch.step.kind == kind).map
        Sketch.content := by
      rw [drawn.contents, List.filter_map]
      rfl
    _ = _ := by rw [kept]

theorem exists_start (drawn : graph.Shows plan)
    (start : ∃ rest, plan.sketches = .start :: rest ∧ ∀ sketch ∈ rest, sketch.step.kind ≠ .start) :
    ∃ node, graph.nodesOfKind .start = [node] ∧ node.id = StepName.start.text := by
  obtain ⟨rest, sketches, others⟩ := start
  have contents := drawn.contents_nodesOfKind .start NodeKind.noConfusion
  have none : rest.filter (fun sketch => sketch.step.kind == .start) = [] :=
    List.filter_eq_nil_iff.mpr fun sketch member same => others sketch member (beq_iff_eq.mp same)
  rw [sketches, List.filter_cons_of_pos rfl, none] at contents
  obtain ⟨node, nodes, content⟩ := List.map_eq_singleton_iff.mp contents
  exact ⟨node, nodes, congrArg NodeContent.id content⟩

theorem joined (drawn : graph.Shows plan)
    (joined : ∀ link ∈ plan.links, link.source ∈ plan.steps ∧ link.target ∈ plan.steps) :
    ∀ edge ∈ graph.edges, edge.source ∈ graph.ids ∧ edge.target ∈ graph.ids := by
  intro edge member
  rw [drawn.edges] at member
  obtain ⟨link, present, rfl⟩ := List.mem_map.mp member
  exact ⟨drawn.mem_ids.mpr (joined link present).1, drawn.mem_ids.mpr (joined link present).2⟩

/-- What every link keeps holds of the ids that can be reached. -/
theorem keeps_reaches (drawn : graph.Shows plan) (entry : String) :
    plan.Keeps fun step => graph.Reaches entry step.text := by
  intro link member before
  exact before.tail (drawn.joins_iff.mpr ⟨link, member, rfl, rfl⟩)

theorem incoming_finish (drawn : graph.Shows plan)
    (loose : ∀ link ∈ plan.links, link.target ≠ .finish) :
    graph.incoming StepName.finish.text = [] := by
  rw [List.eq_nil_iff_forall_not_mem]
  intro edge member
  obtain ⟨present, target⟩ := graph.mem_incoming.mp member
  rw [drawn.edges] at present
  obtain ⟨link, linked, rfl⟩ := List.mem_map.mp present
  exact loose link linked (StepName.text_injective target)

theorem sound (drawn : graph.Shows plan) (sound : plan.Sound) : graph.Sound where
  distinct := drawn.nodup_ids sound.distinct
  ends := by
    have present : StepName.finish ∈ (settle false plan.sketches).map Sketch.step :=
      mem_settle.mpr ⟨sound.finish, Bool.noConfusion⟩
    obtain ⟨sketch, member, last⟩ := List.mem_map.mp present
    obtain ⟨node, drawnNode, content⟩ := drawn.exists_node member
    have kind : node.kind = .finish := by
      rw [show node.kind = sketch.step.kind from congrArg NodeContent.kind content, last]
      rfl
    intro none
    have : node ∈ graph.nodesOfKind .finish :=
      List.mem_filter.mpr ⟨drawnNode, beq_iff_eq.mpr kind⟩
    rw [none] at this
    cases this
  templates := drawn.messageTemplates_eq sound.agrees ▸ sound.messages
  joined := drawn.joined sound.joined
  entrance := by
    obtain ⟨start, starts, entry⟩ := drawn.exists_start sound.start
    refine ⟨start, starts, fun node member => ?_⟩
    obtain ⟨sketch, present, content⟩ := drawn.exists_sketch member
    have step : sketch.step ∈ plan.steps :=
      List.mem_map_of_mem ((settle_sublist false _).subset present)
    have id : node.id = sketch.step.text := congrArg NodeContent.id content
    have kind : node.kind = sketch.step.kind := congrArg NodeContent.kind content
    rw [entry, id, kind]
    -- `Reached` is what can be reached from the start of the graph
    rcases sound.reached _ (drawn.keeps_reaches _) .refl sketch.step step with reached | ⟨last, loose⟩
    · exact .inl reached
    · rw [last]
      exact .inr ⟨rfl, drawn.incoming_finish loose⟩

end Graph.Shows

/-! ## Blueprints of conversations -/

theorem Blueprint.Perm.mem_steps {first second : Blueprint} (same : first.Perm second)
    {step : StepName} : step ∈ first.steps ↔ step ∈ second.steps :=
  (same.sketches.map Sketch.step).mem_iff

theorem Blueprint.Perm.ownSteps {first second : Blueprint} (same : first.Perm second) :
    first.ownSteps.Perm second.ownSteps :=
  (same.sketches.map Sketch.step).filter _

namespace Rules

variable {rules : Rules} {templates : List Template} {first : Template}

theorem mem_steps_scenesPlan {scenes : List Scene} {step : StepName} :
    step ∈ (rules.scenesPlan scenes).steps ↔ ∃ scene ∈ scenes, step ∈ (scene.plan rules).steps := by
  induction scenes with
  | nil => simp [scenesPlan, Blueprint.steps]
  | cons scene rest ih =>
    rw [scenesPlan_cons, Blueprint.steps_append, List.mem_append, ih]
    simp

/-- The part of the drawing that messages make, with all that follows them. -/
def conversationPlan (rules : Rules) (templates : List Template) (first : Template) : Blueprint :=
  rules.messagePlan first (rules.expand templates first).branches

theorem perm_conversationPlan (rules : Rules) (templates : List Template) (first : Template) :
    (rules.conversationPlan templates first).Perm
      (rules.scenesPlan (rules.expand templates first).scenes) :=
  rules.perm_messagePlan first _

theorem nodup_conversationPlan (rules : Rules) (templates : List Template) (first : Template) :
    (rules.conversationPlan templates first).ownSteps.Nodup :=
  (rules.perm_conversationPlan templates first).ownSteps.nodup_iff.mpr
    (nodup_ownSteps_scenesPlan (nodup_owners rules templates first))

theorem start_notMem_conversationPlan :
    StepName.start ∉ (rules.conversationPlan templates first).steps := by
  intro member
  rw [(perm_conversationPlan rules templates first).mem_steps, mem_steps_scenesPlan] at member
  obtain ⟨scene, _, inside⟩ := member
  -- a step of a scene has an owner
  have own : StepName.start ∈ (scene.plan rules).ownSteps :=
    List.mem_filter.mpr ⟨inside, rfl⟩
  cases Scene.owner_of_mem own

theorem agrees_conversationPlan :
    ∀ sketch ∈ (rules.conversationPlan templates first).sketches, sketch.Agrees := by
  intro sketch member
  rw [(perm_conversationPlan rules templates first).sketches.mem_iff] at member
  obtain ⟨scene, _, inside⟩ := List.mem_flatMap.mp member
  exact Scene.agrees_plan sketch inside

theorem joined_conversationPlan :
    ∀ link ∈ (rules.conversationPlan templates first).links,
      link.source ∈ (rules.conversationPlan templates first).steps ∧
        link.target ∈ (rules.conversationPlan templates first).steps := by
  intro link member
  have same := rules.perm_conversationPlan templates first
  rw [same.links.mem_iff] at member
  obtain ⟨scene, known, inside⟩ := List.mem_flatMap.mp member
  rw [same.mem_steps, same.mem_steps, mem_steps_scenesPlan, mem_steps_scenesPlan]
  -- a target outside the scene is a message, which has a scene of its own
  obtain ⟨source, target | ⟨turn, offered, id, lands, leads⟩⟩ := Scene.joined inside
  · exact ⟨⟨scene, known, source⟩, scene, known, target⟩
  · obtain ⟨other, present, rfl⟩ := exists_scene known offered lands
    exact ⟨⟨scene, known, source⟩, other, present, leads ▸ List.mem_cons_self⟩

theorem reached_conversationPlan {Reached : StepName → Prop}
    (keeps : (rules.conversationPlan templates first).Keeps Reached)
    (entry : Reached (.message first.id)) :
    ∀ step ∈ (rules.conversationPlan templates first).steps, Reached step := by
  simp only [conversationPlan, messagePlan, Blueprint.keeps_append] at keeps
  obtain ⟨_, inside, closing⟩ := keeps
  intro step member
  simp only [conversationPlan, messagePlan, Blueprint.steps_append, List.mem_append] at member
  rcases member with message | inner | closed
  · exact List.mem_singleton.mp message ▸ entry
  · exact Branches.reached_plan inside entry step inner
  · exact Branches.reached_closingPlan closing entry step closed

theorem sound_plan_nil (rules : Rules) : (rules.plan []).Sound := by
  have sketches : (rules.plan []).sketches = [.start, .finish] := rfl
  have steps : (rules.plan []).steps = [.start, .finish] := rfl
  have links : (rules.plan []).links = [⟨.start, .finish, none⟩] := rfl
  exact {
    distinct := by
      rw [Blueprint.ownSteps, steps]
      decide
    agrees := by
      rw [sketches]
      intro sketch member
      rcases List.mem_pair.mp member with rfl | rfl
      · exact Sketch.agrees_start
      · exact Sketch.agrees_finish
    start := ⟨[.finish], sketches, by decide⟩
    finish := by simp [steps]
    messages := by
      rw [steps]
      exact List.nodup_nil
    joined := by simp [steps, links]
    reached := by
      intro Reached keeps entry step member
      have last : Reached .finish := keeps _ List.mem_cons_self entry
      rw [steps] at member
      rcases List.mem_pair.mp member with rfl | rfl
      · exact .inl entry
      · exact .inl last }

theorem sketches_plan_cons (rules : Rules) (first : Template) (others : List Template) :
    (rules.plan (first :: others)).sketches =
      .start :: ((rules.conversationPlan (first :: others) first).sketches ++ [.finish]) := rfl

theorem links_plan_cons (rules : Rules) (first : Template) (others : List Template) :
    (rules.plan (first :: others)).links = ⟨.start, .message first.id, none⟩
      :: (rules.conversationPlan (first :: others) first).links :=
  congrArg (List.cons _) (List.append_nil _)

theorem steps_plan_cons (rules : Rules) (first : Template) (others : List Template) :
    (rules.plan (first :: others)).steps =
      .start :: ((rules.conversationPlan (first :: others) first).steps ++ [.finish]) := by
  rw [Blueprint.steps, sketches_plan_cons, List.map_cons, List.map_append]
  rfl

theorem ownSteps_plan_cons (rules : Rules) (first : Template) (others : List Template) :
    (rules.plan (first :: others)).ownSteps =
      .start :: (rules.conversationPlan (first :: others) first).ownSteps := by
  simp [Blueprint.ownSteps, steps_plan_cons]

/-- There is one message for every scene, in the same order. -/
theorem messages_plan_cons (rules : Rules) (first : Template) (others : List Template) :
    (rules.plan (first :: others)).steps.filterMap StepName.message? =
      (rules.expand (first :: others) first).scenes.map fun scene => scene.owner.id := by
  rw [steps_plan_cons, List.filterMap_cons_none rfl, List.filterMap_append,
    List.filterMap_cons_none rfl, List.filterMap_nil, List.append_nil, conversationPlan,
    messages_messagePlan, owners_expand]

theorem sound_plan_cons (rules : Rules) (first : Template) (others : List Template) :
    (rules.plan (first :: others)).Sound := by
  let middle := rules.conversationPlan (first :: others) first
  have sketches : (rules.plan (first :: others)).sketches =
      .start :: (middle.sketches ++ [.finish]) := rules.sketches_plan_cons first others
  have links : (rules.plan (first :: others)).links =
      ⟨.start, .message first.id, none⟩ :: middle.links := rules.links_plan_cons first others
  have steps : (rules.plan (first :: others)).steps = .start :: (middle.steps ++ [.finish]) :=
    rules.steps_plan_cons first others
  have entered : StepName.message first.id ∈ middle.steps := List.mem_cons_self
  exact {
    distinct := by
      rw [ownSteps_plan_cons, List.nodup_cons]
      exact ⟨fun member => start_notMem_conversationPlan (List.mem_filter.mp member).1,
        nodup_conversationPlan rules (first :: others) first⟩
    agrees := by
      intro sketch member
      rw [sketches, List.mem_cons, List.mem_append, List.mem_singleton] at member
      rcases member with rfl | inside | rfl
      · exact Sketch.agrees_start
      · exact agrees_conversationPlan sketch inside
      · exact Sketch.agrees_finish
    start := by
      refine ⟨_, sketches, fun sketch member same => ?_⟩
      rcases List.mem_append.mp member with inside | last
      · have step : sketch.step = .start := by
          cases known : sketch.step <;> simp [known, StepName.kind] at same
          rfl
        have own : sketch.step ∈ middle.steps := List.mem_map_of_mem inside
        exact start_notMem_conversationPlan (step ▸ own)
      · rw [List.mem_singleton.mp last] at same
        cases same
    finish := by
      rw [steps]
      simp
    messages := by
      rw [messages_plan_cons]
      exact nodup_owners rules (first :: others) first
    joined := by
      intro link member
      rw [links, List.mem_cons] at member
      rw [steps]
      rcases member with rfl | inside
      · exact ⟨List.mem_cons_self, by simp [entered]⟩
      · obtain ⟨source, target⟩ := joined_conversationPlan link inside
        constructor
        · exact List.mem_cons_of_mem _ (List.mem_append_left _ source)
        · exact List.mem_cons_of_mem _ (List.mem_append_left _ target)
    reached := by
      intro Reached keeps entry step member
      have known : Reached (.message first.id) := keeps _ (links ▸ List.mem_cons_self) entry
      have inner : middle.Keeps Reached :=
        fun link inside => keeps link (links ▸ List.mem_cons_of_mem _ inside)
      have all := reached_conversationPlan inner known
      rw [steps, List.mem_cons, List.mem_append, List.mem_singleton] at member
      rcases member with rfl | inside | rfl
      · exact .inl entry
      · exact .inl (all step inside)
      -- the end that is always drawn stays unreached where no branch needed one before
      · by_cases used : StepName.finish ∈ middle.steps
        · exact .inl (all _ used)
        · refine .inr ⟨rfl, fun link linked target => ?_⟩
          rw [links, List.mem_cons] at linked
          rcases linked with rfl | inside
          · cases target
          · exact used (target ▸ (joined_conversationPlan link inside).2) }

theorem sound_plan (rules : Rules) (templates : List Template) : (rules.plan templates).Sound := by
  cases templates with
  | nil => exact rules.sound_plan_nil
  | cons first others => exact rules.sound_plan_cons first others

end Rules

namespace Compiler

variable [Coordinate α]

theorem delay?_ne_none {rules : Rules} (waits : 0 ≤ rules.delayDuration) : rules.delay? ≠ none := by
  unfold Rules.delay?
  cases duration : rules.delayDuration with
  | ofNat => simp
  | negSucc => omega

theorem sound_of_compile {compiler : Compiler α} {templates : List Template}
    {compilation : Compilation α} (compiled : compiler.compile templates = .ok compilation) :
    compilation.graph.Sound :=
  (shows_plan compiled).sound (compiler.rules.sound_plan _)

/-- Any templates are compiled, and to a sound graph, as long as every row search comes to an
end. -/
theorem compile_sound (compiler : Compiler α) (templates : List Template)
    (waits : 0 ≤ compiler.rules.delayDuration)
    (placed : compiler.compile templates ≠ .error .noFreeRow) :
    ∃ compilation, compiler.compile templates = .ok compilation ∧
      compilation.graph.problems = [] ∧ compilation.graph.Sound := by
  have sound := compiler.rules.sound_plan (compiler.rules.select templates).templates
  have distinct : ((settle false
      (compiler.rules.plan (compiler.rules.select templates).templates).sketches).map
        fun sketch => sketch.step.text).Nodup := by
    have texts := (nodup_settle sound.distinct).map fun _ _ => StepName.text_injective
    rw [List.map_map] at texts
    exact texts
  -- with distinct steps no node is refused, so only two faults are left
  rcases compile_cases distinct with crowded | negative | ⟨compilation, compiled⟩
  · exact absurd crowded placed
  · exact absurd negative (delay?_ne_none waits)
  · have graph := (shows_plan compiled).sound sound
    exact ⟨compilation, compiled, Graph.problems_eq_nil.mpr graph, graph⟩

end Compiler

theorem exists_ok_of_isSome {ε β : Type} {result : Except ε β} (known : result.toOption.isSome) :
    ∃ value, result = .ok value := by
  cases result with
  | ok value => exact ⟨value, rfl⟩
  | error => cases known

namespace Samples

/-- A compiler that goes one message deep. -/
def shallow : Compiler Float where
  rules := ⟨1, .drop, true, 5, .minutes, defaultRecipient⟩
  grid := ⟨200, 150, ⟨100, 300⟩, by decide +kernel⟩

def brief (id : Int) (responses : List Response) : Template :=
  ⟨id, "Brief", "", "Hello", responses, true, 0⟩

/-- The third template is reached from the first one directly, and before that by a detour. -/
def detour : List Template :=
  [brief 1 [reply "A" "" 2, reply "B" "" 3], brief 2 [reply "C" "" 3], brief 3 []]

/-- The third template is reached from the first one directly, and before that by a longer
detour; the fifth one follows it. -/
def bypass : List Template :=
  [brief 1 [reply "A" "" 2, reply "B" "" 3], brief 2 [reply "C" "" 4], brief 3 [reply "D" "" 5],
    brief 4 [reply "E" "" 3], brief 5 []]

/-- Ids may be negative, and a template may lead to itself. -/
def negative : List Template :=
  [brief (-1) [reply "A" "" (-11), reply "B" "" (-1)], brief (-11) [reply "C" "" (-1)]]

/-- A message whose six replies all lead back to it. -/
def crowd : List Template :=
  [brief 1 [reply "A" "" 1, reply "B" "" 1, reply "C" "" 1, reply "D" "" 1, reply "E" "" 1,
    reply "F" "" 1]]

theorem exists_compile_detour : ∃ compilation, shallow.compile detour = .ok compilation :=
  exists_ok_of_isSome (by decide +kernel)

end Samples

end ReplyFlow
