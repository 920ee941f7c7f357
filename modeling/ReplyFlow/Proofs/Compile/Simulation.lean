import ReplyFlow.Proofs.Compile.Walking
import ReplyFlow.Proofs.Compile.Wiring

/-! A compiled graph offers the branches of its templates, and is walked through like these. -/

set_option autoImplicit false

namespace ReplyFlow

variable {α : Type}

namespace Graph

/-- One edge leaves the first step, without a label, and it leads to the second. -/
def LeadsTo (graph : Graph α) (source target : StepName) : Prop :=
  graph.outgoing source.text = [Link.edge ⟨source, target, none⟩]

theorem LeadsTo.joins {graph : Graph α} {source target : StepName}
    (leads : graph.LeadsTo source target) : graph.Joins source.text target.text := by
  have leaves : Link.edge ⟨source, target, none⟩ ∈ graph.outgoing source.text :=
    leads ▸ List.mem_cons_self
  exact ⟨_, (graph.mem_outgoing.mp leaves).1, rfl, rfl⟩

/-- A branch ends at a mark that stands for a template. -/
def CutsBefore (graph : Graph α) (owner : Int) (place : Nat) (target : Int) : Prop :=
  graph.LeadsTo (.delay owner place) (.continuation owner place) ∧
    ∃ node label, graph.node? (StepName.continuation owner place).text = some node ∧
      node.payload = .marker label true (some target)

/-- The branch of a reply: a condition that tests for its key, a delay, and what it leads to. -/
structure Carries (graph : Graph α) (owner : Int) (place : Nat) (response : Response) : Prop where
  tests : ∃ node label, graph.node? (StepName.condition owner place).text = some node ∧
    node.payload = .condition label "lastResponse" "equals" response.key
  waits : graph.LeadsTo (.condition owner place) (.delay owner place)
  leads : match response.next with
    | none => graph.LeadsTo (.delay owner place) .finish
    | some target =>
      graph.LeadsTo (.delay owner place) (.message target) ∨ graph.CutsBefore owner place target

/-- The message of a template leads to the branches of its kept replies in order, or to the end if
there are none. -/
structure Wires (graph : Graph α) (rules : Rules) (index : List Template) (template : Template) :
    Prop where
  silent : rules.kept index template = [] → graph.LeadsTo (.message template.id) .finish
  offers : rules.kept index template ≠ [] →
    graph.outgoing (StepName.message template.id).text =
      (rules.kept index template).mapIdx fun place response =>
        Link.edge ⟨.message template.id, .condition template.id place, some response.key⟩
  carries : ∀ place response, (rules.kept index template)[place]? = some response →
    graph.Carries template.id place response

theorem node?_of_mem {graph : Graph α} (distinct : graph.ids.Nodup) {node : Node α}
    (member : node ∈ graph.nodes) : graph.node? node.id = some node := by
  have exist : (graph.node? node.id).isSome :=
    List.find?_isSome.mpr ⟨node, member, beq_self_eq_true _⟩
  obtain ⟨other, found⟩ := Option.isSome_iff_exists.mp exist
  have same : other.id = node.id := by simpa using List.find?_some found
  rw [found, List.inj_on_of_nodup_map distinct (List.mem_of_find?_eq_some found) member same]

namespace Shows

variable {graph : Graph α} {plan : Blueprint}

/-- Every sketch can be looked up in the drawing. -/
theorem content?_eq (drawn : graph.Shows plan) (sound : plan.Sound) (sketch : Sketch)
    (member : sketch ∈ plan.sketches) : graph.content? sketch.step.text = some sketch.content := by
  have settled : sketch ∈ settle false plan.sketches := by
    have step : sketch.step ∈ (settle false plan.sketches).map Sketch.step :=
      mem_settle.mpr ⟨List.mem_map_of_mem member, Bool.noConfusion⟩
    obtain ⟨other, present, same⟩ := List.mem_map.mp step
    have known := (settle_sublist false _).subset present
    -- the one end that is drawn stands for every other one
    by_cases last : sketch.step = .finish
    · have ending := (sound.agrees sketch member).finish last
      have others := (sound.agrees other known).finish (same.trans last)
      rw [ending, ← others]
      exact present
    · have kept := filter_settle false plan.sketches (fun item => item.step ≠ .finish)
        (fun _ _ shared => by simpa using shared)
      have here : sketch ∈ plan.sketches.filter fun item => item.step ≠ .finish :=
        List.mem_filter.mpr ⟨member, by simpa using last⟩
      rw [← kept] at here
      exact (List.mem_filter.mp here).1
  obtain ⟨node, present, content⟩ := drawn.exists_node settled
  have id : node.id = sketch.step.text := congrArg NodeContent.id content
  rw [content?, ← id, node?_of_mem (drawn.nodup_ids sound.distinct) present, Option.map_some, content]

end Shows

end Graph

/-! ## The sketches of a scene -/

section

variable {rules : Rules}

theorem Rules.exists_pause (rules : Rules) :
    ∃ label duration unit, rules.pause = .delay label duration unit := by
  have kind := rules.kind_pause
  cases pause : rules.pause with
  | delay label duration unit => exact ⟨label, duration, unit, rfl⟩
  | message | condition | marker =>
    rw [pause] at kind
    cases kind

theorem Rules.mem_sketches_turnsPlan {owner : Int} {index place : Nat} {turns : List Turn}
    {turn : Turn} (offered : turns[place]? = some turn) {sketch : Sketch}
    (member : sketch ∈ (turn.plan rules owner (index + place)).sketches) :
    sketch ∈ (rules.turnsPlan owner index turns).sketches := by
  have numbered : (turn, index + place) ∈ turns.zipIdx index := by
    rw [List.mk_mem_zipIdx_iff_le_and_getElem?_sub, Nat.add_sub_cancel_left]
    exact ⟨Nat.le_add_right _ _, offered⟩
  rw [sketches_turnsPlan]
  exact List.mem_flatMap.mpr ⟨_, numbered, member⟩

theorem Scene.mem_sketches {scene : Scene} {place : Nat} {turn : Turn}
    (offered : scene.turns[place]? = some turn) {sketch : Sketch}
    (member : sketch ∈ (turn.plan rules scene.owner.id place).sketches) :
    sketch ∈ (scene.plan rules).sketches := by
  rw [← Nat.zero_add place] at member
  have inside := Rules.mem_sketches_turnsPlan offered member
  rw [plan, Blueprint.sketches_append, Blueprint.sketches_append]
  exact List.mem_append_right _ (List.mem_append_left _ inside)

theorem Rules.mem_sketches_plan {first : Template} {others : List Template} {scene : Scene}
    (member : scene ∈ (rules.expand (first :: others) first).scenes) {sketch : Sketch}
    (inside : sketch ∈ (scene.plan rules).sketches) :
    sketch ∈ (rules.plan (first :: others)).sketches := by
  have conversation : sketch ∈ (rules.conversationPlan (first :: others) first).sketches :=
    (rules.perm_conversationPlan (first :: others) first).sketches.mem_iff.mpr
      (List.mem_flatMap.mpr ⟨scene, member, inside⟩)
  rw [sketches_plan_cons]
  exact List.mem_cons_of_mem _ (List.mem_append_left _ conversation)

end

/-! ## Scenes in the graph -/

namespace Graph.Shows

variable {graph : Graph α} {rules : Rules} {first : Template} {others : List Template}
  {scene : Scene}

theorem content?_scene (drawn : graph.Shows (rules.plan (first :: others)))
    (member : scene ∈ (rules.expand (first :: others) first).scenes) {sketch : Sketch}
    (inside : sketch ∈ (scene.plan rules).sketches) :
    graph.content? sketch.step.text = some sketch.content :=
  drawn.content?_eq (rules.sound_plan _) sketch (Rules.mem_sketches_plan member inside)

theorem outgoing_scene (drawn : graph.Shows (rules.plan (first :: others)))
    (member : scene ∈ (rules.expand (first :: others) first).scenes) {step : StepName}
    (owned : step.owner? = some scene.owner.id) :
    graph.outgoing step.text = ((scene.plan rules).outgoing step).map Link.edge := by
  rw [drawn.outgoing_eq, Rules.outgoing_plan member owned]

variable {place : Nat} {turn : Turn}

theorem leadsTo_delay (drawn : graph.Shows (rules.plan (first :: others)))
    (member : scene ∈ (rules.expand (first :: others) first).scenes)
    (offered : scene.turns[place]? = some turn) :
    graph.LeadsTo (.condition scene.owner.id place) (.delay scene.owner.id place) := by
  rw [LeadsTo, drawn.outgoing_scene member rfl, Scene.outgoing_condition offered]
  rfl

theorem leadsTo_landing (drawn : graph.Shows (rules.plan (first :: others)))
    (member : scene ∈ (rules.expand (first :: others) first).scenes)
    (offered : scene.turns[place]? = some turn) :
    graph.LeadsTo (.delay scene.owner.id place) (turn.landing.step scene.owner.id place) := by
  rw [LeadsTo, drawn.outgoing_scene member rfl, Scene.outgoing_delay offered]
  rfl

theorem content?_condition (drawn : graph.Shows (rules.plan (first :: others)))
    (member : scene ∈ (rules.expand (first :: others) first).scenes)
    (offered : scene.turns[place]? = some turn) :
    graph.content? (StepName.condition scene.owner.id place).text =
      some (Sketch.condition scene.owner.id place turn.response).content :=
  drawn.content?_scene member (Scene.mem_sketches offered List.mem_cons_self)

theorem content?_delay (drawn : graph.Shows (rules.plan (first :: others)))
    (member : scene ∈ (rules.expand (first :: others) first).scenes)
    (offered : scene.turns[place]? = some turn) :
    graph.content? (StepName.delay scene.owner.id place).text =
      some (rules.delaySketch scene.owner.id place).content :=
  drawn.content?_scene member
    (Scene.mem_sketches offered (List.mem_cons_of_mem _ List.mem_cons_self))

theorem content?_continuation (drawn : graph.Shows (rules.plan (first :: others)))
    (member : scene ∈ (rules.expand (first :: others) first).scenes)
    (offered : scene.turns[place]? = some turn) {target : Int}
    (cut : turn.landing = .continuation target) :
    graph.content? (StepName.continuation scene.owner.id place).text =
      some (Sketch.continuation scene.owner.id place target).content := by
  have inside : Sketch.continuation scene.owner.id place target ∈
      (turn.plan rules scene.owner.id place).sketches := by
    rw [Turn.plan, cut]
    exact List.mem_append_right _ List.mem_cons_self
  exact drawn.content?_scene member (Scene.mem_sketches offered inside)

theorem cutsBefore (drawn : graph.Shows (rules.plan (first :: others)))
    (member : scene ∈ (rules.expand (first :: others) first).scenes)
    (offered : scene.turns[place]? = some turn) {target : Int}
    (cut : turn.landing = .continuation target) : graph.CutsBefore scene.owner.id place target := by
  have lands := drawn.leadsTo_landing member offered
  obtain ⟨node, found, content⟩ :=
    Option.map_eq_some_iff.mp (drawn.content?_continuation member offered cut)
  rw [cut] at lands
  exact ⟨lands, node, _, found, congrArg NodeContent.payload content⟩

theorem carries (drawn : graph.Shows (rules.plan (first :: others)))
    (member : scene ∈ (rules.expand (first :: others) first).scenes)
    (offered : scene.turns[place]? = some turn) :
    graph.Carries scene.owner.id place turn.response := by
  have lands := drawn.leadsTo_landing member offered
  have next := Rules.next_turn member (List.mem_of_getElem? offered)
  constructor
  · obtain ⟨node, found, content⟩ :=
      Option.map_eq_some_iff.mp (drawn.content?_condition member offered)
    exact ⟨node, _, found, congrArg NodeContent.payload content⟩
  · exact drawn.leadsTo_delay member offered
  · rw [next]
    cases landing : turn.landing with
    | finish =>
      rw [landing] at lands
      exact lands
    | message target =>
      rw [landing] at lands
      exact .inl lands
    | continuation target => exact .inr (drawn.cutsBefore member offered landing)

theorem outgoing_message (drawn : graph.Shows (rules.plan (first :: others)))
    (member : scene ∈ (rules.expand (first :: others) first).scenes) (offers : scene.turns ≠ []) :
    graph.outgoing (StepName.message scene.owner.id).text =
      scene.turns.mapIdx fun place turn => Link.edge
        ⟨.message scene.owner.id, .condition scene.owner.id place, some turn.response.key⟩ := by
  rw [drawn.outgoing_scene member rfl, Scene.outgoing_message scene offers,
    List.mapIdx_eq_zipIdx_map, List.mapIdx_eq_zipIdx_map, List.map_map]
  rfl

theorem leadsTo_finish (drawn : graph.Shows (rules.plan (first :: others)))
    (member : scene ∈ (rules.expand (first :: others) first).scenes) (silent : scene.turns = []) :
    graph.LeadsTo (.message scene.owner.id) .finish := by
  rw [LeadsTo, drawn.outgoing_scene member rfl, Scene.outgoing_silent scene silent]
  rfl

theorem wires (drawn : graph.Shows (rules.plan (first :: others)))
    (member : scene ∈ (rules.expand (first :: others) first).scenes) :
    graph.Wires rules (first :: others) scene.owner := by
  have replies := Rules.map_response_turns member
  constructor
  · intro silent
    rw [← replies, List.map_eq_nil_iff] at silent
    exact drawn.leadsTo_finish member silent
  · intro offers
    rw [← replies, Ne, List.map_eq_nil_iff] at offers
    rw [drawn.outgoing_message member offers, ← replies, List.mapIdx_eq_zipIdx_map,
      List.mapIdx_eq_zipIdx_map, List.zipIdx_map, List.map_map]
    rfl
  · intro place response kept
    rw [← replies, List.getElem?_map, Option.map_eq_some_iff] at kept
    obtain ⟨turn, offered, rfl⟩ := kept
    exact drawn.carries member offered

end Graph.Shows

/-! ## Walks -/

namespace Graph

/-- Where a walk through the graph stands while one through the templates stands at a place. -/
inductive Arrives (graph : Graph α) (rules : Rules) (first : Template) (others : List Template) :
    String → Option Int → Prop where
  | finish : graph.Arrives rules first others StepName.finish.text none
  | message {scene : Scene} : scene ∈ (rules.expand (first :: others) first).scenes →
    graph.Arrives rules first others (StepName.message scene.owner.id).text (some scene.owner.id)
  | continuation {id : String} {template : Template} :
    graph.sight? id = some (.continuation template.id) → graph.outgoing id = [] →
    Selection.find? (first :: others) template.id = some template →
    graph.Arrives rules first others id (some template.id)

theorem sight?_eq {graph : Graph α} {id : String} {content : NodeContent}
    (known : graph.content? id = some content) : graph.sight? id = content.sight? := by
  rw [sight?, known]
  rfl

namespace Shows

variable {graph : Graph α} {rules : Rules} {first : Template} {others : List Template}
  {scene : Scene} {place : Nat} {turn : Turn}

theorem content?_finish (drawn : graph.Shows (rules.plan (first :: others))) :
    graph.content? StepName.finish.text = some Sketch.finish.content := by
  apply drawn.content?_eq (rules.sound_plan _) .finish
  rw [Rules.sketches_plan_cons]
  simp

/-- The way over a branch leads to what the branch leads to. -/
theorem way?_eq (drawn : graph.Shows (rules.plan (first :: others)))
    (member : scene ∈ (rules.expand (first :: others) first).scenes)
    (offered : scene.turns[place]? = some turn) :
    graph.way? (Link.edge ⟨.message scene.owner.id, .condition scene.owner.id place,
        some turn.response.key⟩) =
      some (turn.response.key, (turn.landing.step scene.owner.id place).text) := by
  have condition := drawn.content?_condition member offered
  have delay := drawn.content?_delay member offered
  have waits := drawn.leadsTo_delay member offered
  have lands := drawn.leadsTo_landing member offered
  obtain ⟨label, duration, unit, pause⟩ := rules.exists_pause
  unfold LeadsTo at waits lands
  unfold way?
  simp only [Link.edge] at waits lands ⊢
  simp only [condition, waits, delay, lands, Option.map_some, Sketch.content, Sketch.condition,
    Rules.delaySketch, pause, Compiler.conditionPayload]

theorem arrives_landing (drawn : graph.Shows (rules.plan (first :: others)))
    (member : scene ∈ (rules.expand (first :: others) first).scenes)
    (offered : scene.turns[place]? = some turn) :
    graph.Arrives rules first others (turn.landing.step scene.owner.id place).text
      turn.response.next := by
  have turning := List.mem_of_getElem? offered
  have next := Rules.next_turn member turning
  rw [next]
  cases landing : turn.landing with
  | finish => exact .finish
  | message target =>
    obtain ⟨other, known, rfl⟩ := Rules.exists_scene member turning landing
    exact .message known
  | continuation target =>
    have kept : turn.response ∈ rules.kept (first :: others) scene.owner := by
      rw [← Rules.map_response_turns member]
      exact List.mem_map_of_mem turning
    rw [landing] at next
    obtain ⟨child, found, rfl⟩ := Rules.exists_target kept next
    -- nothing leads on from a mark, and its template takes part
    have mark := drawn.content?_continuation member offered landing
    refine .continuation (sight?_eq mark) ?_ found
    rw [Landing.step, drawn.outgoing_scene member rfl, Scene.outgoing_continuation]
    rfl

theorem sight?_message (drawn : graph.Shows (rules.plan (first :: others)))
    (member : scene ∈ (rules.expand (first :: others) first).scenes) :
    graph.sight? (StepName.message scene.owner.id).text = some (.message scene.owner.id) :=
  sight?_eq (drawn.content?_scene member
    (show rules.messageSketch scene.owner ∈ _ from List.mem_cons_self))

theorem sight?_finish (drawn : graph.Shows (rules.plan (first :: others))) :
    graph.sight? StepName.finish.text = some .finish :=
  sight?_eq drawn.content?_finish

theorem sights_finish (drawn : graph.Shows (rules.plan (first :: others))) :
    graph.terrain.sights StepName.finish.text = [.finish] ∧
      graph.terrain.ways StepName.finish.text = [] := by
  have closed : graph.outgoing StepName.finish.text = [] := by
    rw [drawn.outgoing_eq, rules.outgoing_finish]
    rfl
  simp [terrain, closed, drawn.sight?_finish]

/-- Where there are no branches, the end is seen together with the message. -/
theorem sights_silent (drawn : graph.Shows (rules.plan (first :: others)))
    (member : scene ∈ (rules.expand (first :: others) first).scenes) (silent : scene.turns = []) :
    graph.terrain.sights (StepName.message scene.owner.id).text =
        [.message scene.owner.id, .finish] ∧
      graph.terrain.ways (StepName.message scene.owner.id).text = [] := by
  have leads := drawn.leadsTo_finish member silent
  unfold LeadsTo at leads
  have way : graph.way? (Link.edge ⟨.message scene.owner.id, .finish, none⟩) = none := by
    unfold way?
    simp only [Link.edge, drawn.content?_finish, Option.map_some, Sketch.content, Sketch.finish]
  have ending : (graph.sight? (Link.edge ⟨.message scene.owner.id, .finish, none⟩).target) =
      some .finish := drawn.sight?_finish
  simp [terrain, leads, way, ending, drawn.sight?_message member, Option.filter]

theorem sights_offering (drawn : graph.Shows (rules.plan (first :: others)))
    (member : scene ∈ (rules.expand (first :: others) first).scenes) (offers : scene.turns ≠ []) :
    graph.terrain.sights (StepName.message scene.owner.id).text = [.message scene.owner.id] ∧
      graph.terrain.ways (StepName.message scene.owner.id).text =
        scene.turns.mapIdx fun place turn =>
          (turn.response.key, (turn.landing.step scene.owner.id place).text) := by
  have outgoing := drawn.outgoing_message member offers
  rw [List.mapIdx_eq_zipIdx_map] at outgoing
  constructor
  -- conditions are passed without being seen
  · have hidden : (graph.outgoing (StepName.message scene.owner.id).text).filterMap
        (fun edge => (graph.sight? edge.target).filter (· = .finish)) = [] := by
      rw [outgoing, List.filterMap_map, List.filterMap_eq_nil_iff]
      rintro ⟨turn, place⟩ offered
      rw [List.mem_zipIdx_iff_getElem?] at offered
      have condition : graph.sight? (StepName.condition scene.owner.id place).text = none :=
        sight?_eq (drawn.content?_condition member offered)
      simp [Link.edge, condition]
    simp only [terrain, hidden, drawn.sight?_message member]
    rfl
  · have ways : ∀ numbered ∈ scene.turns.zipIdx,
        graph.way? (Link.edge ⟨.message scene.owner.id, .condition scene.owner.id numbered.2,
          some numbered.1.response.key⟩) =
        some (numbered.1.response.key,
          (numbered.1.landing.step scene.owner.id numbered.2).text) := by
      rintro ⟨turn, place⟩ offered
      exact drawn.way?_eq member (List.mem_zipIdx_iff_getElem?.mp offered)
    simp only [terrain]
    rw [outgoing, List.filterMap_map, List.mapIdx_eq_zipIdx_map, ← List.filterMap_eq_map]
    exact List.filterMap_congr ways

/-- The graph offers the ways of the templates, and they lead to places that go together. -/
theorem tracks (drawn : graph.Shows (rules.plan (first :: others))) :
    graph.terrain.Tracks (rules.terrain (first :: others)) (graph.Arrives rules first others) := by
  intro id place arrives
  cases arrives with
  | finish =>
    obtain ⟨sights, ways⟩ := drawn.sights_finish
    rw [sights, ways]
    exact .inl ⟨rfl, .nil⟩
  | @message scene member =>
    have known : Selection.find? (first :: others) scene.owner.id = some scene.owner :=
      Rules.find?_owner (Selection.find?_first first others) member
    have replies := Rules.map_response_turns member
    left
    by_cases silent : scene.turns = []
    · obtain ⟨sights, ways⟩ := drawn.sights_silent member silent
      rw [silent, List.map_nil] at replies
      rw [sights, ways]
      simp [Rules.terrain, known, ← replies]
    · obtain ⟨sights, ways⟩ := drawn.sights_offering member silent
      have kept : rules.kept (first :: others) scene.owner ≠ [] := by
        rw [← replies]
        simpa using silent
      have across : (rules.terrain (first :: others)).ways (some scene.owner.id) =
          scene.turns.zipIdx.map fun numbered =>
            (numbered.1.response.key, numbered.1.response.next) := by
        simp only [Rules.terrain, Option.bind_some, known, ← replies]
        nth_rewrite 1 [← List.zipIdx_map_fst 0 scene.turns]
        rw [List.map_map, List.map_map]
        rfl
      rw [sights, ways, across, List.mapIdx_eq_zipIdx_map, List.forall₂_map_left_iff,
        List.forall₂_map_right_iff, List.forall₂_same]
      constructor
      · simp [Rules.terrain, known, kept]
      · rintro ⟨turn, place⟩ offered
        exact ⟨rfl, drawn.arrives_landing member (List.mem_zipIdx_iff_getElem?.mp offered)⟩
  | @continuation id template mark closed found =>
    have message : (rules.terrain (first :: others)).sights (some template.id) = .message template.id
        :: if rules.kept (first :: others) template = [] then [.finish] else [] := by
      simp only [Rules.terrain, found]
    right
    refine ⟨template.id, _, ?_, ?_, message⟩
    · simp [terrain, closed, mark]
    · simp [terrain, closed]

theorem walk_cons (drawn : graph.Shows (rules.plan (first :: others))) (choices : List Nat) :
    BreaksOff (graph.walk choices) (rules.walk (first :: others) choices) := by
  have leads : graph.outgoing StepName.start.text =
      [Link.edge ⟨.start, .message first.id, none⟩] := by
    rw [drawn.outgoing_eq, rules.outgoing_start]
    rfl
  have start : graph.Arrives rules first others (StepName.message first.id).text (some first.id) :=
    .message (show (⟨first, _⟩ : Scene) ∈ _ from List.mem_cons_self)
  unfold Graph.walk
  rw [leads]
  exact drawn.tracks.walk start choices

/-- Without any template there is nothing to see but the end. -/
theorem walk_nil (drawn : graph.Shows (rules.plan [])) (choices : List Nat) :
    BreaksOff (graph.walk choices) (rules.walk [] choices) := by
  have leads : graph.outgoing StepName.start.text = [Link.edge ⟨.start, .finish, none⟩] := by
    rw [drawn.outgoing_eq]
    rfl
  have closed : graph.outgoing StepName.finish.text = [] := by
    rw [drawn.outgoing_eq]
    rfl
  have ending : graph.sight? StepName.finish.text = some .finish :=
    sight?_eq (drawn.content?_eq (rules.sound_plan _) .finish
      (List.mem_cons_of_mem _ List.mem_cons_self))
  unfold Graph.walk
  rw [leads]
  left
  cases choices <;> simp [Terrain.walk, Rules.walk, Rules.terrain, terrain, closed, ending, Link.edge]

end Shows

end Graph

namespace Compiler

variable [Coordinate α]

/-- Every message is wired as its template says, and whatever is chosen, the graph shows what the
templates show, except that it breaks off where a branch is cut. -/
theorem compile_simulates {compiler : Compiler α} {templates : List Template}
    {compilation : Compilation α} (compiled : compiler.compile templates = .ok compilation) :
    (∀ id ∈ compilation.graph.messageTemplates, ∃ template,
      Selection.find? (compiler.rules.select templates).templates id = some template ∧
        compilation.graph.Wires compiler.rules (compiler.rules.select templates).templates
          template) ∧
      ∀ choices, BreaksOff (compilation.graph.walk choices)
        (compiler.rules.walk (compiler.rules.select templates).templates choices) := by
  have drawn := shows_plan compiled
  have messages := drawn.messageTemplates_eq (compiler.rules.sound_plan _).agrees
  rw [messages]
  cases selected : (compiler.rules.select templates).templates with
  | nil =>
    rw [selected] at drawn
    exact ⟨fun id member => absurd member List.not_mem_nil, drawn.walk_nil⟩
  | cons first others =>
    rw [selected] at drawn
    refine ⟨fun id member => ?_, drawn.walk_cons⟩
    rw [Rules.messages_plan_cons] at member
    obtain ⟨scene, known, rfl⟩ := List.mem_map.mp member
    refine ⟨scene.owner, ?_, drawn.wires known⟩
    apply Rules.find?_owner _ known
    simp [Selection.find?]

theorem compile_simulates_detour :
    ∃ compilation, Samples.shallow.compile Samples.detour = .ok compilation ∧
      (∀ id ∈ compilation.graph.messageTemplates, ∃ template,
        Selection.find? (Samples.shallow.rules.select Samples.detour).templates id =
            some template ∧
          compilation.graph.Wires Samples.shallow.rules
            (Samples.shallow.rules.select Samples.detour).templates template) ∧
      ∀ choices, BreaksOff (compilation.graph.walk choices)
        (Samples.shallow.rules.walk (Samples.shallow.rules.select Samples.detour).templates
          choices) := by
  obtain ⟨compilation, compiled⟩ := Samples.exists_compile_detour
  exact ⟨compilation, compiled, compile_simulates compiled⟩

end Compiler

end ReplyFlow
