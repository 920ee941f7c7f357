import Mathlib.Algebra.GroupWithZero.Nat
import ReplyFlow.Proofs.Compile.Cutting

/-! What is said of a conversation adds up.

Every reply of a template with a message is either left out, or goes to the end, back to an earlier
message, to a mark, or to a message of its own. A blueprint counts the same branches by their steps
and by their links.
-/

set_option autoImplicit false

namespace ReplyFlow

variable {rules : Rules} {index : List Template}

/-! ## Counting steps and links -/

def Landing.isCut : Landing → Bool
  | continuation _ => true
  | _ => false

/-- A branch has a condition and a delay, and a mark if it is cut. -/
theorem Turn.length_ownSteps (owner : Int) (place : Nat) (turn : Turn) :
    (turn.plan rules owner place).ownSteps.length = 2 + turn.landing.isCut.toNat := by
  rw [ownSteps_plan]
  cases turn.landing <;> rfl

theorem Rules.length_ownSteps_turnsPlan (owner : Int) (place : Nat) (turns : List Turn) :
    (rules.turnsPlan owner place turns).ownSteps.length =
      2 * turns.length + turns.countP (·.landing.isCut) := by
  induction turns generalizing place with
  | nil => rfl
  | cons turn rest ih =>
    rw [turnsPlan, Blueprint.ownSteps_append, List.length_append, Turn.length_ownSteps, ih,
      List.countP_cons, List.length_cons]
    cases turn.landing.isCut <;> simp <;> omega

theorem Rules.length_links_turnsPlan (owner : Int) (place : Nat) (turns : List Turn) :
    (rules.turnsPlan owner place turns).links.length = 3 * turns.length := by
  induction turns generalizing place with
  | nil => rfl
  | cons turn rest ih =>
    rw [turnsPlan, Blueprint.links_append, List.length_append, Turn.links_plan, ih]
    simp only [List.length_cons, List.length_nil]
    omega

theorem Scene.length_ownSteps (scene : Scene) :
    (scene.plan rules).ownSteps.length =
      1 + 2 * scene.turns.length + scene.turns.countP (·.landing.isCut) := by
  rw [ownSteps_plan, List.length_cons, Rules.length_ownSteps_turnsPlan]
  omega

/-- A message without branches has a link of its own. -/
theorem Scene.length_links (scene : Scene) :
    (scene.plan rules).links.length = 3 * scene.turns.length + scene.turns.isEmpty.toNat := by
  have closing : scene.closingPlan.links.length = scene.turns.isEmpty.toNat := by
    rw [closingPlan]
    cases scene.turns <;> rfl
  rw [plan, Blueprint.links_append, Blueprint.links_append, List.length_append, List.length_append,
    Rules.length_links_turnsPlan, closing]
  exact Nat.zero_add _

theorem Rules.length_ownSteps_scenesPlan (scenes : List Scene) :
    (rules.scenesPlan scenes).ownSteps.length = scenes.length
      + 2 * (scenes.flatMap Scene.turns).length
      + (scenes.flatMap Scene.turns).countP (·.landing.isCut) := by
  induction scenes with
  | nil => rfl
  | cons scene rest ih =>
    rw [scenesPlan_cons, Blueprint.ownSteps_append, List.length_append, Scene.length_ownSteps, ih,
      List.flatMap_cons, List.length_append, List.countP_append, List.length_cons]
    omega

theorem Rules.length_links_scenesPlan (scenes : List Scene) :
    (rules.scenesPlan scenes).links.length =
      3 * (scenes.flatMap Scene.turns).length + scenes.countP (·.turns.isEmpty) := by
  induction scenes with
  | nil => rfl
  | cons scene rest ih =>
    rw [scenesPlan_cons, Blueprint.links_append, List.length_append, Scene.length_links, ih,
      List.flatMap_cons, List.length_append, List.countP_cons]
    cases scene.turns.isEmpty <;> simp <;> omega

/-- All steps but the end are drawn, and the end once. -/
theorem length_settle {plan : Blueprint} (finish : .finish ∈ plan.steps) :
    (settle false plan.sketches).length = plan.ownSteps.length + 1 := by
  have others : ((settle false plan.sketches).map Sketch.step).countP
      (fun step => ¬ step == .finish) = plan.ownSteps.length := by
    rw [← filter_steps_settle, ← List.countP_eq_length_filter]
    simp
  have last : ((settle false plan.sketches).map Sketch.step).count .finish = 1 := by
    have present : StepName.finish ∈ (settle false plan.sketches).map Sketch.step :=
      mem_settle.mpr ⟨finish, Bool.noConfusion⟩
    exact Nat.le_antisymm (count_finish_settle false plan.sketches) (List.count_pos_iff.mpr present)
  have both := List.length_eq_countP_add_countP (fun step => step == StepName.finish)
    (l := (settle false plan.sketches).map Sketch.step)
  rw [others, List.length_map] at both
  rw [both, Nat.add_comm]
  exact congrArg (plan.ownSteps.length + ·) last

/-! ## Counting replies -/

/-- Every branch that leads to a template goes back to it, is cut before it, or enters it. -/
theorem Branches.countP_target (tree : Branches) (owner : Template) (place : Nat) :
    (tree.turns ++ tree.scenes.flatMap Scene.turns).countP (·.landing.target?.isSome) =
      (tree.backEdges owner place).length + (tree.cuts owner).length + tree.entered.length := by
  induction tree generalizing owner place with
  | done => rfl
  | stop response ending rest ih =>
    have later := ih owner (place + 1)
    have turn : (stop response ending rest).turns = ⟨response, ending.landing⟩ :: rest.turns := rfl
    rw [turn, List.cons_append, List.countP_cons]
    cases ending with
    | finish => exact later
    | back target =>
      rw [backEdges, List.length_cons, Nat.add_right_comm _ 1, Nat.add_right_comm _ 1]
      exact congrArg (· + 1) later
    | cut target =>
      rw [cuts, List.length_cons, ← Nat.add_assoc, Nat.add_right_comm _ 1]
      exact congrArg (· + 1) later
  | into response child inside rest insideIH restIH =>
    have below := insideIH child 0
    have later := restIH owner (place + 1)
    have entry : (⟨response, .message child.id⟩ : Turn).landing.target?.isSome = true := rfl
    simp only [turns, scenes, backEdges, cuts, entered, entry, List.cons_append, List.flatMap_cons,
      List.flatMap_append, List.countP_append, List.countP_cons, List.length_append,
      List.length_cons, if_true] at below later ⊢
    omega

theorem Branches.countP_cut (tree : Branches) (owner : Template) :
    (tree.turns ++ tree.scenes.flatMap Scene.turns).countP (·.landing.isCut) =
      (tree.cuts owner).length := by
  induction tree generalizing owner with
  | done => rfl
  | stop response ending rest ih =>
    have turn : (stop response ending rest).turns = ⟨response, ending.landing⟩ :: rest.turns := rfl
    rw [turn, List.cons_append, List.countP_cons]
    cases ending with
    | finish | back => exact ih owner
    | cut target => exact congrArg (· + 1) (ih owner)
  | into response child inside rest insideIH restIH =>
    have below := insideIH child
    have later := restIH owner
    have entry : (⟨response, .message child.id⟩ : Turn).landing.isCut = false := rfl
    simp only [turns, scenes, cuts, entry, List.cons_append, List.flatMap_cons,
      List.flatMap_append, List.countP_append, List.countP_cons, List.length_append,
      Bool.false_eq_true, if_false] at below later ⊢
    omega

/-- All branches of a conversation, one scene after the other. -/
def Expansion.turns (expansion : Expansion) : List Turn :=
  expansion.scenes.flatMap Scene.turns

theorem Expansion.countP_target (expansion : Expansion) :
    expansion.turns.countP (·.landing.target?.isSome) + 1 =
      (expansion.branches.backEdges expansion.first 0).length
        + (expansion.branches.cuts expansion.first).length + expansion.scenes.length := by
  have branches := expansion.branches.countP_target expansion.first 0
  have entered := congrArg List.length expansion.branches.map_owner_scenes
  rw [List.length_map] at entered
  rw [turns, scenes, List.flatMap_cons, List.length_cons, branches, entered]
  omega

theorem Expansion.countP_cut (expansion : Expansion) :
    expansion.turns.countP (·.landing.isCut) =
      (expansion.branches.cuts expansion.first).length := by
  rw [turns, scenes, List.flatMap_cons]
  exact expansion.branches.countP_cut expansion.first

/-- The target of a reply, if no template has this id. -/
def Response.dangling? (index : List Template) (response : Response) : Option Int :=
  response.next.filter fun target => !index.any (·.id == target)

theorem Template.danglingReplies_eq (template : Template) (index : List Template) :
    template.danglingReplies index = template.responses.filterMap fun response =>
      (response.dangling? index).map (Dangling.mk (response.ref template)) := by
  apply List.filterMap_congr
  intro response _
  unfold Response.lead Response.dangling?
  cases next : response.next with
  | none => simp
  | some target =>
    have known := Selection.isSome_find? index target
    cases found : Selection.find? index target with
    | none => simp [Option.filter, found, ← known]
    | some child => simp [Option.filter, found, ← known]

/-- A reply is dangling, or leads nowhere, or leads to a template and is kept. -/
theorem Rules.sort_reply (rules : Rules) (index : List Template) (response : Response) :
    (if (response.dangling? index).isSome then 1 else 0) + (if response.next.isNone then 1 else 0)
      + (if response.next.isSome && rules.keeps index response then 1 else 0) = 1 := by
  unfold Response.dangling? keeps
  cases response.next with
  | none => rfl
  | some target => by_cases known : index.any (·.id == target) <;> simp [Option.filter, known]

theorem Rules.length_responses (rules : Rules) (index : List Template) (template : Template) :
    template.responses.length = (template.danglingReplies index).length
      + template.terminalReplies.length
      + (rules.kept index template).countP (·.next.isSome) := by
  rw [Template.danglingReplies_eq, Template.terminalReplies, kept, List.length_map,
    List.countP_filter, ← List.countP_eq_length_filter, List.length_filterMap_eq_countP]
  induction template.responses with
  | nil => rfl
  | cons response rest ih =>
    have one := rules.sort_reply index response
    simp only [List.length_cons, List.countP_cons, Option.isSome_map] at ih ⊢
    omega

/-! ## Marks in order -/

/-- A branch that is cut. -/
structure Mark where
  owner : Template
  place : Nat
  response : Response
  target : Int

def Mark.sketch (mark : Mark) : Sketch :=
  .continuation mark.owner.id mark.place mark.target

def Mark.reply (mark : Mark) : ReplyRef :=
  mark.response.ref mark.owner

/-- The branches that are cut, in the order of drawing. -/
def Branches.marks (owner : Template) : Nat → Branches → List Mark
  | _, done => []
  | place, stop response (.cut target) rest =>
    ⟨owner, place, response, target⟩ :: rest.marks owner (place + 1)
  | place, stop _ _ rest => rest.marks owner (place + 1)
  | place, into _ child inside rest => inside.marks child 0 ++ rest.marks owner (place + 1)

theorem Branches.cuts_eq_map_marks (tree : Branches) (owner : Template) (place : Nat) :
    tree.cuts owner = (tree.marks owner place).map Mark.reply := by
  induction tree generalizing owner place with
  | done => rfl
  | stop response ending rest ih =>
    cases ending with
    | cut => exact congrArg (response.ref owner :: ·) (ih owner (place + 1))
    | finish | back => exact ih owner (place + 1)
  | into response child inside rest insideIH restIH =>
    rw [cuts, marks, List.map_append, ← insideIH child 0, ← restIH owner (place + 1)]

def NodeContent.isContinuation (content : NodeContent) : Bool :=
  match content.payload with
  | .marker _ continuation _ => continuation
  | _ => false

theorem Rules.filter_branchPlan (rules : Rules) (owner : Int) (place : Nat) (response : Response) :
    (rules.branchPlan owner place response).sketches.filter (·.content.isContinuation) = [] := by
  obtain ⟨label, duration, unit, pause⟩ := rules.exists_pause
  rw [branchPlan, delaySketch, pause]
  rfl

theorem Branches.filter_closingPlan (tree : Branches) (owner : Int) :
    (tree.closingPlan owner).sketches.filter (·.content.isContinuation) = [] := by
  cases tree <;> rfl

theorem Branches.filter_plan (tree : Branches) (owner : Template) (place : Nat) :
    (tree.plan rules owner.id place).sketches.filter (·.content.isContinuation) =
      (tree.marks owner place).map Mark.sketch := by
  induction tree generalizing owner place with
  | done => rfl
  | stop response ending rest ih =>
    have branch := rules.filter_branchPlan owner.id place response
    cases ending with
    | cut target =>
      have landing : (Landing.plan owner.id place (.continuation target)).sketches.filter
        (·.content.isContinuation) = [Sketch.continuation owner.id place target] := rfl
      simp only [plan, Blueprint.sketches_append, List.filter_append, branch, Ending.landing,
        landing, ih, List.nil_append]
      rfl
    | finish | back =>
      simp only [plan, Blueprint.sketches_append, List.filter_append, branch, Ending.landing,
        ih]
      rfl
  | into response child inside rest insideIH restIH =>
    have branch := rules.filter_branchPlan owner.id place response
    have closing := inside.filter_closingPlan child.id
    simp only [sketches_into, Rules.messagePlan, Blueprint.sketches_append, List.filter_append,
      branch, closing, insideIH, restIH, marks, List.map_append, List.append_nil]
    rfl

/-- Every mark stands for a branch of some scene. Turns in `front` come before those of the tree. -/
theorem Branches.exists_scene_of_mark (tree : Branches) (owner : Template) (front : List Turn) :
    ∀ mark ∈ tree.marks owner front.length, ∃ scene ∈ ⟨owner, front ++ tree.turns⟩ :: tree.scenes,
      scene.owner = mark.owner ∧
        scene.turns[mark.place]? = some ⟨mark.response, .continuation mark.target⟩ := by
  induction tree generalizing owner front with
  | done => exact fun mark member => absurd member List.not_mem_nil
  | stop response ending rest ih =>
    intro mark member
    have later := ih owner (front ++ [⟨response, ending.landing⟩]) mark
    rw [List.length_append, List.append_assoc] at later
    cases ending with
    | finish | back => exact later member
    | cut target =>
      rcases List.mem_cons.mp member with rfl | member
      · exact ⟨_, List.mem_cons_self, rfl, by simp [turns, Ending.landing]⟩
      · exact later member
  | into response child inside rest insideIH restIH =>
    intro mark member
    rcases List.mem_append.mp member with below | beside
    · obtain ⟨scene, known, stands⟩ := insideIH child [] mark below
      refine ⟨scene, List.mem_cons_of_mem _ ?_, stands⟩
      exact List.mem_append_left _ known
    · have later := restIH owner (front ++ [⟨response, .message child.id⟩]) mark
      rw [List.length_append, List.append_assoc] at later
      obtain ⟨scene, known, stands⟩ := later beside
      refine ⟨scene, ?_, stands⟩
      rcases List.mem_cons.mp known with rfl | known
      · exact List.mem_cons_self
      · exact List.mem_cons_of_mem _ (List.mem_append_right _ known)

/-! ## The whole account -/

/-- The templates of the messages of a graph, in order. -/
def Graph.templates {α : Type} (graph : Graph α) (index : List Template) : List Template :=
  graph.messageTemplates.filterMap (Selection.find? index)

/-- A node is the mark of a branch that was cut: that of a kept reply of some template, with the
number of this reply among the kept ones. -/
def Node.MarksCut {α : Type} (node : Node α) (rules : Rules) (index : List Template)
    (reply : ReplyRef) : Prop :=
  ∃ template response target, ∃ place : Nat,
    Selection.find? index reply.template = some template ∧
    (rules.kept index template)[place]? = some response ∧
    response.key = reply.key ∧ response.next = some target ∧
    node.id = (StepName.continuation reply.template place).text ∧
    node.payload = .marker "Continue" true (some target)

/-- Every reply of a template with a message is accounted for, and so is every node and edge. -/
structure Compilation.Accounts {α : Type} (compilation : Compilation α) (rules : Rules)
    (index : List Template) : Prop where
  templates : (compilation.graph.templates index).map Template.id =
    compilation.graph.messageTemplates
  replies : ((compilation.graph.templates index).map (·.responses.length)).sum + 1 =
    compilation.report.dangling.length + compilation.report.terminal.length
      + compilation.report.backEdges.length + compilation.report.truncated.length
      + compilation.graph.messageTemplates.length
  nodeCount : compilation.report.nodeCount = compilation.graph.nodes.length
  nodes : compilation.graph.nodes.length = 2 + compilation.graph.messageTemplates.length
    + 2 * ((compilation.graph.templates index).map fun template =>
        (rules.kept index template).length).sum
    + compilation.report.truncated.length
  edgeCount : compilation.report.edgeCount = compilation.graph.edges.length
  edges : compilation.graph.edges.length = 1
    + (compilation.graph.templates index).countP (fun template =>
        (rules.kept index template).isEmpty)
    + 3 * ((compilation.graph.templates index).map fun template =>
        (rules.kept index template).length).sum
  dangling : compilation.report.dangling =
    (compilation.graph.templates index).flatMap fun template =>
      template.responses.filterMap fun response =>
        (response.dangling? index).map (Dangling.mk (response.ref template))
  terminal : compilation.report.terminal =
    (compilation.graph.templates index).flatMap fun template =>
      (template.responses.filter (·.next.isNone)).map (·.ref template)
  truncated : List.Forall₂ (fun reply node => node.MarksCut rules index reply)
    compilation.report.truncated (compilation.graph.nodes.filter Node.isContinuation)

section

variable {α : Type} {graph : Graph α} {first : Template} {others : List Template}

theorem Rules.countP_kept {scene : Scene}
    (member : scene ∈ (rules.expand (first :: others) first).scenes) :
    (rules.kept (first :: others) scene.owner).countP (·.next.isSome) =
      scene.turns.countP (·.landing.target?.isSome) := by
  rw [← map_response_turns member, List.countP_map]
  apply List.countP_congr
  intro turn offered
  simp [next_turn member offered]

theorem Rules.length_responses_scenes (rules : Rules) (first : Template) (others : List Template)
    {scenes : List Scene}
    (known : ∀ scene ∈ scenes, scene ∈ (rules.expand (first :: others) first).scenes) :
    (scenes.map fun scene => scene.owner.responses.length).sum =
      (scenes.flatMap fun scene => scene.owner.danglingReplies (first :: others)).length
        + (scenes.flatMap fun scene => scene.owner.terminalReplies).length
        + (scenes.flatMap Scene.turns).countP (·.landing.target?.isSome) := by
  induction scenes with
  | nil => rfl
  | cons scene rest ih =>
    obtain ⟨here, later⟩ := List.forall_mem_cons.mp known
    have own := rules.length_responses (first :: others) scene.owner
    rw [countP_kept here] at own
    simp only [List.map_cons, List.sum_cons, List.flatMap_cons, List.length_append,
      List.countP_append, own, ih later]
    omega

theorem Rules.length_kept {scene : Scene}
    (member : scene ∈ (rules.expand (first :: others) first).scenes) :
    (rules.kept (first :: others) scene.owner).length = scene.turns.length := by
  rw [← map_response_turns member, List.length_map]

/-- The kept replies of all templates with a message are the branches of all scenes. -/
theorem Rules.sum_kept (rules : Rules) (first : Template) (others : List Template) :
    (((rules.expand (first :: others) first).scenes.map Scene.owner).map fun template =>
        (rules.kept (first :: others) template).length).sum =
      (rules.expand (first :: others) first).turns.length := by
  rw [List.map_map, Expansion.turns, List.length_flatMap]
  exact congrArg List.sum (List.map_congr_left fun scene member => length_kept member)

theorem Rules.countP_silent (rules : Rules) (first : Template) (others : List Template) :
    ((rules.expand (first :: others) first).scenes.map Scene.owner).countP (fun template =>
        (rules.kept (first :: others) template).isEmpty) =
      (rules.expand (first :: others) first).scenes.countP (·.turns.isEmpty) := by
  rw [List.countP_map]
  apply List.countP_congr
  intro scene member
  simp [← map_response_turns member]

theorem Rules.filterMap_owners (rules : Rules) (first : Template) (others : List Template) :
    ((rules.expand (first :: others) first).scenes.map fun scene => scene.owner.id).filterMap
        (Selection.find? (first :: others)) =
      (rules.expand (first :: others) first).scenes.map Scene.owner := by
  rw [List.filterMap_map, ← List.filterMap_eq_map]
  exact List.filterMap_congr fun scene member =>
    find?_owner (Selection.find?_first first others) member

namespace Graph.Shows

theorem length_nodes (drawn : graph.Shows (rules.plan (first :: others))) :
    graph.nodes.length = 2 + (rules.expand (first :: others) first).scenes.length
      + 2 * (rules.expand (first :: others) first).turns.length
      + ((rules.expand (first :: others) first).branches.cuts first).length := by
  have contents := congrArg List.length drawn.contents
  rw [List.length_map, List.length_map, length_settle (rules.sound_plan _).finish,
    Rules.ownSteps_plan_cons, List.length_cons,
    (rules.perm_conversationPlan (first :: others) first).ownSteps.length_eq,
    Rules.length_ownSteps_scenesPlan] at contents
  have cuts : _ = ((rules.expand (first :: others) first).branches.cuts first).length :=
    (rules.expand (first :: others) first).countP_cut
  rw [Expansion.turns] at cuts ⊢
  omega

theorem length_edges (drawn : graph.Shows (rules.plan (first :: others))) :
    graph.edges.length = 1
      + (rules.expand (first :: others) first).scenes.countP (·.turns.isEmpty)
      + 3 * (rules.expand (first :: others) first).turns.length := by
  rw [drawn.edges, List.length_map, Rules.links_plan_cons, List.length_cons,
    (rules.perm_conversationPlan (first :: others) first).links.length_eq,
    Rules.length_links_scenesPlan, Expansion.turns]
  omega

/-- The marks of a graph are drawn in the order in which branches are cut. -/
theorem contents_marks (drawn : graph.Shows (rules.plan (first :: others))) :
    (graph.nodes.filter Node.isContinuation).map Node.content =
      ((rules.expand (first :: others) first).branches.marks first 0).map
        fun mark => mark.sketch.content := by
  let branches := (rules.expand (first :: others) first).branches
  -- the end is not a mark, so leaving it out loses none
  have kept := filter_settle false (rules.plan (first :: others)).sketches
    (·.content.isContinuation) (by
      intro sketch member mark last
      rw [((rules.sound_plan _).agrees sketch member).finish last] at mark
      cases mark)
  have message : (Blueprint.step (rules.messageSketch first)).sketches.filter
      (·.content.isContinuation) = [] := rfl
  have closing : (branches.closingPlan first.id).sketches.filter (·.content.isContinuation) = [] :=
    branches.filter_closingPlan first.id
  have plan : (rules.plan (first :: others)).sketches.filter (·.content.isContinuation) =
      (branches.marks first 0).map Mark.sketch := by
    rw [Rules.sketches_plan_cons, List.filter_cons_of_neg Bool.false_ne_true, List.filter_append,
      Rules.conversationPlan, Rules.messagePlan, Blueprint.sketches_append,
      Blueprint.sketches_append, List.filter_append, List.filter_append, message, closing,
      branches.filter_plan first 0, List.append_nil]
    exact List.append_nil _
  calc (graph.nodes.filter Node.isContinuation).map Node.content
    _ = (graph.nodes.map Node.content).filter NodeContent.isContinuation := by
      rw [List.filter_map]
      rfl
    _ = ((settle false (rules.plan (first :: others)).sketches).filter
          (·.content.isContinuation)).map Sketch.content := by
      rw [drawn.contents, List.filter_map]
      rfl
    _ = (branches.marks first 0).map fun mark => mark.sketch.content := by
      rw [kept, plan, List.map_map]
      rfl

theorem forall₂_marks (drawn : graph.Shows (rules.plan (first :: others))) :
    List.Forall₂ (fun reply node => node.MarksCut rules (first :: others) reply)
      ((rules.expand (first :: others) first).branches.cuts first)
      (graph.nodes.filter Node.isContinuation) := by
  have contents := drawn.contents_marks
  rw [← List.forall₂_eq_eq_eq, List.forall₂_map_left_iff, List.forall₂_map_right_iff] at contents
  rw [Branches.cuts_eq_map_marks _ _ 0, List.forall₂_map_left_iff]
  have both := (List.forall₂_and_left _ _).mpr ⟨Branches.exists_scene_of_mark _ _ [], contents.flip⟩
  refine both.imp fun mark node ⟨⟨scene, member, owner, offered⟩, content⟩ => ?_
  have turning := List.mem_of_getElem? offered
  refine ⟨scene.owner, mark.response, mark.target, mark.place, ?_, ?_, rfl, ?_, ?_, ?_⟩
  · exact owner ▸ Rules.find?_owner (Selection.find?_first first others) member
  · rw [← Rules.map_response_turns member, List.getElem?_map, offered]
    rfl
  · exact Rules.next_turn member turning
  · exact congrArg NodeContent.id content
  · exact congrArg NodeContent.payload content

end Graph.Shows

end

namespace Compiler

variable {α : Type} [Coordinate α] {compiler : Compiler α} {templates : List Template}
  {compilation : Compilation α} {first : Template} {others : List Template}

/-- The templates with a message are those of the scenes. -/
theorem templates_eq (compiled : compiler.compile templates = .ok compilation)
    (selected : (compiler.rules.select templates).templates = first :: others) :
    compilation.graph.templates (first :: others) =
      (compiler.rules.expand (first :: others) first).scenes.map Scene.owner := by
  rw [Graph.templates, messageTemplates_eq_owners compiled selected, Rules.filterMap_owners]

theorem dangling_eq (compiled : compiler.compile templates = .ok compilation)
    (selected : (compiler.rules.select templates).templates = first :: others) :
    compilation.report.dangling = (compilation.graph.templates (first :: others)).flatMap
      (·.danglingReplies (first :: others)) := by
  rw [templates_eq compiled selected, Expansion.map_owner_scenes]
  obtain ⟨draft, rfl⟩ := exists_report compiled selected
  exact congrArg (fun index => List.flatMap (Template.danglingReplies · index) _) selected

theorem terminal_eq (compiled : compiler.compile templates = .ok compilation)
    (selected : (compiler.rules.select templates).templates = first :: others) :
    compilation.report.terminal = (compilation.graph.templates (first :: others)).flatMap
      Template.terminalReplies := by
  rw [templates_eq compiled selected, Expansion.map_owner_scenes]
  obtain ⟨draft, rfl⟩ := exists_report compiled selected
  rfl

theorem backEdges_eq (compiled : compiler.compile templates = .ok compilation)
    (selected : (compiler.rules.select templates).templates = first :: others) :
    compilation.report.backEdges =
      (compiler.rules.expand (first :: others) first).branches.backEdges first 0 := by
  obtain ⟨draft, rfl⟩ := exists_report compiled selected
  rfl

/-- A compilation accounts for every reply of the templates that have a message. -/
theorem compile_accounts (compiled : compiler.compile templates = .ok compilation)
    (selected : (compiler.rules.select templates).templates = first :: others) :
    compilation.Accounts compiler.rules (first :: others) := by
  let expansion := compiler.rules.expand (first :: others) first
  have owners : compilation.graph.messageTemplates = expansion.scenes.map fun scene =>
    scene.owner.id := messageTemplates_eq_owners compiled selected
  have entered : compilation.graph.templates (first :: others) =
    expansion.scenes.map Scene.owner := templates_eq compiled selected
  have drawn := shows_plan compiled
  rw [selected] at drawn
  have truncated : compilation.report.truncated = expansion.branches.cuts expansion.first :=
    truncated_eq compiled selected
  have backEdges : compilation.report.backEdges =
    expansion.branches.backEdges expansion.first 0 := backEdges_eq compiled selected
  have dangling := dangling_eq compiled selected
  have terminal := terminal_eq compiled selected
  have replies := compiler.rules.length_responses_scenes first others
    fun scene (member : scene ∈ expansion.scenes) => member
  have targets : (expansion.scenes.flatMap Scene.turns).countP (·.landing.target?.isSome) + 1 =
    _ := expansion.countP_target
  obtain ⟨draft, same⟩ := exists_report compiled selected
  exact {
    templates := by
      rw [entered, owners, List.map_map]
      rfl
    replies := by
      rw [dangling, terminal, truncated, backEdges, owners, entered, List.map_map,
        List.flatMap_map, List.flatMap_map, List.length_map, Function.comp_def]
      omega
    nodeCount := by
      rw [same]
      rfl
    nodes := by
      rw [drawn.length_nodes, truncated, owners, entered, Rules.sum_kept, List.length_map]
      rfl
    edgeCount := by
      rw [same]
      rfl
    edges := by rw [drawn.length_edges, entered, Rules.sum_kept, Rules.countP_silent]
    dangling := by
      rw [dangling]
      simp only [Template.danglingReplies_eq]
    terminal := terminal
    truncated := truncated ▸ drawn.forall₂_marks }

theorem compile_accounts_detour :
    ∃ compilation first others, Samples.shallow.compile Samples.detour = .ok compilation ∧
      (Samples.shallow.rules.select Samples.detour).templates = first :: others ∧
      compilation.Accounts Samples.shallow.rules (first :: others) := by
  obtain ⟨compilation, compiled⟩ := Samples.exists_compile_detour
  exact ⟨compilation, _, _, compiled, rfl, compile_accounts compiled rfl⟩

end Compiler

end ReplyFlow
