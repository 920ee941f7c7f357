import Mathlib.Data.List.Nodup
import ReplyFlow.Proofs.Compile.Blueprint
import ReplyFlow.Proofs.Graph.Soundness

/-! The shape of a blueprint: it consists of its scenes.

In the order of drawing the branches of a message are interleaved with everything that follows
them. Up to that order a blueprint is one scene after another, and no scene names a step of another
one.
-/

set_option autoImplicit false

namespace ReplyFlow

def Turn.plan (rules : Rules) (owner : Int) (index : Nat) (turn : Turn) : Blueprint :=
  rules.branchPlan owner index turn.response ++ turn.landing.plan owner index

/-- The branches of one message from some number on, without what follows them. -/
def Rules.turnsPlan (rules : Rules) (owner : Int) : Nat → List Turn → Blueprint
  | _, [] => ⟨[], []⟩
  | index, turn :: rest => turn.plan rules owner index ++ rules.turnsPlan owner (index + 1) rest

namespace Scene

def closingPlan (scene : Scene) : Blueprint :=
  match scene.turns with
  | [] => ⟨[.finish], [⟨.message scene.owner.id, .finish, none⟩]⟩
  | _ => ⟨[], []⟩

def plan (rules : Rules) (scene : Scene) : Blueprint :=
  .step (rules.messageSketch scene.owner)
    ++ (rules.turnsPlan scene.owner.id 0 scene.turns ++ scene.closingPlan)

end Scene

def Rules.scenesPlan (rules : Rules) (scenes : List Scene) : Blueprint :=
  ⟨scenes.flatMap fun scene => (scene.plan rules).sketches,
    scenes.flatMap fun scene => (scene.plan rules).links⟩

/-- The same steps and links in some other order. -/
structure Blueprint.Perm (first second : Blueprint) : Prop where
  sketches : first.sketches.Perm second.sketches
  links : first.links.Perm second.links

theorem Branches.closingPlan_eq (child : Template) (inside : Branches) :
    inside.closingPlan child.id = Scene.closingPlan ⟨child, inside.turns⟩ := by
  cases inside <;> rfl

variable {rules : Rules}

/-! ## Branches in a row -/

theorem Rules.sketches_turnsPlan (owner : Int) (index : Nat) (turns : List Turn) :
    (rules.turnsPlan owner index turns).sketches =
      (turns.zipIdx index).flatMap fun entry => (entry.1.plan rules owner entry.2).sketches := by
  induction turns generalizing index with
  | nil => rfl
  | cons turn rest ih => simp [turnsPlan, List.zipIdx_cons, ih]

theorem Rules.links_turnsPlan (owner : Int) (index : Nat) (turns : List Turn) :
    (rules.turnsPlan owner index turns).links =
      (turns.zipIdx index).flatMap fun entry => (entry.1.plan rules owner entry.2).links := by
  induction turns generalizing index with
  | nil => rfl
  | cons turn rest ih => simp [turnsPlan, List.zipIdx_cons, ih]

theorem Rules.mem_links_turnsPlan {owner : Int} {index : Nat} {turns : List Turn} {link : Link} :
    link ∈ (rules.turnsPlan owner index turns).links ↔ ∃ turn place,
      (turn, place) ∈ turns.zipIdx index ∧ link ∈ (turn.plan rules owner place).links := by
  rw [links_turnsPlan, List.mem_flatMap, Prod.exists]

/-! ## Blueprints and scenes -/

theorem Rules.scenesPlan_cons (scene : Scene) (rest : List Scene) :
    rules.scenesPlan (scene :: rest) = scene.plan rules ++ rules.scenesPlan rest := rfl

theorem Rules.scenesPlan_append (first second : List Scene) :
    rules.scenesPlan (first ++ second) = rules.scenesPlan first ++ rules.scenesPlan second := by
  simp only [scenesPlan, List.flatMap_append]
  rfl

theorem Branches.perm_plan (tree : Branches) (owner : Int) (index : Nat) :
    (tree.plan rules owner index).Perm
      (rules.turnsPlan owner index tree.turns ++ rules.scenesPlan tree.scenes) := by
  induction tree generalizing owner index with
  | done => exact ⟨.refl _, .refl _⟩
  | stop response ending rest ih =>
    have tail := ih owner (index + 1)
    constructor
    · exact (List.Perm.append_left _ (tail.sketches.append_left _)).trans
        (by simp [turns, Rules.turnsPlan, Turn.plan, scenes, List.append_assoc])
    · exact (List.Perm.append_left _ (tail.links.append_left _)).trans
        (by simp [turns, Rules.turnsPlan, Turn.plan, scenes, List.append_assoc])
  | into response child inside rest insideIH restIH =>
    have nested := insideIH child.id 0
    have tail := restIH owner (index + 1)
    -- a child stands in its parent's row of links, but its scene comes after all of them
    constructor
    · rw [List.perm_iff_count]
      intro sketch
      have inner := nested.sketches.count_eq sketch
      have outer := tail.sketches.count_eq sketch
      simp only [plan, turns, scenes, Rules.turnsPlan, Turn.plan, Scene.plan, Landing.plan,
        Landing.sketches, Blueprint.link, Rules.scenesPlan_append, Rules.scenesPlan_cons,
        Blueprint.sketches_append, List.count_append, List.count_nil, closingPlan_eq] at inner outer ⊢
      omega
    · rw [List.perm_iff_count]
      intro link
      have inner := nested.links.count_eq link
      have outer := tail.links.count_eq link
      simp only [plan, turns, scenes, Rules.turnsPlan, Turn.plan, Scene.plan, Landing.plan,
        Landing.step, Blueprint.link, Rules.scenesPlan_append, Rules.scenesPlan_cons,
        Blueprint.links_append, List.count_append, closingPlan_eq] at inner outer ⊢
      omega

-- A message is closed after its branches, where its scene closes before those that follow.
theorem Rules.perm_messagePlan (template : Template) (branches : Branches) :
    (rules.messagePlan template branches).Perm
      (rules.scenesPlan (⟨template, branches.turns⟩ :: branches.scenes)) := by
  have inside : (branches.plan rules template.id 0).Perm _ := branches.perm_plan template.id 0
  have closing := branches.closingPlan_eq template
  rw [messagePlan, scenesPlan_cons, Scene.plan, closing]
  constructor
  · rw [List.perm_iff_count]
    intro sketch
    have inner := inside.sketches.count_eq sketch
    simp only [Blueprint.sketches_append, List.count_append] at inner ⊢
    omega
  · rw [List.perm_iff_count]
    intro link
    have inner := inside.links.count_eq link
    simp only [Blueprint.links_append, List.count_append] at inner ⊢
    omega

/-! ## Steps -/

/-- The number of the branch that a step belongs to. -/
def StepName.index? : StepName → Option Int
  | .start | .finish | .message _ => none
  | .condition _ index | .delay _ index | .continuation _ index => some index

def Blueprint.steps (plan : Blueprint) : List StepName :=
  plan.sketches.map Sketch.step

/-- All steps but the end, which a blueprint may name more than once. -/
def Blueprint.ownSteps (plan : Blueprint) : List StepName :=
  plan.steps.filter (· ≠ .finish)

@[simp] theorem Blueprint.steps_append (first second : Blueprint) :
    (first ++ second).steps = first.steps ++ second.steps := by
  simp [steps]

@[simp] theorem Blueprint.ownSteps_append (first second : Blueprint) :
    (first ++ second).ownSteps = first.ownSteps ++ second.ownSteps := by
  simp [ownSteps]

theorem count_finish_settle (ended : Bool) (sketches : List Sketch) :
    ((settle ended sketches).map Sketch.step).count .finish ≤ (!ended).toNat := by
  induction sketches generalizing ended with
  | nil => simp [settle]
  | cons first rest ih =>
    rw [settle]
    by_cases last : first.step = .finish
    · have none : ((settle true rest).map Sketch.step).count .finish ≤ 0 := ih true
      cases ended
      · simp only [last, if_true, Bool.false_eq_true, if_false, List.map_cons, List.count_cons_self]
        exact Nat.succ_le_succ none
      · simpa [last] using none
    · rw [if_neg last, List.map_cons, List.count_cons_of_ne last]
      exact ih ended

theorem filter_steps_settle (plan : Blueprint) :
    ((settle false plan.sketches).map Sketch.step).filter (· ≠ .finish) = plan.ownSteps := by
  have kept := filter_settle false plan.sketches (fun sketch => sketch.step ≠ .finish)
    (fun _ _ shared => by simpa using shared)
  rw [Blueprint.ownSteps, Blueprint.steps, List.filter_map, List.filter_map]
  exact congrArg (List.map Sketch.step) kept

/-- A blueprint whose steps are distinct but for the end is drawn with distinct steps. -/
theorem nodup_settle {plan : Blueprint} (distinct : plan.ownSteps.Nodup) :
    ((settle false plan.sketches).map Sketch.step).Nodup := by
  rw [List.nodup_iff_count_le_one]
  intro step
  -- the end occurs once because of `settle`, any other step because it did so before
  by_cases last : step = .finish
  · rw [last]
    exact count_finish_settle false plan.sketches
  · calc ((settle false plan.sketches).map Sketch.step).count step
      _ = (((settle false plan.sketches).map Sketch.step).filter (· ≠ .finish)).count step :=
        (List.count_filter (by simpa using last)).symm
      _ = plan.ownSteps.count step := by rw [filter_steps_settle]
      _ ≤ 1 := List.nodup_iff_count_le_one.mp distinct step

theorem mem_settle {sketches : List Sketch} {ended : Bool} {step : StepName} :
    step ∈ (settle ended sketches).map Sketch.step ↔
      step ∈ sketches.map Sketch.step ∧ (ended → step ≠ .finish) := by
  induction sketches generalizing ended with
  | nil => simp [settle]
  | cons first rest ih =>
    rw [settle, List.map_cons, List.mem_cons]
    by_cases last : first.step = .finish
    · cases ended
      · by_cases same : step = .finish <;> simp [last, ih, same]
      · rw [if_pos last, if_pos rfl, ih, last]
        constructor
        · rintro ⟨member, shared⟩
          exact ⟨.inr member, shared⟩
        · rintro ⟨member, shared⟩
          exact ⟨member.resolve_left (shared rfl), shared⟩
    · rw [if_neg last, List.map_cons, List.mem_cons, ih]
      constructor
      · rintro (same | ⟨member, shared⟩)
        · exact ⟨.inl same, fun _ => same ▸ last⟩
        · exact ⟨.inr member, shared⟩
      · rintro ⟨same | member, shared⟩
        · exact .inl same
        · exact .inr ⟨member, shared⟩

/-! ## The steps of scenes -/

theorem Rules.mem_ownSteps_turnsPlan {owner : Int} {index : Nat} {turns : List Turn} {step : StepName} :
    step ∈ (rules.turnsPlan owner index turns).ownSteps ↔ ∃ turn place,
      (turn, place) ∈ turns.zipIdx index ∧ step ∈ (turn.plan rules owner place).ownSteps := by
  rw [Blueprint.ownSteps, Blueprint.steps, sketches_turnsPlan, List.map_flatMap,
    List.filter_flatMap, List.mem_flatMap, Prod.exists]
  rfl

/-- The mark of a branch that is cut. -/
def Landing.mark (owner : Int) (index : Nat) : Landing → List StepName
  | continuation _ => [.continuation owner index]
  | _ => []

theorem Turn.ownSteps_plan (owner : Int) (index : Nat) (turn : Turn) :
    (turn.plan rules owner index).ownSteps =
      .condition owner index :: .delay owner index :: turn.landing.mark owner index := by
  obtain ⟨response, landing⟩ := turn
  cases landing <;> rfl

theorem Turn.nodup_ownSteps (owner : Int) (index : Nat) (turn : Turn) :
    (turn.plan rules owner index).ownSteps.Nodup := by
  rw [ownSteps_plan]
  cases turn.landing <;> simp [Landing.mark]

theorem Turn.mem_ownSteps {owner : Int} {index : Nat} {turn : Turn} {step : StepName}
    (member : step ∈ (turn.plan rules owner index).ownSteps) :
    step.owner? = some owner ∧ step.index? = some (index : Int) := by
  rw [ownSteps_plan, List.mem_cons, List.mem_cons] at member
  rcases member with rfl | rfl | member
  · exact ⟨rfl, rfl⟩
  · exact ⟨rfl, rfl⟩
  · cases landing : turn.landing with
    | finish | message => simp [landing, Landing.mark] at member
    | continuation target =>
      rw [landing, Landing.mark, List.mem_singleton] at member
      exact member ▸ ⟨rfl, rfl⟩

theorem Rules.owner_of_mem {owner : Int} {index : Nat} {turns : List Turn}
    {step : StepName} (member : step ∈ (rules.turnsPlan owner index turns).ownSteps) :
    step.owner? = some owner ∧ ∃ later, index ≤ later ∧ step.index? = some (later : Int) := by
  obtain ⟨turn, later, offered, inside⟩ := mem_ownSteps_turnsPlan.mp member
  obtain ⟨owned, numbered⟩ := Turn.mem_ownSteps inside
  exact ⟨owned, later, List.le_snd_of_mem_zipIdx offered, numbered⟩

theorem Rules.nodup_ownSteps_turnsPlan (owner : Int) (index : Nat) (turns : List Turn) :
    (rules.turnsPlan owner index turns).ownSteps.Nodup := by
  induction turns generalizing index with
  | nil => exact List.nodup_nil
  | cons turn rest ih =>
    rw [turnsPlan, Blueprint.ownSteps_append, List.nodup_append]
    refine ⟨turn.nodup_ownSteps owner index, ih (index + 1), ?_⟩
    -- branches of one message differ by their number
    rintro step here _ there rfl
    have numbered := (Turn.mem_ownSteps here).2
    obtain ⟨_, later, bound, numberedLater⟩ := owner_of_mem there
    rw [numbered, Option.some.injEq] at numberedLater
    omega

theorem Scene.ownSteps_plan (scene : Scene) :
    (scene.plan rules).ownSteps = .message scene.owner.id
      :: (rules.turnsPlan scene.owner.id 0 scene.turns).ownSteps := by
  have closing : scene.closingPlan.ownSteps = [] := by
    rw [closingPlan]
    split <;> rfl
  rw [plan, Blueprint.ownSteps_append, Blueprint.ownSteps_append, closing, List.append_nil]
  rfl

theorem Scene.nodup_ownSteps (scene : Scene) : (scene.plan rules).ownSteps.Nodup := by
  rw [ownSteps_plan, List.nodup_cons]
  refine ⟨fun member => ?_, rules.nodup_ownSteps_turnsPlan _ _ _⟩
  obtain ⟨_, _, _, numbered⟩ := Rules.owner_of_mem member
  cases numbered

theorem Scene.owner_of_mem {scene : Scene} {step : StepName}
    (member : step ∈ (scene.plan rules).ownSteps) : step.owner? = some scene.owner.id := by
  rw [ownSteps_plan] at member
  rcases List.mem_cons.mp member with rfl | member
  · rfl
  · exact (Rules.owner_of_mem member).1

theorem Rules.mem_ownSteps_scenesPlan {scenes : List Scene} {step : StepName} :
    step ∈ (rules.scenesPlan scenes).ownSteps ↔
      ∃ scene ∈ scenes, step ∈ (scene.plan rules).ownSteps := by
  induction scenes with
  | nil => simp [scenesPlan, Blueprint.ownSteps, Blueprint.steps]
  | cons scene rest ih =>
    rw [scenesPlan_cons, Blueprint.ownSteps_append, List.mem_append, ih]
    simp

/-- Scenes of different templates have no step in common. -/
theorem Rules.nodup_ownSteps_scenesPlan {scenes : List Scene}
    (distinct : (scenes.map fun scene => scene.owner.id).Nodup) :
    (rules.scenesPlan scenes).ownSteps.Nodup := by
  induction scenes with
  | nil => exact List.nodup_nil
  | cons scene rest ih =>
    rw [List.map_cons, List.nodup_cons] at distinct
    rw [scenesPlan_cons, Blueprint.ownSteps_append, List.nodup_append]
    refine ⟨scene.nodup_ownSteps, ih distinct.2, ?_⟩
    -- scenes differ by their owner
    rintro step here _ there rfl
    obtain ⟨other, member, inside⟩ := mem_ownSteps_scenesPlan.mp there
    have same := (Scene.owner_of_mem here).symm.trans (Scene.owner_of_mem inside)
    apply distinct.1
    rw [Option.some.inj same]
    exact List.mem_map_of_mem member

/-! ## Messages -/

/-- The template of a message step. -/
def StepName.message? : StepName → Option Int
  | .message template => some template
  | _ => none

/-- The template of a node that is a message. -/
def NodeContent.message? (content : NodeContent) : Option Int :=
  match content.kind, content.payload with
  | .message, .message _ templateId _ _ => some templateId
  | _, _ => none

theorem Node.message?_content {α : Type} (node : Node α) :
    node.content.message? = node.templateId? := by
  by_cases message : node.kind = .message
  · obtain ⟨label, templateId, body, recipient, payload⟩ := Node.exists_message message
    simp [NodeContent.message?, Node.content, Node.templateId?, message, payload]
  · simp [NodeContent.message?, Node.content, message, Node.templateId?_eq_none message]

/-- A step and its payload agree on whether they are a message, and of what; and there is but one
way to sketch the end. -/
structure Sketch.Agrees (sketch : Sketch) : Prop where
  message : sketch.content.message? = sketch.step.message?
  finish : sketch.step = .finish → sketch = .finish

theorem Sketch.agrees_start : Sketch.start.Agrees := ⟨rfl, nofun⟩

theorem Sketch.agrees_finish : Sketch.finish.Agrees := ⟨rfl, fun _ => rfl⟩

theorem Landing.agrees_plan {owner : Int} {index : Nat} {landing : Landing} :
    ∀ sketch ∈ (landing.plan owner index).sketches, sketch.Agrees := by
  intro sketch member
  cases landing with
  | message => cases member
  | finish => exact List.mem_singleton.mp member ▸ Sketch.agrees_finish
  | continuation => exact List.mem_singleton.mp member ▸ ⟨rfl, nofun⟩

theorem Rules.agrees_branchPlan {owner : Int} {index : Nat} {response : Response} :
    ∀ sketch ∈ (rules.branchPlan owner index response).sketches, sketch.Agrees := by
  intro sketch member
  rcases List.mem_pair.mp member with rfl | rfl
  · exact ⟨rfl, nofun⟩
  · exact ⟨rfl, nofun⟩

theorem Rules.agrees_turnsPlan {owner : Int} {index : Nat} {turns : List Turn} :
    ∀ sketch ∈ (rules.turnsPlan owner index turns).sketches, sketch.Agrees := by
  intro sketch member
  rw [sketches_turnsPlan] at member
  obtain ⟨entry, _, inside⟩ := List.mem_flatMap.mp member
  rcases List.mem_append.mp inside with branch | landing
  · exact agrees_branchPlan sketch branch
  · exact Landing.agrees_plan sketch landing

theorem Scene.agrees_plan {scene : Scene} :
    ∀ sketch ∈ (scene.plan rules).sketches, sketch.Agrees := by
  intro sketch member
  simp only [plan, Blueprint.sketches_append, List.mem_append] at member
  rcases member with message | turns | closing
  · exact List.mem_singleton.mp message ▸ ⟨rfl, nofun⟩
  · exact Rules.agrees_turnsPlan sketch turns
  · rw [closingPlan] at closing
    split at closing
    · exact List.mem_singleton.mp closing ▸ Sketch.agrees_finish
    · cases closing

theorem Branches.messages_closingPlan (owner : Int) (branches : Branches) :
    (branches.closingPlan owner).steps.filterMap StepName.message? = [] := by
  cases branches <;> rfl

/-- Messages are drawn in the order in which their templates are entered. -/
theorem Branches.messages_plan (tree : Branches) (owner : Int) (index : Nat) :
    (tree.plan rules owner index).steps.filterMap StepName.message? =
      tree.entered.map Template.id := by
  induction tree generalizing owner index with
  | done => rfl
  | stop response ending rest ih =>
    have branch : ((rules.branchPlan owner index response).steps.filterMap StepName.message?) = [] :=
      rfl
    have landing : (ending.landing.plan owner index).steps.filterMap StepName.message? = [] := by
      cases ending <;> rfl
    simp only [plan, Blueprint.steps_append, List.filterMap_append, branch, landing, ih,
      List.nil_append, entered]
  | into response child inside rest insideIH restIH =>
    have branch : ((rules.branchPlan owner index response).steps.filterMap StepName.message?) = [] :=
      rfl
    have message : (Blueprint.step (rules.messageSketch child)).steps.filterMap StepName.message?
        = [child.id] := rfl
    have link : (Blueprint.link (.delay owner index) (.message child.id) none).steps.filterMap
        StepName.message? = [] := rfl
    simp only [plan, Blueprint.steps_append, List.filterMap_append, branch, message, link,
      messages_closingPlan, insideIH, restIH, List.nil_append, entered, List.cons_append,
      List.map_cons, List.map_append]

theorem Rules.messages_messagePlan (template : Template) (tree : Branches) :
    (rules.messagePlan template tree).steps.filterMap StepName.message? =
      template.id :: tree.entered.map Template.id := by
  rw [messagePlan, Blueprint.steps_append, Blueprint.steps_append, List.filterMap_append,
    List.filterMap_append, Branches.messages_plan, Branches.messages_closingPlan, List.append_nil]
  rfl

end ReplyFlow
