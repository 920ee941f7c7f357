import ReplyFlow.Proofs.Compile.Integrity
import ReplyFlow.Proofs.Compile.Replies

/-! Which links leave a step.

The links of a message are drawn with everything else in between. Those that belong to one template
stand in the same order as in its scene.
-/

set_option autoImplicit false

namespace ReplyFlow

def Blueprint.linksOf (plan : Blueprint) (template : Int) : List Link :=
  plan.links.filter fun link => link.source.owner? = some template

def Blueprint.outgoing (plan : Blueprint) (step : StepName) : List Link :=
  plan.links.filter fun link => link.source = step

variable {rules : Rules}

theorem Blueprint.linksOf_append (first second : Blueprint) (template : Int) :
    (first ++ second).linksOf template = first.linksOf template ++ second.linksOf template := by
  simp [linksOf]

theorem Blueprint.outgoing_append (first second : Blueprint) (step : StepName) :
    (first ++ second).outgoing step = first.outgoing step ++ second.outgoing step := by
  simp [outgoing]

/-- The links that leave a step are among those of its template. -/
theorem Blueprint.outgoing_eq (plan : Blueprint) {step : StepName} {template : Int}
    (owned : step.owner? = some template) :
    plan.outgoing step = (plan.linksOf template).filter fun link => link.source = step := by
  rw [outgoing, linksOf, List.filter_filter]
  apply List.filter_congr
  intro link _
  by_cases same : link.source = step <;> simp [same, owned]

/-! ## The links of one template -/

/-- A link of some branch leaves the message, or the condition or the delay of that branch. -/
theorem Turn.source_of_link {owner : Int} {index : Nat} {turn : Turn} :
    ∀ link ∈ (turn.plan rules owner index).links, link.source = .message owner ∨
      link.source = .condition owner index ∨ link.source = .delay owner index := by
  intro link member
  rw [links_plan] at member
  simp only [List.mem_cons, List.not_mem_nil, or_false] at member
  rcases member with rfl | rfl | rfl
  · exact .inl rfl
  · exact .inr (.inl rfl)
  · exact .inr (.inr rfl)

theorem Rules.source_of_link {owner : Int} {index : Nat} {turns : List Turn} :
    ∀ link ∈ (rules.turnsPlan owner index turns).links, link.source = .message owner ∨
      ∃ later : Nat, index ≤ later ∧
        (link.source = .condition owner later ∨ link.source = .delay owner later) := by
  intro link member
  obtain ⟨turn, later, offered, inside⟩ := mem_links_turnsPlan.mp member
  have bound := List.le_snd_of_mem_zipIdx offered
  exact (Turn.source_of_link link inside).imp_right fun own => ⟨later, bound, own⟩

theorem Scene.source_of_closing {scene : Scene} :
    ∀ link ∈ scene.closingPlan.links, link.source = .message scene.owner.id := by
  intro link member
  rw [closingPlan] at member
  split at member
  · rw [List.mem_singleton.mp member]
  · cases member

theorem Scene.source_of_link {scene : Scene} :
    ∀ link ∈ (scene.plan rules).links, link.source = .message scene.owner.id ∨ ∃ index : Nat,
      link.source = .condition scene.owner.id index ∨ link.source = .delay scene.owner.id index := by
  intro link member
  simp only [plan, Blueprint.links_append, List.mem_append] at member
  rcases member with none | inside | closing
  · cases none
  · rcases Rules.source_of_link link inside with message | ⟨later, _, own⟩
    · exact .inl message
    · exact .inr ⟨later, own⟩
  · exact .inl (source_of_closing link closing)

theorem Rules.owner_of_link {owner : Int} {index : Nat} {turns : List Turn} :
    ∀ link ∈ (rules.turnsPlan owner index turns).links, link.source.owner? = some owner := by
  intro link member
  rcases source_of_link link member with source | ⟨later, _, source | source⟩ <;>
    rw [source] <;> rfl

theorem Scene.owner_of_closing {scene : Scene} :
    ∀ link ∈ scene.closingPlan.links, link.source.owner? = some scene.owner.id := by
  intro link member
  rw [source_of_closing link member]
  rfl

theorem Scene.owner_of_link {scene : Scene} :
    ∀ link ∈ (scene.plan rules).links, link.source.owner? = some scene.owner.id := by
  intro link member
  rcases source_of_link link member with source | ⟨later, source | source⟩ <;>
    rw [source] <;> rfl

section

variable {plan : Blueprint} {owner template : Int}

theorem Blueprint.linksOf_other
    (owned : ∀ link ∈ plan.links, link.source.owner? = some owner) (other : owner ≠ template) :
    plan.linksOf template = [] := by
  rw [linksOf, List.filter_eq_nil_iff]
  intro link member
  simpa [owned link member] using other

theorem Blueprint.linksOf_self (owned : ∀ link ∈ plan.links, link.source.owner? = some owner) :
    plan.linksOf owner = plan.links := by
  rw [linksOf, List.filter_eq_self]
  intro link member
  simp [owned link member]

end

theorem Rules.linksOf_scenesPlan_other {scenes : List Scene} {template : Int}
    (absent : template ∉ scenes.map fun scene => scene.owner.id) :
    (rules.scenesPlan scenes).linksOf template = [] := by
  induction scenes with
  | nil => rfl
  | cons scene rest ih =>
    rw [List.map_cons, List.mem_cons, not_or] at absent
    rw [scenesPlan_cons, Blueprint.linksOf_append, ih absent.2,
      Blueprint.linksOf_other Scene.owner_of_link (Ne.symm absent.1), List.append_nil]

/-- The links of a template are those of its scene. -/
theorem Rules.linksOf_scenesPlan {scenes : List Scene}
    (distinct : (scenes.map fun scene => scene.owner.id).Nodup) {scene : Scene}
    (member : scene ∈ scenes) :
    (rules.scenesPlan scenes).linksOf scene.owner.id = (scene.plan rules).links := by
  induction scenes with
  | nil => cases member
  | cons other rest ih =>
    rw [List.map_cons, List.nodup_cons] at distinct
    rw [scenesPlan_cons, Blueprint.linksOf_append]
    rcases List.mem_cons.mp member with rfl | later
    · rw [Blueprint.linksOf_self Scene.owner_of_link, linksOf_scenesPlan_other distinct.1,
        List.append_nil]
    · have different : other.owner.id ≠ scene.owner.id := by
        intro same
        apply distinct.1
        rw [same]
        exact List.mem_map_of_mem later
      rw [Blueprint.linksOf_other Scene.owner_of_link different, ih distinct.2 later,
        List.nil_append]

-- The order of links is lost between templates, but not for one of them: everything that
-- stands between two of its branches belongs to templates that are entered there.
theorem Branches.linksOf_plan (tree : Branches) (owner : Int) (index : Nat) (template : Int)
    (distinct : (owner :: tree.entered.map Template.id).Nodup) :
    (tree.plan rules owner index).linksOf template =
      (rules.turnsPlan owner index tree.turns).linksOf template
        ++ (rules.scenesPlan tree.scenes).linksOf template := by
  induction tree generalizing owner index with
  | done => rfl
  | stop response ending rest ih =>
    simp only [plan, turns, scenes, Rules.turnsPlan, Turn.plan, Blueprint.linksOf_append,
      ih owner (index + 1) distinct, List.append_assoc]
  | into response child inside rest insideIH restIH =>
    simp only [entered, List.cons_append, List.map_cons, List.map_append, List.nodup_cons,
      List.mem_cons, List.mem_append, not_or, List.nodup_append] at distinct
    obtain ⟨⟨apart, outside, beside⟩, ⟨below, _⟩, nested, tail, _⟩ := distinct
    have inner := insideIH child.id 0 (List.nodup_cons.mpr ⟨below, nested⟩)
    have later := restIH owner (index + 1) (List.nodup_cons.mpr ⟨beside, tail⟩)
    rw [← map_owner_id_scenes] at outside beside below
    simp only [plan, turns, scenes, Rules.turnsPlan, Turn.plan, Scene.plan, Rules.scenesPlan_cons,
      Rules.scenesPlan_append, Blueprint.linksOf_append, closingPlan_eq, inner, later,
      List.append_assoc, List.cons_append]
    have message : (Blueprint.step (rules.messageSketch child)).linksOf template = [] := rfl
    have landing : (Landing.plan owner index (.message child.id)).linksOf template =
        (Blueprint.link (.delay owner index) (.message child.id) none).linksOf template := rfl
    rw [message, landing]
    by_cases own : owner = template
    -- nothing that stands between the branches of the owner belongs to it
    · subst own
      rw [Blueprint.linksOf_other Rules.owner_of_link (Ne.symm apart),
        Rules.linksOf_scenesPlan_other outside, Rules.linksOf_scenesPlan_other beside,
        Blueprint.linksOf_other Scene.owner_of_closing (Ne.symm apart)]
      rfl
    · have turn : (rules.turnsPlan owner index [⟨response, .message child.id⟩]).linksOf template =
          [] := Blueprint.linksOf_other Rules.owner_of_link own
      simp only [Rules.turnsPlan, Turn.plan, Blueprint.linksOf_append, List.append_eq_nil_iff,
        landing] at turn
      rw [turn.1.1, turn.1.2, Blueprint.linksOf_other Rules.owner_of_link own]
      by_cases entered : child.id = template
      -- the child closes after the scenes below it, none of which is its own
      · subst entered
        rw [Rules.linksOf_scenesPlan_other below]
        rfl
      · rw [Blueprint.linksOf_other Scene.owner_of_closing entered]
        rfl

theorem Rules.linksOf_messagePlan (template : Template) (tree : Branches) (id : Int)
    (distinct : (template.id :: tree.entered.map Template.id).Nodup) :
    (rules.messagePlan template tree).linksOf id =
      (rules.scenesPlan (⟨template, tree.turns⟩ :: tree.scenes)).linksOf id := by
  have below := (List.nodup_cons.mp distinct).1
  rw [← Branches.map_owner_id_scenes] at below
  simp only [messagePlan, scenesPlan_cons, Scene.plan, Blueprint.linksOf_append,
    Branches.closingPlan_eq, tree.linksOf_plan template.id 0 id distinct, List.append_assoc]
  by_cases entered : template.id = id
  · subst entered
    rw [linksOf_scenesPlan_other below]
    simp
  · rw [Blueprint.linksOf_other Scene.owner_of_closing entered]
    simp

/-! ## The links of one step -/

theorem Rules.outgoing_message (owner : Int) (index : Nat) (turns : List Turn) :
    (rules.turnsPlan owner index turns).outgoing (.message owner) =
      turns.mapIdx fun place turn =>
        ⟨.message owner, .condition owner ((index + place : Nat) : Int), some turn.response.key⟩ := by
  induction turns generalizing index with
  | nil => rfl
  | cons turn rest ih =>
    have first : (turn.plan rules owner index).outgoing (.message owner) =
        [⟨.message owner, .condition owner index, some turn.response.key⟩] := by
      simp [Blueprint.outgoing, Turn.links_plan]
    rw [turnsPlan, Blueprint.outgoing_append, first, ih, List.mapIdx_cons]
    simp only [Nat.add_zero, Nat.add_assoc, Nat.add_comm 1, List.singleton_append]

/-- Links that leave a step of another branch. -/
theorem Blueprint.outgoing_other {plan : Blueprint} {step : StepName} {index : Int}
    (numbered : step.index? = some index) (others : ∀ link ∈ plan.links,
      ∀ number, link.source.index? = some number → number ≠ index) : plan.outgoing step = [] := by
  rw [outgoing, List.filter_eq_nil_iff]
  intro link member same
  rw [decide_eq_true_eq] at same
  exact others link member index (same ▸ numbered) rfl

/-- A branch has its own condition and its own delay. -/
theorem Rules.outgoing_turnsPlan {owner : Int} {index place : Nat} {turns : List Turn} {turn : Turn}
    (offered : turns[place]? = some turn) {step : StepName}
    (numbered : step.index? = some ((index + place : Nat) : Int)) :
    (rules.turnsPlan owner index turns).outgoing step =
      (turn.plan rules owner (index + place)).outgoing step := by
  induction turns generalizing index place with
  | nil => cases offered
  | cons first rest ih =>
    rw [turnsPlan, Blueprint.outgoing_append]
    cases place with
    -- the steps of a branch carry its number, so no other branch has a link that leaves them
    | zero =>
      cases offered
      have later : (rules.turnsPlan owner (index + 1) rest).outgoing step = [] := by
        apply Blueprint.outgoing_other numbered
        intro link member number same
        rcases source_of_link link member with source | ⟨later, bound, source | source⟩ <;>
          rw [source] at same <;> cases same <;> omega
      rw [later, List.append_nil]
      rfl
    | succ place =>
      have earlier : (first.plan rules owner index).outgoing step = [] := by
        apply Blueprint.outgoing_other numbered
        intro link member number same
        rcases Turn.source_of_link link member with source | source | source <;>
          rw [source] at same <;> cases same <;> omega
      have next : index + (place + 1) = index + 1 + place := by omega
      rw [next] at numbered ⊢
      rw [earlier, List.nil_append, ih offered numbered]

theorem Turn.outgoing_condition (owner : Int) (index : Nat) (turn : Turn) :
    (turn.plan rules owner index).outgoing (.condition owner index) =
      [⟨.condition owner index, .delay owner index, none⟩] := by
  simp [Blueprint.outgoing, links_plan]

theorem Turn.outgoing_delay (owner : Int) (index : Nat) (turn : Turn) :
    (turn.plan rules owner index).outgoing (.delay owner index) =
      [⟨.delay owner index, turn.landing.step owner index, none⟩] := by
  simp [Blueprint.outgoing, links_plan]

namespace Scene

variable (scene : Scene)

theorem outgoing_plan (step : StepName) :
    (scene.plan rules).outgoing step =
      (rules.turnsPlan scene.owner.id 0 scene.turns).outgoing step
        ++ scene.closingPlan.outgoing step := by
  rw [plan, Blueprint.outgoing_append, Blueprint.outgoing_append]
  rfl

theorem outgoing_closingPlan {step : StepName} (other : step ≠ .message scene.owner.id) :
    scene.closingPlan.outgoing step = [] := by
  rw [Blueprint.outgoing, List.filter_eq_nil_iff]
  intro link member same
  rw [decide_eq_true_eq, source_of_closing link member] at same
  exact other same.symm

theorem outgoing_silent (silent : scene.turns = []) :
    (scene.plan rules).outgoing (.message scene.owner.id) =
      [⟨.message scene.owner.id, .finish, none⟩] := by
  rw [outgoing_plan, closingPlan, silent]
  simp [Blueprint.outgoing, Rules.turnsPlan]

theorem outgoing_message (offers : scene.turns ≠ []) :
    (scene.plan rules).outgoing (.message scene.owner.id) =
      scene.turns.mapIdx fun index turn =>
        ⟨.message scene.owner.id, .condition scene.owner.id index, some turn.response.key⟩ := by
  have closing : scene.closingPlan = ⟨[], []⟩ := by
    unfold closingPlan
    cases turns : scene.turns with
    | nil => exact absurd turns offers
    | cons => rfl
  rw [outgoing_plan, closing, Rules.outgoing_message]
  simp [Blueprint.outgoing]

variable {scene} {index : Nat} {turn : Turn}

theorem outgoing_condition (offered : scene.turns[index]? = some turn) :
    (scene.plan rules).outgoing (.condition scene.owner.id index) =
      [⟨.condition scene.owner.id index, .delay scene.owner.id index, none⟩] := by
  have numbered : (StepName.condition scene.owner.id index).index? = some ((0 + index : Nat) : Int) := by
    rw [Nat.zero_add]
    rfl
  rw [outgoing_plan, outgoing_closingPlan scene StepName.noConfusion, List.append_nil,
    Rules.outgoing_turnsPlan offered numbered, Nat.zero_add, Turn.outgoing_condition]

theorem outgoing_delay (offered : scene.turns[index]? = some turn) :
    (scene.plan rules).outgoing (.delay scene.owner.id index) =
      [⟨.delay scene.owner.id index, turn.landing.step scene.owner.id index, none⟩] := by
  have numbered : (StepName.delay scene.owner.id index).index? = some ((0 + index : Nat) : Int) := by
    rw [Nat.zero_add]
    rfl
  rw [outgoing_plan, outgoing_closingPlan scene StepName.noConfusion, List.append_nil,
    Rules.outgoing_turnsPlan offered numbered, Nat.zero_add, Turn.outgoing_delay]

theorem outgoing_continuation (template index : Int) :
    (scene.plan rules).outgoing (.continuation template index) = [] := by
  rw [Blueprint.outgoing, List.filter_eq_nil_iff]
  intro link member same
  rw [decide_eq_true_eq] at same
  rcases source_of_link link member with source | ⟨_, source | source⟩ <;>
    exact StepName.noConfusion (same.symm.trans source)

end Scene

namespace Rules

variable {first : Template} {others : List Template} {scene : Scene}

theorem linksOf_plan (rules : Rules) (first : Template) (others : List Template) (template : Int) :
    (rules.plan (first :: others)).linksOf template =
      (rules.scenesPlan (rules.expand (first :: others) first).scenes).linksOf template := by
  have distinct := nodup_owners rules (first :: others) first
  rw [owners_expand] at distinct
  rw [Blueprint.linksOf, links_plan_cons, List.filter_cons_of_neg (by simp [StepName.owner?])]
  exact rules.linksOf_messagePlan first _ template distinct

/-- What leaves a step is what leaves it in its scene. -/
theorem outgoing_plan (member : scene ∈ (rules.expand (first :: others) first).scenes)
    {step : StepName} (owned : step.owner? = some scene.owner.id) :
    (rules.plan (first :: others)).outgoing step = (scene.plan rules).outgoing step := by
  rw [Blueprint.outgoing_eq _ owned, linksOf_plan,
    linksOf_scenesPlan (nodup_owners rules (first :: others) first) member]
  rfl

/-- Nothing in a conversation leaves the start or the end. -/
theorem outgoing_conversationPlan {step : StepName} (free : step.owner? = none) :
    (rules.conversationPlan (first :: others) first).outgoing step = [] := by
  rw [Blueprint.outgoing, List.filter_eq_nil_iff]
  intro link member same
  rw [decide_eq_true_eq] at same
  rw [(rules.perm_conversationPlan (first :: others) first).links.mem_iff] at member
  obtain ⟨scene, _, inside⟩ := List.mem_flatMap.mp member
  have owned := Scene.owner_of_link link inside
  rw [same, free] at owned
  cases owned

theorem outgoing_start (rules : Rules) (first : Template) (others : List Template) :
    (rules.plan (first :: others)).outgoing .start = [⟨.start, .message first.id, none⟩] := by
  rw [Blueprint.outgoing, links_plan_cons, List.filter_cons_of_pos (by simp)]
  exact congrArg (List.cons _) (outgoing_conversationPlan rfl)

theorem outgoing_finish (rules : Rules) (first : Template) (others : List Template) :
    (rules.plan (first :: others)).outgoing .finish = [] := by
  rw [Blueprint.outgoing, links_plan_cons, List.filter_cons_of_neg (by simp)]
  exact outgoing_conversationPlan rfl

end Rules

theorem Graph.Shows.outgoing_eq {α : Type} {graph : Graph α} {plan : Blueprint}
    (drawn : graph.Shows plan) (step : StepName) :
    graph.outgoing step.text = (plan.outgoing step).map Link.edge := by
  rw [outgoing, drawn.edges, List.filter_map, Blueprint.outgoing]
  congr 1
  apply List.filter_congr
  intro link _
  by_cases same : link.source = step
  · simp [Link.edge, same]
  · have texts : link.source.text ≠ step.text := fun equal => same (StepName.text_injective equal)
    simp [Link.edge, same, texts]

end ReplyFlow
