import ReplyFlow.Proofs.Compile.Shape

/-! The links of a blueprint: they join its steps, and lead from a message to all that follows it. -/

set_option autoImplicit false

namespace ReplyFlow

variable {rules : Rules}

theorem Turn.links_plan (owner : Int) (index : Nat) (turn : Turn) :
    (turn.plan rules owner index).links =
      [⟨.message owner, .condition owner index, some turn.response.key⟩,
        ⟨.condition owner index, .delay owner index, none⟩,
        ⟨.delay owner index, turn.landing.step owner index, none⟩] := rfl

/-- A branch is linked to steps of its own, to the message that offers it and to one it leads to. -/
theorem Turn.joined {owner : Int} {index : Nat} {turn : Turn} {link : Link}
    (member : link ∈ (turn.plan rules owner index).links) :
    (link.source ∈ (turn.plan rules owner index).steps ∨ link.source = .message owner) ∧
      (link.target ∈ (turn.plan rules owner index).steps ∨
        ∃ id, turn.landing = .message id ∧ link.target = .message id) := by
  have steps : (turn.plan rules owner index).steps =
    .condition owner index :: .delay owner index
      :: (turn.landing.sketches owner index).map Sketch.step := rfl
  rw [links_plan] at member
  rw [steps]
  simp only [List.mem_cons, List.not_mem_nil, or_false] at member
  rcases member with rfl | rfl | rfl
  · exact ⟨.inr rfl, .inl List.mem_cons_self⟩
  · exact ⟨.inl List.mem_cons_self, .inl (List.mem_cons_of_mem _ List.mem_cons_self)⟩
  · refine ⟨.inl (List.mem_cons_of_mem _ List.mem_cons_self), ?_⟩
    cases landing : turn.landing with
    | message id => exact .inr ⟨id, rfl, rfl⟩
    | finish | continuation =>
      exact .inl (List.mem_cons_of_mem _ (List.mem_cons_of_mem _ List.mem_cons_self))

theorem Rules.joined_turnsPlan {owner : Int} {index : Nat} {turns : List Turn} {link : Link}
    (member : link ∈ (rules.turnsPlan owner index turns).links) :
    (link.source ∈ (rules.turnsPlan owner index turns).steps ∨ link.source = .message owner) ∧
      (link.target ∈ (rules.turnsPlan owner index turns).steps ∨
        ∃ turn ∈ turns, ∃ id, turn.landing = .message id ∧ link.target = .message id) := by
  obtain ⟨turn, place, offered, inside⟩ := mem_links_turnsPlan.mp member
  have steps : ∀ step ∈ (turn.plan rules owner place).steps,
      step ∈ (rules.turnsPlan owner index turns).steps := by
    rw [Blueprint.steps, Blueprint.steps, sketches_turnsPlan, List.map_flatMap]
    exact fun step own => List.mem_flatMap.mpr ⟨_, offered, own⟩
  obtain ⟨source, target⟩ := Turn.joined inside
  exact ⟨source.imp_left (steps _), target.imp (steps _) fun leads =>
    ⟨turn, List.fst_mem_of_mem_zipIdx offered, leads⟩⟩

theorem Scene.joined {scene : Scene} {link : Link} (member : link ∈ (scene.plan rules).links) :
    link.source ∈ (scene.plan rules).steps ∧
      (link.target ∈ (scene.plan rules).steps ∨
        ∃ turn ∈ scene.turns, ∃ id, turn.landing = .message id ∧ link.target = .message id) := by
  have steps : (scene.plan rules).steps = .message scene.owner.id
      :: ((rules.turnsPlan scene.owner.id 0 scene.turns).steps ++ scene.closingPlan.steps) := by
    rw [plan, Blueprint.steps_append, Blueprint.steps_append]
    rfl
  simp only [plan, Blueprint.links_append, List.mem_append] at member
  rw [steps]
  simp only [List.mem_cons, List.mem_append]
  rcases member with none | inside | closing
  · cases none
  · obtain ⟨source, target⟩ := Rules.joined_turnsPlan inside
    exact ⟨source.symm.imp_right .inl, target.imp_left fun present => .inr (.inl present)⟩
  · rw [closingPlan] at closing ⊢
    split at closing
    · rw [List.mem_singleton.mp closing]
      exact ⟨.inl rfl, .inl (.inr (.inr List.mem_cons_self))⟩
    · cases closing

/-! ## Following the links -/

/-- The links of a blueprint lead from what has a property to what has it. -/
def Blueprint.Keeps (plan : Blueprint) (Reached : StepName → Prop) : Prop :=
  ∀ link ∈ plan.links, Reached link.source → Reached link.target

section

variable {Reached : StepName → Prop}

@[simp] theorem Blueprint.keeps_append {first second : Blueprint} :
    (first ++ second).Keeps Reached ↔ first.Keeps Reached ∧ second.Keeps Reached := by
  simp [Keeps, or_imp, forall_and]

theorem Rules.reached_branchPlan {owner : Int} {index : Nat} {response : Response}
    (keeps : (rules.branchPlan owner index response).Keeps Reached)
    (entry : Reached (.message owner)) :
    Reached (.condition owner index) ∧ Reached (.delay owner index) := by
  have condition : Reached (.condition owner index) := keeps _ List.mem_cons_self entry
  exact ⟨condition, keeps _ (List.mem_cons_of_mem _ List.mem_cons_self) condition⟩

theorem Landing.reached_plan {owner : Int} {index : Nat} {landing : Landing}
    (keeps : (landing.plan owner index).Keeps Reached) (delay : Reached (.delay owner index)) :
    ∀ step ∈ (landing.plan owner index).steps, Reached step := by
  have target : Reached (landing.step owner index) := keeps _ List.mem_cons_self delay
  intro step member
  cases landing with
  | message id => cases member
  | finish | continuation => exact List.mem_singleton.mp member ▸ target

theorem Branches.reached_closingPlan {owner : Int} {branches : Branches}
    (keeps : (branches.closingPlan owner).Keeps Reached) (entry : Reached (.message owner)) :
    ∀ step ∈ (branches.closingPlan owner).steps, Reached step := by
  intro step member
  cases branches with
  | done => exact List.mem_singleton.mp member ▸ keeps _ List.mem_cons_self entry
  | stop | into => cases member

-- `Reached` is carried down the tree: from a message over its conditions and delays to the
-- messages that are entered. The message of a branch that goes back is not among the steps.
theorem Branches.reached_plan {tree : Branches} {owner : Int} {index : Nat}
    (keeps : (tree.plan rules owner index).Keeps Reached) (entry : Reached (.message owner)) :
    ∀ step ∈ (tree.plan rules owner index).steps, Reached step := by
  induction tree generalizing owner index with
  | done =>
    intro step member
    cases member
  | stop response ending rest ih =>
    simp only [plan, Blueprint.keeps_append] at keeps
    obtain ⟨branch, landing, tail⟩ := keeps
    obtain ⟨condition, delay⟩ := Rules.reached_branchPlan branch entry
    intro step member
    simp only [plan, Blueprint.steps_append, List.mem_append] at member
    rcases member with here | there | later
    · rcases List.mem_cons.mp here with rfl | here
      · exact condition
      · exact List.mem_singleton.mp here ▸ delay
    · exact Landing.reached_plan landing delay step there
    · exact ih tail entry step later
  | into response child inside rest insideIH restIH =>
    simp only [plan, Blueprint.keeps_append] at keeps
    obtain ⟨branch, _, nested, closing, link, tail⟩ := keeps
    obtain ⟨condition, delay⟩ := Rules.reached_branchPlan branch entry
    have message : Reached (.message child.id) := link _ List.mem_cons_self delay
    intro step member
    simp only [plan, Blueprint.steps_append, List.mem_append] at member
    rcases member with here | entered | inner | closed | linked | later
    · rcases List.mem_cons.mp here with rfl | here
      · exact condition
      · exact List.mem_singleton.mp here ▸ delay
    · exact List.mem_singleton.mp entered ▸ message
    · exact insideIH nested message step inner
    · exact reached_closingPlan closing message step closed
    · cases linked
    · exact restIH tail entry step later

end

end ReplyFlow
