import ReplyFlow.Proofs.Compile.Integrity

/-! How a conversation grows, link by link.

Every link either goes to the end, or back to a message that is drawn already, or it is a stem: it
leads to a step that is drawn for the first time there, after the one that it leaves.
-/

set_option autoImplicit false

namespace ReplyFlow

variable {rules : Rules} {index : List Template}

/-! ## Stems and links back -/

/-- The steps that a link may join. -/
inductive StepName.LeadsOn (first : Int) : StepName → StepName → Prop where
  | start : LeadsOn first .start (.message first)
  | condition {template place : Int} :
    LeadsOn first (.message template) (.condition template place)
  | delay {template place : Int} :
    LeadsOn first (.condition template place) (.delay template place)
  | message {template place target : Int} :
    LeadsOn first (.delay template place) (.message target)
  | continuation {template place : Int} :
    LeadsOn first (.delay template place) (.continuation template place)
  | finish {template place : Int} : LeadsOn first (.delay template place) .finish
  | closing {template : Int} : LeadsOn first (.message template) .finish

/-- The link from a delay to the mark of a branch that is cut. -/
def Ending.stems (owner : Int) (place : Nat) : Ending → List Link
  | cut _ => [⟨.delay owner place, .continuation owner place, none⟩]
  | _ => []

def Ending.backLinks (owner : Int) (place : Nat) : Ending → List Link
  | back target => [⟨.delay owner place, .message target, none⟩]
  | _ => []

namespace Branches

/-- The links that lead to a step which is drawn for the first time, in the order of these steps. -/
def stems (rules : Rules) (owner : Int) : Nat → Branches → List Link
  | _, done => []
  | place, stop response ending rest =>
    (rules.branchPlan owner place response).links ++ (ending.stems owner place
      ++ rest.stems rules owner (place + 1))
  | place, into response child inside rest =>
    (rules.branchPlan owner place response).links
      ++ (⟨.delay owner place, .message child.id, none⟩ :: inside.stems rules child.id 0
        ++ rest.stems rules owner (place + 1))

/-- The links that go back to a message which is there already. -/
def backLinks (owner : Int) : Nat → Branches → List Link
  | _, done => []
  | place, stop _ ending rest => ending.backLinks owner place ++ rest.backLinks owner (place + 1)
  | place, into _ child inside rest =>
    inside.backLinks child.id 0 ++ rest.backLinks owner (place + 1)

theorem map_backLinks (tree : Branches) (owner : Template) (place : Nat) :
    (tree.backLinks owner.id place).map (fun link => (link.source.text, link.target.text)) =
      tree.backEdges owner place := by
  induction tree generalizing owner place with
  | done => rfl
  | stop response ending rest ih =>
    cases ending with
    | back target => exact congrArg (List.cons _) (ih owner (place + 1))
    | finish | cut => exact ih owner (place + 1)
  | into response child inside rest insideIH restIH =>
    rw [backLinks, backEdges, List.map_append, insideIH child 0, restIH owner (place + 1)]

theorem ownSteps_closingPlan (tree : Branches) (owner : Int) :
    (tree.closingPlan owner).ownSteps = [] := by
  cases tree <;> rfl

theorem filter_links_closingPlan (tree : Branches) (owner : Int) :
    (tree.closingPlan owner).links.filter (·.target ≠ .finish) = [] := by
  cases tree <;> rfl

theorem ownSteps_stop (response : Response) (ending : Ending) (rest : Branches) (owner : Int)
    (place : Nat) :
    ((stop response ending rest).plan rules owner place).ownSteps =
      .condition owner place :: .delay owner place :: (ending.landing.mark owner place
        ++ (rest.plan rules owner (place + 1)).ownSteps) := by
  rw [plan, Blueprint.ownSteps_append, Blueprint.ownSteps_append]
  cases ending <;> rfl

theorem ownSteps_into (response : Response) (child : Template) (inside rest : Branches)
    (owner : Int) (place : Nat) :
    ((into response child inside rest).plan rules owner place).ownSteps =
      .condition owner place :: .delay owner place :: .message child.id ::
        ((inside.plan rules child.id 0).ownSteps
          ++ (rest.plan rules owner (place + 1)).ownSteps) := by
  simp only [plan, Blueprint.ownSteps_append, ownSteps_closingPlan, List.nil_append]
  rfl

/-- Every stem leads to a step of its own. -/
theorem map_target_stems (tree : Branches) (owner : Int) (place : Nat) :
    (tree.stems rules owner place).map Link.target = (tree.plan rules owner place).ownSteps := by
  induction tree generalizing owner place with
  | done => rfl
  | stop response ending rest ih =>
    rw [ownSteps_stop, ← ih, stems, List.map_append, List.map_append]
    cases ending <;> rfl
  | into response child inside rest insideIH restIH =>
    rw [ownSteps_into, ← insideIH, ← restIH, stems, List.map_append, List.map_append]
    rfl

theorem perm_links (tree : Branches) (owner : Int) (place : Nat) :
    ((tree.plan rules owner place).links.filter (·.target ≠ .finish)).Perm
      (tree.stems rules owner place ++ tree.backLinks owner place) := by
  induction tree generalizing owner place with
  | done => exact .refl _
  | stop response ending rest ih =>
    have branch : (rules.branchPlan owner place response).links.filter (·.target ≠ .finish) =
        (rules.branchPlan owner place response).links := rfl
    have landing : (ending.landing.plan owner place).links.filter (·.target ≠ .finish) =
        ending.stems owner place ++ ending.backLinks owner place := by
      cases ending <;> rfl
    rw [List.perm_iff_count]
    intro link
    have later := (ih owner (place + 1)).count_eq link
    simp only [plan, stems, backLinks, Blueprint.links_append, List.filter_append, branch, landing,
      List.count_append] at later ⊢
    omega
  | into response child inside rest insideIH restIH =>
    have branch : (rules.branchPlan owner place response).links.filter (·.target ≠ .finish) =
        (rules.branchPlan owner place response).links := rfl
    have message : (Blueprint.step (rules.messageSketch child)).links = [] := rfl
    have entry : (Blueprint.link (.delay owner place) (.message child.id) none).links.filter
      (·.target ≠ .finish) = [⟨.delay owner place, .message child.id, none⟩] := rfl
    rw [List.perm_iff_count]
    intro link
    have below := (insideIH child.id 0).count_eq link
    have later := (restIH owner (place + 1)).count_eq link
    simp only [plan, stems, backLinks, Blueprint.links_append, List.filter_append, branch, message,
      entry, filter_links_closingPlan, List.count_append, List.count_cons, List.count_nil,
      List.filter_nil] at below later ⊢
    omega

theorem sublist_of_branch {owner : Int} {place : Nat} {response : Response} :
    ∀ link ∈ (rules.branchPlan owner place response).links, [link.source, link.target].Sublist
      [.message owner, .condition owner place, .delay owner place] := by
  intro link member
  rcases List.mem_pair.mp member with rfl | rfl
  · exact List.sublist_append_left [_, _] _
  · exact List.sublist_append_right [_] _

theorem sublist_stop {response : Response} {ending : Ending} {rest : Branches} {owner : Int}
    {place : Nat} {front steps : List StepName}
    (later : steps.Sublist (front ++ (rest.plan rules owner (place + 1)).ownSteps)) :
    steps.Sublist (front ++ ((stop response ending rest).plan rules owner place).ownSteps) := by
  rw [ownSteps_stop]
  refine later.trans (List.Sublist.append_left ?_ _)
  exact (List.sublist_append_right _ _).cons _ |>.cons _

/-- A stem leads from a step to one that is drawn later. -/
theorem sublist_of_stem {tree : Branches} {owner : Int} {place : Nat} :
    ∀ link ∈ tree.stems rules owner place,
      [link.source, link.target].Sublist
        ([.message owner] ++ (tree.plan rules owner place).ownSteps) := by
  induction tree generalizing owner place with
  | done => exact fun link member => absurd member List.not_mem_nil
  | stop response ending rest ih =>
    intro link member
    rw [stems, List.mem_append, List.mem_append] at member
    rcases member with branch | mark | later
    · rw [ownSteps_stop]
      exact (sublist_of_branch link branch).trans (List.sublist_append_left [_, _, _] _)
    · cases ending with
      | finish | back => cases mark
      | cut target =>
        rw [List.mem_singleton.mp mark, ownSteps_stop]
        exact (List.sublist_append_left [_, _] _).cons _ |>.cons _
    · exact sublist_stop (ih link later)
  | into response child inside rest insideIH restIH =>
    intro link member
    rw [ownSteps_into]
    rw [stems, List.mem_append, List.mem_append, List.mem_cons] at member
    rcases member with branch | (rfl | below) | later
    · exact (sublist_of_branch link branch).trans (List.sublist_append_left [_, _, _] _)
    · exact (List.sublist_append_left [_, _] _).cons _ |>.cons _
    · refine (insideIH link below).trans (.cons _ (.cons _ (.cons _ ?_)))
      exact (List.sublist_append_left _ _).cons_cons _
    · refine (restIH link later).trans (List.Sublist.cons_cons _ ?_)
      exact (List.sublist_append_right _ _).cons _ |>.cons _ |>.cons _

theorem message_mem_ownSteps {tree : Branches} {owner : Int} {place : Nat} {id : Int}
    (entered : id ∈ tree.entered.map Template.id) :
    .message id ∈ (tree.plan rules owner place).ownSteps := by
  rw [← tree.messages_plan owner place, List.mem_filterMap] at entered
  obtain ⟨step, member, message⟩ := entered
  cases step with
  | message template =>
    cases message
    exact List.mem_filter.mpr ⟨member, rfl⟩
  | start | finish | condition | delay | continuation => cases message

end Branches

/-- A link goes back to a step that is drawn earlier; the steps in `front` are drawn before all
branches. -/
theorem Follows.sublist_of_backLink {depth : Nat} {branches : List Branch}
    {visited after : Visited} {tree : Branches}
    (follows : Follows rules index depth branches visited tree after) {front : List StepName}
    (drawn : ∀ id ∈ visited, StepName.message id ∈ front) {owner : Int} {place : Nat} :
    ∀ link ∈ tree.backLinks owner place, [link.target, link.source].Sublist
      (front ++ (tree.plan rules owner place).ownSteps) := by
  induction follows generalizing front owner place with
  | done => exact fun link member => absurd member List.not_mem_nil
  | finish _ ih => exact fun link member => Branches.sublist_stop (ih drawn link member)
  | cut _ _ ih => exact fun link member => Branches.sublist_stop (ih drawn link member)
  | @back _ _ child _ _ _ _ known _ ih =>
    intro link member
    rcases List.mem_append.mp member with here | later
    · rw [List.mem_singleton.mp here, Branches.ownSteps_stop]
      have message := List.singleton_sublist.mpr (drawn child.id known)
      exact message.append ((List.singleton_sublist.mpr List.mem_cons_self).cons _)
    · exact Branches.sublist_stop (ih drawn link later)
  | @into _ _ child _ visited between _ nested _ new inside rest insideIH restIH =>
    intro link member
    rw [Branches.ownSteps_into]
    -- the child's message is drawn before what is inside, and all of this before the rest
    rcases List.mem_append.mp member with below | later
    · have entered : ∀ id ∈ child.id :: visited,
          StepName.message id ∈ front ++ [.message child.id] := by
        intro id known
        rcases List.mem_cons.mp known with rfl | known
        · exact List.mem_append_right _ List.mem_cons_self
        · exact List.mem_append_left _ (drawn id known)
      have earlier := insideIH entered link below
      rw [List.append_assoc] at earlier
      refine earlier.trans (List.Sublist.append_left (.cons _ (.cons _ ?_)) _)
      exact (List.sublist_append_left _ _).cons_cons _
    · have entered : ∀ id ∈ between, StepName.message id ∈
          front ++ .message child.id :: (nested.plan rules child.id 0).ownSteps := by
        intro id known
        rcases inside.mem_after.mp known with below | known
        · exact List.mem_append_right _
            (List.mem_cons_of_mem _ (Branches.message_mem_ownSteps below))
        · rcases List.mem_cons.mp known with rfl | known
          · exact List.mem_append_right _ List.mem_cons_self
          · exact List.mem_append_left _ (drawn id known)
      have earlier := restIH entered link later
      rw [List.append_assoc] at earlier
      exact earlier.trans (List.Sublist.append_left (.cons _ (.cons _ (.refl _))) _)

/-! ## The links of a conversation -/

theorem StepName.ne_of_waits {step other : StepName}
    (waits : step.kind = .condition ∨ step.kind = .delay) (condition : other.kind ≠ .condition)
    (delay : other.kind ≠ .delay) : other ≠ step := by
  rintro rfl
  exact waits.elim condition delay

namespace Branches

theorem exists_of_backLink {tree : Branches} {owner : Int} {place : Nat} :
    ∀ link ∈ tree.backLinks owner place, ∃ template number target,
      link = ⟨.delay template number, .message target, none⟩ := by
  induction tree generalizing owner place with
  | done => exact fun link member => absurd member List.not_mem_nil
  | stop response ending rest ih =>
    intro link member
    rcases List.mem_append.mp member with here | later
    · cases ending with
      | finish | cut => cases here
      | back target => exact ⟨_, _, _, List.mem_singleton.mp here⟩
    · exact ih link later
  | into response child inside rest insideIH restIH =>
    intro link member
    rcases List.mem_append.mp member with below | later
    · exact insideIH link below
    · exact restIH link later

theorem leadsOn_closingPlan {tree : Branches} {first owner : Int} :
    ∀ link ∈ (tree.closingPlan owner).links,
      StepName.LeadsOn first link.source link.target := by
  intro link member
  cases tree with
  | done => exact List.mem_singleton.mp member ▸ .closing
  | stop | into => cases member

theorem leadsOn_plan {tree : Branches} {first owner : Int} {place : Nat} :
    ∀ link ∈ (tree.plan rules owner place).links,
      StepName.LeadsOn first link.source link.target := by
  have branch {owner : Int} {place : Nat} {response : Response} :
      ∀ link ∈ (rules.branchPlan owner place response).links,
        StepName.LeadsOn first link.source link.target := by
    intro link member
    rcases List.mem_pair.mp member with rfl | rfl
    · exact .condition
    · exact .delay
  induction tree generalizing owner place with
  | done => exact fun link member => absurd member List.not_mem_nil
  | stop response ending rest ih =>
    intro link member
    simp only [plan, Blueprint.links_append, List.mem_append] at member
    rcases member with here | landing | later
    · exact branch link here
    · rw [List.mem_singleton.mp landing]
      cases ending with
      | finish => exact .finish
      | back => exact .message
      | cut => exact .continuation
    · exact ih link later
  | into response child inside rest insideIH restIH =>
    intro link member
    simp only [plan, Blueprint.links_append, List.mem_append] at member
    rcases member with here | none | below | closing | entry | later
    · exact branch link here
    · cases none
    · exact insideIH link below
    · exact leadsOn_closingPlan link closing
    · exact List.mem_singleton.mp entry ▸ .message
    · exact restIH link later

theorem countP_source_closingPlan (tree : Branches) (owner : Int) {step : StepName}
    (waits : step.kind = .condition ∨ step.kind = .delay) :
    (tree.closingPlan owner).links.countP (·.source = step) = 0 := by
  have message : StepName.message owner ≠ step := StepName.ne_of_waits waits nofun nofun
  cases tree with
  | done => simp [closingPlan, message]
  | stop | into => rfl

/-- One link leaves every condition and every delay. -/
theorem countP_source (tree : Branches) (owner : Int) (place : Nat) {step : StepName}
    (waits : step.kind = .condition ∨ step.kind = .delay) :
    (tree.plan rules owner place).links.countP (·.source = step) =
      (tree.plan rules owner place).ownSteps.count step := by
  have message (id : Int) : StepName.message id ≠ step := StepName.ne_of_waits waits nofun nofun
  have mark (owner place : Int) : StepName.continuation owner place ≠ step :=
    StepName.ne_of_waits waits nofun nofun
  induction tree generalizing owner place with
  | done => rfl
  | stop response ending rest ih =>
    have landing : (ending.landing.mark owner place).count step = 0 := by
      cases ending <;> simp [Ending.landing, Landing.mark, mark]
    rw [ownSteps_stop, plan]
    simp [Rules.branchPlan, Landing.plan, List.countP_cons, List.count_cons, ih, message, landing]
  | into response child inside rest insideIH restIH =>
    have closing := inside.countP_source_closingPlan child.id waits
    rw [ownSteps_into, plan]
    simp only [Rules.branchPlan, Blueprint.step, Blueprint.link, Blueprint.links_append,
      List.cons_append, List.nil_append, List.countP_append, List.countP_cons, List.count_append,
      List.count_cons, decide_eq_true_eq, beq_iff_eq, insideIH, restIH, closing, message, if_false]
    omega

end Branches

/-- What the links of a blueprint do that do not go to the end: each stem leads to a new step, any
other link back to an earlier one. -/
structure Blueprint.Grows (plan : Blueprint) (root : StepName) (stems back : List Link) : Prop where
  links : (plan.links.filter (·.target ≠ .finish)).Perm (stems ++ back)
  steps : plan.ownSteps = root :: stems.map Link.target
  forward : ∀ link ∈ stems, [link.source, link.target].Sublist plan.ownSteps
  backward : ∀ link ∈ back, [link.target, link.source].Sublist plan.ownSteps

namespace Rules

variable {first : Template} {others : List Template}

def stems (rules : Rules) (index : List Template) (first : Template) : List Link :=
  ⟨.start, .message first.id, none⟩ :: (rules.expand index first).branches.stems rules first.id 0

def backLinks (rules : Rules) (index : List Template) (first : Template) : List Link :=
  (rules.expand index first).branches.backLinks first.id 0

theorem ownSteps_conversationPlan (rules : Rules) (index : List Template) (first : Template) :
    (rules.conversationPlan index first).ownSteps = .message first.id
      :: ((rules.expand index first).branches.plan rules first.id 0).ownSteps := by
  rw [conversationPlan, messagePlan, Blueprint.ownSteps_append, Blueprint.ownSteps_append,
    Branches.ownSteps_closingPlan, List.append_nil]
  rfl

theorem links_conversationPlan (rules : Rules) (index : List Template) (first : Template) :
    (rules.conversationPlan index first).links =
      ((rules.expand index first).branches.plan rules first.id 0).links
        ++ ((rules.expand index first).branches.closingPlan first.id).links := rfl

theorem grows_plan (rules : Rules) (first : Template) (others : List Template) :
    (rules.plan (first :: others)).Grows .start (rules.stems (first :: others) first)
      (rules.backLinks (first :: others) first) := by
  let tree := (rules.expand (first :: others) first).branches
  have steps : (rules.plan (first :: others)).ownSteps =
      .start :: ([.message first.id] ++ (tree.plan rules first.id 0).ownSteps) := by
    rw [ownSteps_plan_cons, ownSteps_conversationPlan]
    rfl
  obtain ⟨after, follows⟩ := follows_expand rules (first :: others) first
  have entered : ∀ id ∈ [first.id], StepName.message id ∈ [StepName.message first.id] :=
    fun id known => List.mem_singleton.mp known ▸ List.mem_cons_self
  exact {
    links := by
      rw [links_plan_cons, List.filter_cons_of_pos rfl, links_conversationPlan, List.filter_append,
        Branches.filter_links_closingPlan, List.append_nil]
      exact (tree.perm_links first.id 0).cons _
    steps := by
      rw [steps, stems, List.map_cons, Branches.map_target_stems]
      rfl
    forward := by
      intro link member
      rw [steps]
      rcases List.mem_cons.mp member with rfl | below
      · exact List.sublist_append_left [_, _] _
      · exact (Branches.sublist_of_stem link below).cons _
    backward := by
      intro link member
      rw [steps]
      exact (follows.sublist_of_backLink entered link member).cons _ }

theorem leadsOn_plan (rules : Rules) (first : Template) (others : List Template) :
    ∀ link ∈ (rules.plan (first :: others)).links,
      StepName.LeadsOn first.id link.source link.target := by
  intro link member
  rw [links_plan_cons, links_conversationPlan, List.mem_cons, List.mem_append] at member
  rcases member with rfl | below | closing
  · exact .start
  · exact Branches.leadsOn_plan link below
  · exact Branches.leadsOn_closingPlan link closing

end Rules

end ReplyFlow
