import ReplyFlow.Proofs.Compile.Coverage

/-! Where branches are cut.

A branch is cut only before a template that has no message yet. A later branch may still enter that
template: then the graph holds a mark for it as well as its message.
-/

set_option autoImplicit false

namespace ReplyFlow

/-- The template that a mark stands for. -/
def Payload.mark? : Payload → Option Int
  | .marker _ true template => template
  | _ => none

/-- No mark for a template comes after its message. -/
def Sketch.Forbids (earlier later : Sketch) : Prop :=
  ∀ target, earlier.step.message? = some target → later.payload.mark? ≠ some target

variable {rules : Rules} {index : List Template}

theorem Sketch.forbids_of_silent {earlier later : Sketch} (silent : earlier.step.message? = none) :
    earlier.Forbids later := by
  intro target message
  rw [silent] at message
  cases message

theorem Sketch.forbids_of_unmarked {earlier later : Sketch} (unmarked : later.payload.mark? = none) :
    earlier.Forbids later := by
  intro target _ mark
  rw [unmarked] at mark
  cases mark

-- What is not a message may stand before anything, so only messages need an argument below.
theorem Sketch.pairwise_append {front rest : List Sketch}
    (silent : ∀ sketch ∈ front, sketch.step.message? = none) (later : rest.Pairwise Forbids) :
    (front ++ rest).Pairwise Forbids := by
  rw [List.pairwise_append]
  refine ⟨?_, later, fun earlier member _ _ => forbids_of_silent (silent earlier member)⟩
  exact List.pairwise_of_forall_mem_list fun earlier member _ _ =>
    forbids_of_silent (silent earlier member)

theorem Rules.silent_branchPlan {owner : Int} {place : Nat} {response : Response} :
    ∀ sketch ∈ (rules.branchPlan owner place response).sketches, sketch.step.message? = none := by
  intro sketch member
  rcases List.mem_pair.mp member with rfl | rfl <;> rfl

theorem Rules.unmarked_branchPlan {owner : Int} {place : Nat} {response : Response} :
    ∀ sketch ∈ (rules.branchPlan owner place response).sketches, sketch.payload.mark? = none := by
  obtain ⟨label, duration, unit, pause⟩ := rules.exists_pause
  intro sketch member
  rcases List.mem_pair.mp member with rfl | rfl
  · rfl
  · rw [delaySketch, pause]
    rfl

theorem Landing.silent_plan {owner : Int} {place : Nat} {landing : Landing} :
    ∀ sketch ∈ (landing.plan owner place).sketches, sketch.step.message? = none := by
  intro sketch member
  cases landing with
  | message => cases member
  | finish | continuation => exact List.mem_singleton.mp member ▸ rfl

theorem Branches.silent_closingPlan {owner : Int} {tree : Branches} :
    ∀ sketch ∈ (tree.closingPlan owner).sketches,
      sketch.step.message? = none ∧ sketch.payload.mark? = none := by
  intro sketch member
  cases tree with
  | done => exact List.mem_singleton.mp member ▸ ⟨rfl, rfl⟩
  | stop | into => cases member

/-- The marks among some sketches stand for templates that have not been visited. -/
def MarksNew (visited : Visited) (sketches : List Sketch) : Prop :=
  ∀ sketch ∈ sketches, ∀ target, sketch.payload.mark? = some target → target ∉ visited

theorem marksNew_append {visited : Visited} {front rest : List Sketch} :
    MarksNew visited (front ++ rest) ↔ MarksNew visited front ∧ MarksNew visited rest := by
  simp [MarksNew, or_imp, forall_and]

theorem marksNew_of_unmarked {visited : Visited} {sketches : List Sketch}
    (unmarked : ∀ sketch ∈ sketches, sketch.payload.mark? = none) : MarksNew visited sketches := by
  intro sketch member target mark
  rw [unmarked sketch member] at mark
  cases mark

theorem MarksNew.mono {visited more : Visited} {sketches : List Sketch}
    (marks : MarksNew more sketches) (subset : visited ⊆ more) : MarksNew visited sketches :=
  fun sketch member target mark known => marks sketch member target mark (subset known)

theorem Branches.marksNew_stop {visited : Visited} {response : Response} {ending : Ending}
    {rest : Branches} {owner : Int} {place : Nat}
    (new : ∀ target, ending = .cut target → target ∉ visited)
    (later : MarksNew visited (rest.plan rules owner (place + 1)).sketches) :
    MarksNew visited ((Branches.stop response ending rest).plan rules owner place).sketches := by
  rw [plan, Blueprint.sketches_append, Blueprint.sketches_append, marksNew_append, marksNew_append]
  refine ⟨marksNew_of_unmarked Rules.unmarked_branchPlan, ?_, later⟩
  cases ending with
  | finish =>
    apply marksNew_of_unmarked
    intro sketch member
    exact List.mem_singleton.mp member ▸ rfl
  | back => exact fun sketch member => absurd member List.not_mem_nil
  | cut target =>
    intro sketch member other mark
    rw [List.mem_singleton.mp member] at mark
    cases mark
    exact new target rfl

theorem Rules.marksNew_messagePlan {visited : Visited} {template : Template} {tree : Branches}
    (inside : MarksNew visited (tree.plan rules template.id 0).sketches) :
    MarksNew visited (rules.messagePlan template tree).sketches := by
  rw [messagePlan, Blueprint.sketches_append, Blueprint.sketches_append, marksNew_append,
    marksNew_append]
  refine ⟨marksNew_of_unmarked fun sketch member => ?_, inside,
    marksNew_of_unmarked fun sketch member => (Branches.silent_closingPlan sketch member).2⟩
  exact List.mem_singleton.mp member ▸ rfl

theorem Branches.sketches_into (response : Response) (child : Template) (inside rest : Branches)
    (owner : Int) (place : Nat) :
    ((Branches.into response child inside rest).plan rules owner place).sketches =
      (rules.branchPlan owner place response).sketches
        ++ ((rules.messagePlan child inside).sketches
          ++ (rest.plan rules owner (place + 1)).sketches) := by
  simp [plan, Rules.messagePlan, Blueprint.link]

theorem Branches.marksNew_into {visited : Visited} {response : Response} {child : Template}
    {inside rest : Branches} {owner : Int} {place : Nat}
    (nested : MarksNew visited (inside.plan rules child.id 0).sketches)
    (later : MarksNew visited (rest.plan rules owner (place + 1)).sketches) :
    MarksNew visited ((Branches.into response child inside rest).plan rules owner place).sketches := by
  rw [sketches_into, marksNew_append, marksNew_append]
  exact ⟨marksNew_of_unmarked Rules.unmarked_branchPlan, Rules.marksNew_messagePlan nested, later⟩

/-- Where nothing is cut there are no marks. -/
theorem Branches.marksNew_whole {tree : Branches} {template : Template}
    (whole : tree.cuts template = []) (visited : Visited) (owner : Int) (place : Nat) :
    MarksNew visited (tree.plan rules owner place).sketches := by
  induction tree generalizing template owner place with
  | done => exact fun sketch member => absurd member List.not_mem_nil
  | stop response ending rest ih =>
    cases ending with
    | cut => cases whole
    | finish | back => exact marksNew_stop nofun (ih whole owner (place + 1))
  | into response child inside rest insideIH restIH =>
    rw [cuts, List.append_eq_nil_iff] at whole
    exact marksNew_into (insideIH whole.1 child.id 0) (restIH whole.2 owner (place + 1))

theorem Branches.pairwise_stop {response : Response} {ending : Ending} {rest : Branches}
    {owner : Int} {place : Nat}
    (later : (rest.plan rules owner (place + 1)).sketches.Pairwise Sketch.Forbids) :
    ((Branches.stop response ending rest).plan rules owner place).sketches.Pairwise
      Sketch.Forbids := by
  rw [plan, Blueprint.sketches_append, Blueprint.sketches_append]
  apply Sketch.pairwise_append Rules.silent_branchPlan
  exact Sketch.pairwise_append Landing.silent_plan later

namespace Follows

variable {depth : Nat} {branches : List Branch} {visited after : Visited} {tree : Branches}

/-- A branch is cut only before a template that has not been visited. -/
theorem marksNew_plan (follows : Follows rules index depth branches visited tree after)
    (owner : Int) (place : Nat) : MarksNew visited (tree.plan rules owner place).sketches := by
  induction follows generalizing owner place with
  | done => exact fun sketch member => absurd member List.not_mem_nil
  | finish _ ih => exact Branches.marksNew_stop nofun (ih owner (place + 1))
  | back _ _ ih => exact Branches.marksNew_stop nofun (ih owner (place + 1))
  | cut new _ ih =>
    refine Branches.marksNew_stop (fun target same => ?_) (ih owner (place + 1))
    cases same
    exact new
  | @into _ _ child _ _ _ _ _ _ new inside _ insideIH restIH =>
    have below := (insideIH child.id 0).mono (List.subset_cons_self _ _)
    have beside := (restIH owner (place + 1)).mono
      (List.Subset.trans (List.subset_cons_self _ _) inside.visited_subset)
    exact Branches.marksNew_into below beside

end Follows

theorem Rules.pairwise_messagePlan {template : Template} {tree : Branches} {visited : Visited}
    (marks : MarksNew (template.id :: visited) (tree.plan rules template.id 0).sketches)
    (inside : (tree.plan rules template.id 0).sketches.Pairwise Sketch.Forbids) :
    (rules.messagePlan template tree).sketches.Pairwise Sketch.Forbids := by
  have closing : ∀ sketch ∈ (tree.closingPlan template.id).sketches,
      sketch.payload.mark? = none := fun sketch member => (Branches.silent_closingPlan sketch member).2
  have following : ((tree.plan rules template.id 0).sketches
      ++ (tree.closingPlan template.id).sketches).Pairwise Sketch.Forbids := by
    rw [List.pairwise_append]
    refine ⟨inside, ?_, fun _ _ later member => Sketch.forbids_of_unmarked (closing later member)⟩
    exact List.pairwise_of_forall_mem_list fun _ _ later member =>
      Sketch.forbids_of_unmarked (closing later member)
  have message : ∀ later ∈ (tree.plan rules template.id 0).sketches
      ++ (tree.closingPlan template.id).sketches, (rules.messageSketch template).Forbids later := by
    intro later member target own mark
    cases own
    rcases List.mem_append.mp member with inner | closed
    · exact marks later inner template.id mark List.mem_cons_self
    · rw [closing later closed] at mark
      cases mark
  exact List.pairwise_cons.mpr ⟨message, following⟩

/-- Once a message is drawn, no branch is cut before its template. -/
theorem Follows.pairwise_plan {depth : Nat} {branches : List Branch} {visited after : Visited}
    {tree : Branches} (follows : Follows rules index depth branches visited tree after)
    (owner : Int) (place : Nat) :
    (tree.plan rules owner place).sketches.Pairwise Sketch.Forbids := by
  induction follows generalizing owner place with
  | done => exact .nil
  | finish _ ih => exact Branches.pairwise_stop (ih owner (place + 1))
  | back _ _ ih => exact Branches.pairwise_stop (ih owner (place + 1))
  | cut _ _ ih => exact Branches.pairwise_stop (ih owner (place + 1))
  | @into _ response child _ _ between _ nested others _ inside rest insideIH restIH =>
    rw [Branches.sketches_into]
    apply Sketch.pairwise_append Rules.silent_branchPlan
    rw [List.pairwise_append]
    refine ⟨Rules.pairwise_messagePlan (inside.marksNew_plan child.id 0) (insideIH child.id 0),
      restIH owner (place + 1), fun earlier before later member target message mark => ?_⟩
    -- whatever has a message by now has been visited
    have entered : target ∈ (rules.messagePlan child nested).steps.filterMap StepName.message? :=
      List.mem_filterMap.mpr ⟨earlier.step, List.mem_map_of_mem before, message⟩
    rw [Rules.messages_messagePlan, List.mem_cons] at entered
    apply rest.marksNew_plan owner (place + 1) later member target mark
    rcases entered with rfl | entered
    · exact inside.visited_subset List.mem_cons_self
    · exact inside.mem_after.mpr (.inl entered)

/-! ## Marks in the graph -/

theorem Rules.pairwise_plan (rules : Rules) (index : List Template) :
    (rules.plan index).sketches.Pairwise Sketch.Forbids := by
  have start : ∀ sketch ∈ [Sketch.start], sketch.step.message? = none := by decide
  cases index with
  | nil => exact Sketch.pairwise_append start (List.pairwise_singleton _ Sketch.finish)
  | cons first others =>
    obtain ⟨after, follows⟩ := follows_expand rules (first :: others) first
    have conversation := pairwise_messagePlan (follows.marksNew_plan first.id 0)
      (follows.pairwise_plan first.id 0)
    have closed : ((rules.conversationPlan (first :: others) first).sketches
        ++ [Sketch.finish]).Pairwise Sketch.Forbids := by
      rw [List.pairwise_append]
      refine ⟨conversation, List.pairwise_singleton _ _, fun _ _ later member => ?_⟩
      rw [List.mem_singleton.mp member]
      exact Sketch.forbids_of_unmarked rfl
    exact Sketch.pairwise_append start closed

def Node.mark? {α : Type} (node : Node α) : Option Int :=
  node.payload.mark?

/-- A mark is not a message. -/
theorem Node.templateId?_ne_of_mark {α : Type} (node : Node α) (target : Int)
    (mark : node.mark? = some target) : node.templateId? ≠ some target := by
  obtain ⟨_, _, _, payload, _⟩ := node
  cases payload with
  | marker => exact nofun
  | message | condition | delay => cases mark

namespace Graph

variable {α : Type} {graph : Graph α}

/-- Marks stand only for templates that have no message. -/
def MarksLeftOut (graph : Graph α) : Prop :=
  ∀ node ∈ graph.nodes, ∀ target ∈ node.mark?, target ∉ graph.messageTemplates

instance (graph : Graph α) : Decidable graph.MarksLeftOut :=
  inferInstanceAs (Decidable (∀ node ∈ graph.nodes, ∀ target ∈ node.mark?,
    target ∉ graph.messageTemplates))

/-- A node does not come after the message of the template that it is a mark for. -/
theorem Shows.pairwise_mark (drawn : graph.Shows (rules.plan index)) :
    graph.nodes.Pairwise fun earlier later =>
      ∀ target, earlier.templateId? = some target → later.mark? ≠ some target := by
  have agrees := (rules.sound_plan index).agrees
  have settled := (rules.pairwise_plan index).sublist (settle_sublist false _)
  have contents : (graph.nodes.map Node.content).Pairwise fun earlier later =>
      ∀ target, earlier.message? = some target → later.payload.mark? ≠ some target := by
    rw [drawn.contents, List.pairwise_map]
    refine settled.imp_of_mem fun {earlier later} member _ forbids target message => ?_
    have known := agrees earlier ((settle_sublist false _).subset member)
    rw [known.message] at message
    exact forbids target message
  rw [List.pairwise_map] at contents
  refine contents.imp fun {earlier later} forbids target message => ?_
  rw [← earlier.message?_content] at message
  exact forbids target message

/-- A drawing has a mark only where its blueprint has one. -/
theorem Shows.unmarked {plan : Blueprint} (drawn : graph.Shows plan)
    (none : ∀ visited, MarksNew visited plan.sketches) :
    ∀ node ∈ graph.nodes, ∀ target, node.mark? ≠ some target := by
  intro node member target mark
  obtain ⟨sketch, present, content⟩ := drawn.exists_sketch member
  have payload : node.payload = sketch.payload := congrArg NodeContent.payload content
  rw [Node.mark?, payload] at mark
  have known := (settle_sublist false _).subset present
  -- a mark for this very template is new to whoever has visited it
  exact none [target] sketch known target mark List.mem_cons_self

/-- Every mark stands for a template that has no message exactly if none of these messages comes
after the mark. -/
theorem marksLeftOut_iff (merged : graph.nodes.Pairwise fun earlier later =>
      ∀ target, earlier.templateId? = some target → later.mark? ≠ some target) :
    graph.MarksLeftOut ↔ graph.nodes.Pairwise fun earlier later =>
      ∀ target, earlier.mark? = some target → later.templateId? ≠ some target := by
  constructor
  · intro leftOut
    refine List.pairwise_of_forall_mem_list fun earlier before later after target mark message => ?_
    exact leftOut earlier before target mark (mem_messageTemplates.mpr ⟨later, after, message⟩)
  · intro none node member target mark known
    obtain ⟨other, present, message⟩ := mem_messageTemplates.mp known
    have flipped : graph.nodes.Pairwise fun earlier later =>
        ∀ target, later.mark? = some target → earlier.templateId? ≠ some target :=
      merged.imp fun both target mark message => both target message mark
    -- whichever of the two nodes comes first, one of the conditions excludes the other
    exact List.Pairwise.forall_of_forall_of_flip (fun node _ => node.templateId?_ne_of_mark)
      none flipped member present target mark message

end Graph

namespace Compiler

variable {α : Type} [Coordinate α]

theorem marksNew_of_truncated {compiler : Compiler α} {templates : List Template}
    {compilation : Compilation α} (compiled : compiler.compile templates = .ok compilation)
    (whole : compilation.report.truncated = []) (visited : Visited) :
    MarksNew visited
      (compiler.rules.plan (compiler.rules.select templates).templates).sketches := by
  have outer (sketch : Sketch) (unmarked : sketch.payload.mark? = none) :
      MarksNew visited [sketch] :=
    marksNew_of_unmarked fun other member => List.mem_singleton.mp member ▸ unmarked
  cases selected : (compiler.rules.select templates).templates with
  | nil => exact marksNew_append.mpr ⟨outer .start rfl, outer .finish rfl⟩
  | cons first others =>
    rw [truncated_eq compiled selected] at whole
    rw [Rules.sketches_plan_cons, ← List.singleton_append, marksNew_append, marksNew_append]
    refine ⟨outer .start rfl, ?_, outer .finish rfl⟩
    exact Rules.marksNew_messagePlan (Branches.marksNew_whole whole visited first.id 0)

/-- A branch is cut only before a template without a message; a message that comes later, by another
branch, is all that can make a mark for a template with a message. Without a cut there is no mark at
all, and there is none where the depth is as great as there are other templates. -/
theorem compile_marks {compiler : Compiler α} {templates : List Template}
    {compilation : Compilation α} (compiled : compiler.compile templates = .ok compilation) :
    (compilation.graph.nodes.Pairwise fun earlier later =>
      ∀ target, earlier.templateId? = some target → later.mark? ≠ some target) ∧
    (compilation.graph.MarksLeftOut ↔ compilation.graph.nodes.Pairwise fun earlier later =>
      ∀ target, earlier.mark? = some target → later.templateId? ≠ some target) ∧
    (compilation.report.truncated = [] → compilation.graph.MarksLeftOut) ∧
    ((compiler.rules.select templates).templates.length ≤ compiler.rules.maxDepth + 1 →
      compilation.graph.MarksLeftOut) := by
  have drawn := shows_plan compiled
  have leftOut : compilation.report.truncated = [] → compilation.graph.MarksLeftOut := by
    intro whole node member target mark
    exact absurd mark (drawn.unmarked (marksNew_of_truncated compiled whole) node member target)
  exact ⟨drawn.pairwise_mark, Graph.marksLeftOut_iff drawn.pairwise_mark, leftOut,
    fun enough => leftOut (truncated_eq_nil compiled enough)⟩

theorem compile_marks_detour :
    ∃ compilation, Samples.shallow.compile Samples.detour = .ok compilation ∧
      (compilation.graph.nodes.Pairwise fun earlier later =>
        ∀ target, earlier.templateId? = some target → later.mark? ≠ some target) ∧
      (compilation.graph.MarksLeftOut ↔ compilation.graph.nodes.Pairwise fun earlier later =>
        ∀ target, earlier.mark? = some target → later.templateId? ≠ some target) ∧
      (compilation.report.truncated = [] → compilation.graph.MarksLeftOut) ∧
      ((Samples.shallow.rules.select Samples.detour).templates.length ≤
          Samples.shallow.rules.maxDepth + 1 → compilation.graph.MarksLeftOut) := by
  obtain ⟨compilation, compiled⟩ := Samples.exists_compile_detour
  exact ⟨compilation, compiled, compile_marks compiled⟩

/-- The branch of the second message is cut before the third one, which the first one then leads to
directly. -/
theorem not_marksLeftOut_detour :
    ∃ compilation, Samples.shallow.compile Samples.detour = .ok compilation ∧
      ¬ compilation.graph.MarksLeftOut := by
  obtain ⟨compilation, compiled⟩ := Samples.exists_compile_detour
  have broken : (Samples.shallow.compile Samples.detour).toOption.any
      (fun compilation => !decide compilation.graph.MarksLeftOut) := by decide +kernel
  rw [compiled] at broken
  exact ⟨compilation, compiled, by simpa [Except.toOption] using broken⟩

end Compiler

end ReplyFlow
