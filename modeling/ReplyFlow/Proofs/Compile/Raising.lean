import ReplyFlow.Proofs.Compile.Accounting

/-! What a greater depth does to a conversation.

A template is followed where it is reached first, at whatever depth that is. With more levels it may
be reached first by a longer way, and then fewer levels are left below it: what follows it can be
lost although the depth was raised.
-/

set_option autoImplicit false

namespace ReplyFlow

variable {rules : Rules} {index : List Template}

/-! ## Along the messages of a conversation -/

/-- What holds of the messages that a conversation starts with, and passes on along its branches,
holds of all its messages. -/
theorem Branches.holds_scenes {Holds : Int → Prop} {tree : Branches}
    (own : ∀ turn ∈ tree.turns, ∀ id, turn.landing = .message id → Holds id)
    (below : ∀ scene ∈ tree.scenes, Holds scene.owner.id →
      ∀ turn ∈ scene.turns, ∀ id, turn.landing = .message id → Holds id) :
    ∀ scene ∈ tree.scenes, Holds scene.owner.id := by
  induction tree with
  | done => exact fun scene member => absurd member List.not_mem_nil
  | stop response ending rest ih => exact ih (List.forall_mem_of_forall_mem_cons own) below
  | into response child inside rest insideIH restIH =>
    have entered : Holds child.id := own _ List.mem_cons_self child.id rfl
    rw [scenes, List.cons_append, List.forall_mem_cons, List.forall_mem_append] at below
    obtain ⟨here, inner, later⟩ := below
    have inner := insideIH (here entered) inner
    have later := restIH (List.forall_mem_of_forall_mem_cons own) later
    exact List.forall_mem_cons.mpr ⟨entered, List.forall_mem_append.mpr ⟨inner, later⟩⟩

theorem Rules.holds_scenes {first : Template} (Holds : Int → Prop) (entry : Holds first.id)
    (step : ∀ scene ∈ (rules.expand index first).scenes, Holds scene.owner.id →
      ∀ turn ∈ scene.turns, ∀ id, turn.landing = .message id → Holds id) :
    ∀ scene ∈ (rules.expand index first).scenes, Holds scene.owner.id := by
  obtain ⟨own, below⟩ := List.forall_mem_cons.mp step
  exact List.forall_mem_cons.mpr ⟨entry, Branches.holds_scenes (own entry) below⟩

/-- With a level left no branch is cut. -/
theorem Follows.landing_ne_continuation {depth : Nat} {branches : List Branch}
    {visited after : Visited} {tree : Branches}
    (follows : Follows rules index (depth + 1) branches visited tree after) :
    ∀ turn ∈ tree.turns, ∀ id, turn.landing ≠ .continuation id := by
  generalize level : depth + 1 = levels at follows
  induction follows with
  | done => exact fun turn member => absurd member List.not_mem_nil
  | finish _ ih => exact List.forall_mem_cons.mpr ⟨nofun, ih level⟩
  | back _ _ ih => exact List.forall_mem_cons.mpr ⟨nofun, ih level⟩
  | cut => cases level
  | into _ _ _ _ ih => exact List.forall_mem_cons.mpr ⟨nofun, ih level⟩

/-! ## What is lost -/

/-- A branch is followed in the first graph and cut in the second one, before a template that has no
message there. -/
def Graph.Loses {α : Type} (graph raised : Graph α) (owner : Int) (place : Nat) (target : Int) :
    Prop :=
  graph.LeadsTo (.delay owner place) (.message target) ∧
    raised.CutsBefore owner place target ∧ target ∉ raised.messageTemplates

/-- On the way to the message of a template a branch is lost. -/
def Graph.LosesBefore {α : Type} (graph raised : Graph α) (id : Int) : Prop :=
  ∃ owner place target, graph.Loses raised owner place target ∧
    graph.Reaches (StepName.message target).text (StepName.message id).text

namespace Graph.Shows

variable {α : Type} {graph raised : Graph α} {first : Template} {others : List Template}

theorem message_of_leadsTo (drawn : graph.Shows (rules.plan index)) {source : StepName}
    {target : Int} (leads : graph.LeadsTo source (.message target)) :
    target ∈ graph.messageTemplates := by
  have sound := rules.sound_plan index
  obtain ⟨link, linked, _, message⟩ := drawn.joins_iff.mp leads.joins
  have step := (sound.joined link linked).2
  rw [message] at step
  rw [drawn.messageTemplates_eq sound.agrees]
  exact List.mem_filterMap.mpr ⟨_, step, rfl⟩

theorem messageTemplates_nil (drawn : graph.Shows (rules.plan [])) :
    graph.messageTemplates = [] :=
  drawn.messageTemplates_eq (rules.sound_plan []).agrees

theorem reaches_landing (drawn : graph.Shows (rules.plan (first :: others))) {scene : Scene}
    (member : scene ∈ (rules.expand (first :: others) first).scenes) {place : Nat} {turn : Turn}
    (offered : scene.turns[place]? = some turn) :
    graph.Reaches (StepName.message scene.owner.id).text
      (turn.landing.step scene.owner.id place).text := by
  obtain ⟨bound, here⟩ := List.getElem?_eq_some_iff.mp offered
  have offers : scene.turns ≠ [] := List.ne_nil_of_length_pos (Nat.zero_lt_of_lt bound)
  have condition : graph.Joins (StepName.message scene.owner.id).text
      (StepName.condition scene.owner.id place).text := by
    have leaves : Link.edge ⟨.message scene.owner.id, .condition scene.owner.id place,
        some scene.turns[place].response.key⟩ ∈
          graph.outgoing (StepName.message scene.owner.id).text := by
      rw [drawn.outgoing_message member offers]
      exact List.mem_mapIdx.mpr ⟨place, bound, rfl⟩
    exact ⟨_, (graph.mem_outgoing.mp leaves).1, rfl, rfl⟩
  have delay := (drawn.leadsTo_delay member offered).joins
  have landing := (drawn.leadsTo_landing member offered).joins
  exact ((Relation.ReflTransGen.single condition).tail delay).tail landing

/-- Where nothing is cut there are no marks. -/
theorem not_cutsBefore (drawn : graph.Shows (rules.plan (first :: others)))
    (whole : (rules.expand (first :: others) first).branches.cuts first = []) (owner : Int)
    (place : Nat) (target : Int) : ¬ graph.CutsBefore owner place target := by
  rintro ⟨_, node, label, found, payload⟩
  have marks := drawn.forall₂_marks
  rw [whole, List.forall₂_nil_left_iff] at marks
  have member : node ∈ graph.nodes.filter Node.isContinuation := by
    refine List.mem_filter.mpr ⟨List.mem_of_find?_eq_some found, ?_⟩
    rw [Node.isContinuation, payload]
  rw [marks] at member
  cases member

variable {depth : Nat}

/-- A branch of a message that both graphs have leads to another such message, or is lost. -/
theorem kept_or_loses (drawn : graph.Shows (rules.plan (first :: others)))
    (again : raised.Shows ((rules.withDepth depth).plan (first :: others))) {scene : Scene}
    (member : scene ∈ (rules.expand (first :: others) first).scenes)
    (kept : scene.owner.id ∈ raised.messageTemplates) {place : Nat} {turn : Turn}
    (offered : scene.turns[place]? = some turn) {id : Int} (lands : turn.landing = .message id) :
    id ∈ raised.messageTemplates ∨ graph.Loses raised scene.owner.id place id := by
  have found := Selection.find?_first first others
  rw [again.messageTemplates_scenes] at kept
  obtain ⟨other, known, same⟩ := List.mem_map.mp kept
  have owner : other.owner = scene.owner := by
    have across := Rules.find?_owner found known
    rw [same, Rules.find?_owner found member] at across
    exact (Option.some.inj across).symm
  -- the depth has no part in which replies are kept
  have reply : ((rules.withDepth depth).kept (first :: others) other.owner)[place]? =
      some turn.response := by
    change (rules.kept (first :: others) other.owner)[place]? = _
    rw [owner, ← Rules.map_response_turns member, List.getElem?_map, offered]
    rfl
  have next : turn.response.next = some id := by
    rw [Rules.next_turn member (List.mem_of_getElem? offered), lands]
    rfl
  rcases again.scene_or_cut known reply next with ⟨beyond, entered, rfl⟩ | cut
  · left
    rw [again.messageTemplates_scenes]
    exact List.mem_map_of_mem entered
  · have leads := drawn.leadsTo_landing member offered
    rw [lands] at leads
    exact (Classical.em _).imp_right fun lost => ⟨leads, same ▸ cut, lost⟩

/-- A template has a message in the other graph, or a branch on the way to it is lost there. -/
theorem kept_or_lost (drawn : graph.Shows (rules.plan (first :: others)))
    (again : raised.Shows ((rules.withDepth depth).plan (first :: others))) :
    ∀ id ∈ graph.messageTemplates, id ∈ raised.messageTemplates ∨ graph.LosesBefore raised id := by
  have entry : first.id ∈ raised.messageTemplates := by
    rw [again.messageTemplates_scenes]
    exact List.mem_cons_self
  rw [drawn.messageTemplates_scenes, List.forall_mem_map]
  apply Rules.holds_scenes (fun id => id ∈ raised.messageTemplates ∨ graph.LosesBefore raised id)
    (.inl entry)
  intro scene member holds turn offered id lands
  obtain ⟨place, here⟩ := List.getElem?_of_mem offered
  rcases holds with kept | ⟨owner, number, target, lost, reaches⟩
  · exact (drawn.kept_or_loses again member kept here lands).imp_right
      fun lost => ⟨_, place, id, lost, .refl⟩
  -- what lies behind a branch that is lost stays behind it
  · have beyond := drawn.reaches_landing member here
    rw [lands] at beyond
    exact .inr ⟨owner, number, target, lost, reaches.trans beyond⟩

/-- One level below the first message nothing is lost. -/
theorem subset_of_shallow (drawn : graph.Shows (rules.plan (first :: others)))
    (again : raised.Shows ((rules.withDepth depth).plan (first :: others)))
    (shallow : rules.maxDepth ≤ 1) (deep : rules.maxDepth ≤ depth) :
    graph.messageTemplates ⊆ raised.messageTemplates := by
  have found := Selection.find?_first first others
  intro id member
  rw [drawn.messageTemplates_scenes] at member
  rw [again.messageTemplates_scenes]
  obtain ⟨scene, known, rfl⟩ := List.mem_map.mp member
  obtain ⟨steps, bound, leads⟩ := Rules.leads_scene found known
  generalize scene.owner.id = id at leads ⊢
  cases leads with
  | stay => exact List.mem_cons_self
  | @refer steps _ middle _ before reference =>
    have none : steps = 0 := by omega
    subst none
    cases before
    cases depth with
    | zero => omega
    | succ level =>
      obtain ⟨after, follows⟩ :=
        follows_expand (rules.withDepth (level + 1)) (first :: others) first
      change Follows _ _ (level + 1) _ _ _ after at follows
      have whole : Scene.Whole ⟨first, _⟩ := follows.landing_ne_continuation
      exact List.mem_map.mpr (Rules.exists_scene_of_refers found List.mem_cons_self whole reference)

end Graph.Shows

/-- What becomes of a compilation when the depth is raised from `depth`. -/
structure Compilation.Raises {α : Type} (compilation raised : Compilation α) (depth : Nat) :
    Prop where
  lost : ∀ id ∈ compilation.graph.messageTemplates, id ∉ raised.graph.messageTemplates →
    compilation.graph.LosesBefore raised.graph id
  keeps : compilation.graph.messageTemplates ⊆ raised.graph.messageTemplates ↔
    ∀ owner place target, ¬ compilation.graph.Loses raised.graph owner place target
  shallow : depth ≤ 1 → compilation.graph.messageTemplates ⊆ raised.graph.messageTemplates
  whole : compilation.report.truncated = [] → raised = compilation
  uncut : raised.report.truncated = [] →
    compilation.graph.messageTemplates ⊆ raised.graph.messageTemplates

namespace Compiler

variable {α : Type} [Coordinate α] {compiler : Compiler α} {templates : List Template}
  {compilation raised : Compilation α} {depth : Nat}

/-- Where nothing is cut, a greater depth changes nothing. -/
theorem compile_deeper (compiled : compiler.compile templates = .ok compilation)
    (whole : compilation.report.truncated = []) (deep : compiler.rules.maxDepth ≤ depth) :
    (compiler.withDepth depth).compile templates = .ok compilation := by
  rw [← compiled]
  apply compile_withDepth_of_expand
  intro first others selected
  rw [truncated_eq compiled selected] at whole
  exact Rules.expand_deeper whole deep

/-- The same templates take part at any depth. -/
theorem shows_plan_withDepth (again : (compiler.withDepth depth).compile templates = .ok raised) :
    raised.graph.Shows ((compiler.rules.withDepth depth).plan
      (compiler.rules.select templates).templates) :=
  shows_plan again

/-- A greater depth loses no template, except behind a branch that it cuts and that was followed
before. -/
theorem compile_raises (deep : compiler.rules.maxDepth ≤ depth)
    (compiled : compiler.compile templates = .ok compilation)
    (again : (compiler.withDepth depth).compile templates = .ok raised) :
    compilation.Raises raised compiler.rules.maxDepth := by
  have drawn := shows_plan compiled
  have redrawn := shows_plan_withDepth again
  have whole : compilation.report.truncated = [] → raised = compilation := by
    intro whole
    have same := compile_deeper compiled whole deep
    rw [again] at same
    exact Except.ok.inj same
  cases selected : (compiler.rules.select templates).templates with
  | nil =>
    rw [selected] at drawn
    have none := drawn.messageTemplates_nil
    have unlost (owner : Int) (place : Nat) (target : Int) :
        ¬ compilation.graph.Loses raised.graph owner place target := by
      intro loses
      have member := drawn.message_of_leadsTo loses.1
      rw [none] at member
      cases member
    have subset : compilation.graph.messageTemplates ⊆ raised.graph.messageTemplates :=
      none ▸ List.nil_subset _
    exact {
      lost := fun id member missing => absurd (subset member) missing
      keeps := iff_of_true subset unlost
      shallow := fun _ => subset
      whole := whole
      uncut := fun _ => subset }
  | cons first others =>
    rw [selected] at drawn redrawn
    have lost := drawn.kept_or_lost redrawn
    have subset (unlost : ∀ owner place target,
        ¬ compilation.graph.Loses raised.graph owner place target) :
        compilation.graph.messageTemplates ⊆ raised.graph.messageTemplates := by
      intro id member
      refine (lost id member).resolve_right ?_
      rintro ⟨owner, place, target, loses, _⟩
      exact unlost owner place target loses
    exact {
      lost := fun id member missing => (lost id member).resolve_left missing
      keeps := ⟨fun subset owner place target loses =>
        loses.2.2 (subset (drawn.message_of_leadsTo loses.1)), subset⟩
      shallow := fun shallow => drawn.subset_of_shallow redrawn shallow deep
      whole := whole
      uncut := by
        intro uncut
        rw [truncated_eq again selected] at uncut
        exact subset fun owner place target loses =>
          redrawn.not_cutsBefore uncut owner place target loses.2.1 }

end Compiler

theorem exists_ok_of_map {ε β γ : Type} {result : Except ε β} {view : β → γ} {value : γ}
    (same : result.toOption.map view = some value) :
    ∃ outcome, result = .ok outcome ∧ view outcome = value := by
  cases result with
  | error => cases same
  | ok outcome => exact ⟨outcome, rfl, Option.some.inj same⟩

namespace Samples

theorem exists_compile_bypass :
    ∃ compilation raised, (shallow.withDepth 2).compile bypass = .ok compilation ∧
      (shallow.withDepth 3).compile bypass = .ok raised ∧
      compilation.graph.messageTemplates = [1, 2, 4, 3, 5] ∧
      raised.graph.messageTemplates = [1, 2, 4, 3] := by
  have drawn : ((shallow.withDepth 2).compile bypass).toOption.map
      (·.graph.messageTemplates) = some [1, 2, 4, 3, 5] ∧
    ((shallow.withDepth 3).compile bypass).toOption.map
      (·.graph.messageTemplates) = some [1, 2, 4, 3] := by decide +kernel
  obtain ⟨compilation, compiled, messages⟩ := exists_ok_of_map drawn.1
  obtain ⟨raised, again, fewer⟩ := exists_ok_of_map drawn.2
  exact ⟨compilation, raised, compiled, again, messages, fewer⟩

end Samples

namespace Compiler

theorem compile_raises_bypass :
    ∃ compilation raised, (Samples.shallow.withDepth 2).rules.maxDepth ≤ 3 ∧
      (Samples.shallow.withDepth 2).compile Samples.bypass = .ok compilation ∧
      ((Samples.shallow.withDepth 2).withDepth 3).compile Samples.bypass = .ok raised ∧
      compilation.Raises raised 2 := by
  obtain ⟨compilation, raised, compiled, again, _⟩ := Samples.exists_compile_bypass
  exact ⟨compilation, raised, by decide, compiled, again, compile_raises (by decide) compiled again⟩

/-- With one more level the third template is followed at the end of the detour, and nothing that
follows it any more. -/
theorem loses_bypass :
    ∃ compilation raised, (Samples.shallow.withDepth 2).compile Samples.bypass = .ok compilation ∧
      (Samples.shallow.withDepth 3).compile Samples.bypass = .ok raised ∧
      5 ∈ compilation.graph.messageTemplates ∧ 5 ∉ raised.graph.messageTemplates := by
  obtain ⟨compilation, raised, compiled, again, messages, fewer⟩ := Samples.exists_compile_bypass
  refine ⟨compilation, raised, compiled, again, ?_, ?_⟩
  · rw [messages]
    decide
  · rw [fewer]
    decide

end Compiler

end ReplyFlow
