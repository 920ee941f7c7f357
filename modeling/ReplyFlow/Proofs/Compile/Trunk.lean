import ReplyFlow.Proofs.Compile.Accounting
import ReplyFlow.Proofs.Compile.Growth
import ReplyFlow.Proofs.Graph.Trees

/-! The tree inside a compiled graph: without the links that go back, and apart from the end, the
stems join every node to the start.
-/

set_option autoImplicit false

namespace ReplyFlow

def Link.ends (link : Link) : String × String :=
  (link.source.text, link.target.text)

theorem Link.of_ends_eq {first second : Link} (same : first.ends = second.ends) :
    first.source = second.source ∧ first.target = second.target := by
  rw [ends, ends, Prod.mk.injEq] at same
  exact ⟨StepName.text_injective same.1, StepName.text_injective same.2⟩

theorem Link.target_edge (link : Link) (step : StepName) :
    link.edge.target = step.text ↔ link.target = step :=
  ⟨fun same => StepName.text_injective same, congrArg StepName.text⟩

theorem Link.countP_edge (links : List Link) (step : StepName) :
    (links.map Link.edge).countP (·.target == step.text) = links.countP (·.target = step) := by
  rw [List.countP_map]
  exact List.countP_congr fun link _ => by simp [link.target_edge]

namespace Blueprint.Grows

variable {plan : Blueprint} {root step : StepName} {stems back : List Link}

/-- A stem leads forward, so it does not join what a link back joins. -/
theorem ends_notMem (grows : plan.Grows root stems back) (distinct : plan.ownSteps.Nodup)
    {link : Link} (stem : link ∈ stems) : link.ends ∉ back.map Link.ends := by
  intro member
  obtain ⟨other, returns, same⟩ := List.mem_map.mp member
  obtain ⟨source, target⟩ := Link.of_ends_eq same
  have ahead := idxOf_lt_idxOf distinct (grows.forward link stem)
  have behind := idxOf_lt_idxOf distinct (grows.backward other returns)
  rw [source, target] at behind
  exact Nat.lt_asymm ahead behind

theorem stem_or_back (grows : plan.Grows root stems back) {link : Link}
    (linked : link ∈ plan.links) (inner : link.target ≠ .finish) : link ∈ stems ∨ link ∈ back := by
  have kept : link ∈ plan.links.filter (·.target ≠ .finish) :=
    List.mem_filter.mpr ⟨linked, decide_eq_true inner⟩
  exact List.mem_append.mp (grows.links.mem_iff.mp kept)

theorem mem_links (grows : plan.Grows root stems back) {link : Link} (returns : link ∈ back) :
    link ∈ plan.links := by
  have kept := grows.links.mem_iff.mpr (List.mem_append_right stems returns)
  exact (List.mem_filter.mp kept).1

theorem perm_stems (grows : plan.Grows root stems back) (distinct : plan.ownSteps.Nodup) :
    ((plan.links.filter (·.target ≠ .finish)).filter fun link =>
      link.ends ∉ back.map Link.ends).Perm stems := by
  have kept : stems.filter (fun link => link.ends ∉ back.map Link.ends) = stems :=
    List.filter_eq_self.mpr fun link stem => decide_eq_true (grows.ends_notMem distinct stem)
  have dropped : back.filter (fun link => link.ends ∉ back.map Link.ends) = [] :=
    List.filter_eq_nil_iff.mpr fun link member apart =>
      of_decide_eq_true apart (List.mem_map_of_mem member)
  have trunk := grows.links.filter fun link => link.ends ∉ back.map Link.ends
  rw [List.filter_append, kept, dropped, List.append_nil] at trunk
  exact trunk

theorem target_ne_root (grows : plan.Grows root stems back) (distinct : plan.ownSteps.Nodup) :
    ∀ link ∈ stems, link.target ≠ root := by
  rw [grows.steps, List.nodup_cons] at distinct
  exact fun link stem same => distinct.1 (same ▸ List.mem_map_of_mem stem)

/-- One stem leads to every step but the root. -/
theorem countP_stems (grows : plan.Grows root stems back) (distinct : plan.ownSteps.Nodup)
    (member : step ∈ plan.ownSteps) (other : step ≠ root) :
    stems.countP (·.target = step) = 1 := by
  rw [grows.steps] at distinct member
  have once := List.count_eq_one_of_mem distinct member
  rw [List.count_cons_of_ne other.symm, List.count, List.countP_map] at once
  rw [← once]
  exact List.countP_congr fun link _ => by simp

theorem countP_target (grows : plan.Grows root stems back) (other : step ≠ .finish) :
    plan.links.countP (·.target = step) =
      stems.countP (·.target = step) + back.countP (·.target = step) := by
  have split := grows.links.countP_eq fun link => link.target = step
  rw [List.countP_append, List.countP_filter] at split
  rw [← split]
  apply List.countP_congr
  intro link _
  by_cases same : link.target = step <;> simp [same, other]

end Blueprint.Grows

/-! ## The tree in the graph -/

namespace Graph.Shows

variable {α : Type} {graph : Graph α} {plan : Blueprint} {root step : StepName}
  {stems back : List Link}

theorem exists_step (drawn : graph.Shows plan) {node : Node α} (member : node ∈ graph.nodes) :
    ∃ step ∈ plan.steps, node.id = step.text ∧ node.kind = step.kind := by
  obtain ⟨sketch, present, content⟩ := drawn.exists_sketch member
  exact ⟨sketch.step, List.mem_map_of_mem ((settle_sublist false _).subset present),
    congrArg NodeContent.id content, congrArg NodeContent.kind content⟩

/-- Without the end a graph has the steps of its blueprint, in their order. -/
theorem ids_remove (drawn : graph.Shows plan) :
    (graph.remove StepName.finish.text).ids = plan.ownSteps.map StepName.text := by
  rw [Graph.ids_remove, drawn.ids_eq, List.filter_map, ← filter_steps_settle]
  congr 1
  apply List.filter_congr
  intro step _
  have same : step.text = StepName.finish.text ↔ step = .finish :=
    ⟨StepName.text_injective, congrArg StepName.text⟩
  simp [same]

theorem precedes (drawn : graph.Shows plan) (distinct : plan.ownSteps.Nodup)
    {first second : StepName} (order : [first, second].Sublist plan.ownSteps) :
    graph.Precedes first.text second.text := by
  have kept : (plan.ownSteps.map StepName.text).Sublist graph.ids := by
    rw [← drawn.ids_remove, Graph.ids_remove]
    exact List.filter_sublist
  exact idxOf_lt_idxOf (drawn.nodup_ids distinct) ((order.map StepName.text).trans kept)

theorem perm_edges (drawn : graph.Shows plan) (distinct : plan.ownSteps.Nodup)
    (grows : plan.Grows root stems back) :
    ((graph.remove StepName.finish.text).without (back.map Link.ends)).edges.Perm
      (stems.map Link.edge) := by
  have edges : ((graph.remove StepName.finish.text).without (back.map Link.ends)).edges =
      ((plan.links.filter (·.target ≠ .finish)).filter fun link =>
        link.ends ∉ back.map Link.ends).map Link.edge := by
    simp only [without, remove, drawn.edges, List.filter_map, Function.comp_def, ne_eq,
      Link.target_edge]
    rfl
  rw [edges]
  exact (grows.perm_stems distinct).map Link.edge

theorem length_incoming (drawn : graph.Shows plan) (step : StepName) :
    (graph.incoming step.text).length = plan.links.countP (·.target = step) := by
  rw [incoming, ← List.countP_eq_length_filter, drawn.edges, Link.countP_edge]

/-- The stems make a tree. -/
theorem isTree (drawn : graph.Shows plan) (distinct : plan.ownSteps.Nodup)
    (grows : plan.Grows root stems back) :
    ((graph.remove StepName.finish.text).without (back.map Link.ends)).IsTree root.text := by
  let trunk := (graph.remove StepName.finish.text).without (back.map Link.ends)
  have ids : trunk.ids = plan.ownSteps.map StepName.text := drawn.ids_remove
  have edges : trunk.edges.Perm (stems.map Link.edge) := drawn.perm_edges distinct grows
  have apart : trunk.ids.Nodup := ids ▸ distinct.map fun _ _ => StepName.text_injective
  have stem : ∀ edge ∈ trunk.edges, ∃ link ∈ stems, link.edge = edge :=
    fun edge member => List.mem_map.mp (edges.mem_iff.mp member)
  have incoming (step : StepName) :
      (trunk.incoming step.text).length = stems.countP (·.target = step) := by
    rw [Graph.incoming, ← List.countP_eq_length_filter, edges.countP_eq, Link.countP_edge]
  have forward : ∀ edge ∈ trunk.edges, trunk.Precedes edge.source edge.target := by
    intro edge member
    obtain ⟨link, known, rfl⟩ := stem edge member
    have order := (grows.forward link known).map StepName.text
    exact idxOf_lt_idxOf apart (ids ▸ order)
  have joined : ∀ edge ∈ trunk.edges, edge.source ∈ trunk.ids ∧ edge.target ∈ trunk.ids := by
    intro edge member
    obtain ⟨link, known, rfl⟩ := stem edge member
    have steps := (grows.forward link known).subset
    rw [ids]
    exact ⟨List.mem_map_of_mem (steps List.mem_cons_self),
      List.mem_map_of_mem (steps (List.mem_cons_of_mem _ List.mem_cons_self))⟩
  have parent : ∀ id ∈ trunk.ids, id ≠ root.text → (trunk.incoming id).length = 1 := by
    intro id member other
    rw [ids] at member
    obtain ⟨step, known, rfl⟩ := List.mem_map.mp member
    rw [incoming]
    exact grows.countP_stems distinct known fun same => other (congrArg StepName.text same)
  exact {
    distinct := apart
    joined := joined
    rooted := by
      rw [ids, grows.steps]
      exact List.mem_cons_self
    orphan := by
      rw [← List.length_eq_zero_iff, incoming, List.countP_eq_zero]
      exact fun link known same => grows.target_ne_root distinct link known (of_decide_eq_true same)
    parent := parent
    reached := reaches_of_forward joined parent forward }

/-- Without the links back there is no cycle. -/
theorem acyclic (drawn : graph.Shows plan) (distinct : plan.ownSteps.Nodup)
    (grows : plan.Grows root stems back) (closed : plan.outgoing .finish = []) :
    (graph.without (back.map Link.ends)).Acyclic := by
  have last : (graph.without (back.map Link.ends)).outgoing StepName.finish.text = [] := by
    rw [List.eq_nil_iff_forall_not_mem]
    intro edge member
    obtain ⟨kept, source⟩ := mem_outgoing _ |>.mp member
    have leaves : edge ∈ graph.outgoing StepName.finish.text :=
      graph.mem_outgoing.mpr ⟨(List.mem_filter.mp kept).1, source⟩
    rw [drawn.outgoing_eq, closed] at leaves
    cases leaves
  apply acyclic_of_forward last
  intro edge member
  obtain ⟨present, apart⟩ := List.mem_filter.mp member
  rw [drawn.edges] at present
  obtain ⟨link, linked, rfl⟩ := List.mem_map.mp present
  by_cases final : link.target = .finish
  · exact .inl (congrArg StepName.text final)
  · rcases grows.stem_or_back linked final with stem | returns
    · exact .inr (drawn.precedes distinct (grows.forward link stem))
    · exact absurd (List.mem_map_of_mem returns) (of_decide_eq_true apart)

/-- A link goes back exactly if what it leads to is drawn before what it leaves. -/
theorem mem_back (drawn : graph.Shows plan) (distinct : plan.ownSteps.Nodup)
    (grows : plan.Grows root stems back) {link : Link} (linked : link ∈ plan.links)
    (inner : link.target ≠ .finish) :
    link.ends ∈ back.map Link.ends ↔ graph.Precedes link.target.text link.source.text := by
  constructor
  · intro member
    obtain ⟨other, returns, same⟩ := List.mem_map.mp member
    obtain ⟨source, target⟩ := Link.of_ends_eq same
    rw [← source, ← target]
    exact drawn.precedes distinct (grows.backward other returns)
  · intro behind
    rcases grows.stem_or_back linked inner with stem | returns
    · exact absurd (drawn.precedes distinct (grows.forward link stem)) (Nat.lt_asymm behind)
    · exact List.mem_map_of_mem returns

end Graph.Shows

/-! ## The whole shape -/

/-- The shape of a compiled conversation that starts with a given template. -/
structure Compilation.Branching {α : Type} (compilation : Compilation α) (first : Int) : Prop where
  leadsOn : ∀ edge ∈ compilation.graph.edges, ∃ source target label,
    StepName.LeadsOn first source target ∧ edge = Link.edge ⟨source, target, label⟩
  single : ∀ node ∈ compilation.graph.nodes,
    node.kind = .start ∨ node.kind = .condition ∨ node.kind = .delay →
      (compilation.graph.outgoing node.id).length = 1
  closed : ∀ node ∈ compilation.graph.nodes, node.kind = .finish →
    compilation.graph.outgoing node.id = []
  entrance : ∀ node ∈ compilation.graph.nodes, node.kind = .start →
    compilation.graph.incoming node.id = []
  entered : ∀ node ∈ compilation.graph.nodes,
    node.kind = .condition ∨ node.kind = .delay ∨ node.isContinuation →
      (compilation.graph.incoming node.id).length = 1
  trunk : ((compilation.graph.remove StepName.finish.text).without
    compilation.report.backEdges).IsTree StepName.start.text
  acyclic : (compilation.graph.without compilation.report.backEdges).Acyclic
  back : ∀ template place target : Int, compilation.graph.Joins
    (StepName.delay template place).text (StepName.message target).text →
      (((StepName.delay template place).text, (StepName.message target).text)
          ∈ compilation.report.backEdges ↔
        compilation.graph.Precedes (StepName.message target).text
          (StepName.delay template place).text)
  reported : ∀ pair ∈ compilation.report.backEdges, ∃ template place target : Int,
    pair = ((StepName.delay template place).text, (StepName.message target).text) ∧
      compilation.graph.Joins pair.1 pair.2

section

variable {rules : Rules} {first : Template} {others : List Template}

/-- One link leaves every condition and every delay of a conversation. -/
theorem Rules.length_outgoing {step : StepName}
    (waits : step.kind = .condition ∨ step.kind = .delay)
    (member : step ∈ (rules.plan (first :: others)).ownSteps) :
    ((rules.plan (first :: others)).outgoing step).length = 1 := by
  have message (id : Int) : StepName.message id ≠ step := StepName.ne_of_waits waits nofun nofun
  have start : StepName.start ≠ step := StepName.ne_of_waits waits nofun nofun
  have once := List.count_eq_one_of_mem (rules.sound_plan (first :: others)).distinct member
  rw [ownSteps_plan_cons, ownSteps_conversationPlan, List.count_cons_of_ne start,
    List.count_cons_of_ne (message _)] at once
  rw [Blueprint.outgoing, ← List.countP_eq_length_filter, links_plan_cons, links_conversationPlan,
    List.countP_cons_of_neg (by simpa using start), List.countP_append,
    Branches.countP_source_closingPlan _ _ waits, Branches.countP_source _ _ _ waits, once]

/-- One link leads to every step that is neither a message nor at either end. -/
theorem Rules.countP_target {step : StepName} (start : step ≠ .start) (finish : step ≠ .finish)
    (message : ∀ id, step ≠ .message id) (member : step ∈ (rules.plan (first :: others)).steps) :
    (rules.plan (first :: others)).links.countP (·.target = step) = 1 := by
  have grows := rules.grows_plan first others
  have own : step ∈ (rules.plan (first :: others)).ownSteps :=
    List.mem_filter.mpr ⟨member, decide_eq_true finish⟩
  have back : (rules.backLinks (first :: others) first).countP (·.target = step) = 0 := by
    rw [List.countP_eq_zero]
    intro link returns same
    obtain ⟨_, _, target, rfl⟩ := Branches.exists_of_backLink link returns
    exact message target (of_decide_eq_true same).symm
  rw [grows.countP_target finish, grows.countP_stems (rules.sound_plan _).distinct own start, back]

end

namespace Graph.Shows

variable {α : Type} {graph : Graph α} {rules : Rules} {first : Template} {others : List Template}
  {step : StepName}

theorem exists_link {plan : Blueprint} (drawn : graph.Shows plan) :
    ∀ edge ∈ graph.edges, ∃ link ∈ plan.links, link.edge = edge := by
  intro edge member
  rw [drawn.edges] at member
  exact List.mem_map.mp member

/-- Nothing leaves the end or a mark. -/
theorem outgoing_eq_nil (drawn : graph.Shows (rules.plan (first :: others)))
    (last : step.kind = .finish) : graph.outgoing step.text = [] := by
  rw [List.eq_nil_iff_forall_not_mem]
  intro edge member
  obtain ⟨present, source⟩ := graph.mem_outgoing.mp member
  obtain ⟨link, linked, rfl⟩ := drawn.exists_link edge present
  have leads := rules.leadsOn_plan first others link linked
  rw [StepName.text_injective source] at leads
  generalize link.target = target at leads
  cases leads <;> cases last

theorem incoming_start (drawn : graph.Shows (rules.plan (first :: others))) :
    graph.incoming StepName.start.text = [] := by
  rw [List.eq_nil_iff_forall_not_mem]
  intro edge member
  obtain ⟨present, target⟩ := graph.mem_incoming.mp member
  obtain ⟨link, linked, rfl⟩ := drawn.exists_link edge present
  have leads := rules.leadsOn_plan first others link linked
  rw [(link.target_edge .start).mp target] at leads
  generalize link.source = source at leads
  cases leads

/-- A node that is a mark has the step of one. -/
theorem exists_continuation (drawn : graph.Shows (rules.plan (first :: others))) {node : Node α}
    (member : node ∈ graph.nodes) (mark : node.isContinuation) :
    ∃ template place, node.id = (StepName.continuation template place).text := by
  have content : node.content ∈ (graph.nodes.filter Node.isContinuation).map Node.content :=
    List.mem_map_of_mem (List.mem_filter.mpr ⟨member, mark⟩)
  rw [drawn.contents_marks] at content
  obtain ⟨cut, _, same⟩ := List.mem_map.mp content
  exact ⟨_, _, (congrArg NodeContent.id same).symm⟩

end Graph.Shows

namespace Compiler

variable {α : Type} [Coordinate α] {compiler : Compiler α} {templates : List Template}
  {compilation : Compilation α} {first : Template} {others : List Template}

/-- Every compiled conversation is a tree of branches, up to its end and the links that go back. -/
theorem compile_branching (compiled : compiler.compile templates = .ok compilation)
    (selected : (compiler.rules.select templates).templates = first :: others) :
    compilation.Branching first.id := by
  have drawn := shows_plan compiled
  rw [selected] at drawn
  have distinct := (compiler.rules.sound_plan (first :: others)).distinct
  have grows := compiler.rules.grows_plan first others
  have backEdges : compilation.report.backEdges =
      (compiler.rules.backLinks (first :: others) first).map Link.ends := by
    rw [backEdges_eq compiled selected, ← Branches.map_backLinks]
    rfl
  have closed : (compiler.rules.plan (first :: others)).outgoing .finish = [] :=
    compiler.rules.outgoing_finish first others
  exact {
    leadsOn := by
      intro edge member
      obtain ⟨link, linked, rfl⟩ := drawn.exists_link edge member
      exact ⟨_, _, _, compiler.rules.leadsOn_plan first others link linked, rfl⟩
    single := by
      intro node member kind
      obtain ⟨step, present, id, same⟩ := drawn.exists_step member
      rw [same] at kind
      rw [id, drawn.outgoing_eq, List.length_map]
      rcases kind with start | waits
      · cases step <;> cases start
        rw [compiler.rules.outgoing_start]
        rfl
      · have own : step ∈ (compiler.rules.plan (first :: others)).ownSteps := by
          have inner : StepName.finish ≠ step := StepName.ne_of_waits waits nofun nofun
          exact List.mem_filter.mpr ⟨present, decide_eq_true inner.symm⟩
        exact Rules.length_outgoing waits own
    closed := by
      intro node member kind
      obtain ⟨step, _, id, same⟩ := drawn.exists_step member
      rw [id]
      exact drawn.outgoing_eq_nil (same ▸ kind)
    entrance := by
      intro node member kind
      obtain ⟨step, _, id, same⟩ := drawn.exists_step member
      rw [same] at kind
      cases step <;> cases kind
      exact id ▸ drawn.incoming_start
    entered := by
      intro node member kind
      obtain ⟨step, present, id, same⟩ := drawn.exists_step member
      have inner : step ≠ .start ∧ step ≠ .finish ∧ ∀ id, step ≠ .message id := by
        rw [same] at kind
        rcases kind with condition | delay | mark
        · cases step <;> cases condition
          exact ⟨nofun, nofun, nofun⟩
        · cases step <;> cases delay
          exact ⟨nofun, nofun, nofun⟩
        · obtain ⟨template, place, named⟩ := drawn.exists_continuation member mark
          rw [StepName.text_injective (id.symm.trans named)]
          exact ⟨nofun, nofun, nofun⟩
      rw [id, drawn.length_incoming]
      exact Rules.countP_target inner.1 inner.2.1 inner.2.2 present
    trunk := by
      rw [backEdges]
      exact drawn.isTree distinct grows
    acyclic := by
      rw [backEdges]
      exact drawn.acyclic distinct grows closed
    back := by
      intro template place target joins
      obtain ⟨link, linked, source, leads⟩ := drawn.joins_iff.mp joins
      have inner : link.target ≠ .finish := leads ▸ StepName.noConfusion
      rw [backEdges, ← source, ← leads]
      exact drawn.mem_back distinct grows linked inner
    reported := by
      intro pair member
      rw [backEdges] at member
      obtain ⟨link, returns, rfl⟩ := List.mem_map.mp member
      have linked := grows.mem_links returns
      obtain ⟨template, place, target, same⟩ := Branches.exists_of_backLink link returns
      refine ⟨template, place, target, ?_, drawn.joins_iff.mpr ⟨link, linked, rfl, rfl⟩⟩
      rw [same]
      rfl }

theorem compile_branching_detour :
    ∃ compilation first others, Samples.shallow.compile Samples.detour = .ok compilation ∧
      (Samples.shallow.rules.select Samples.detour).templates = first :: others ∧
      compilation.Branching first.id := by
  obtain ⟨compilation, compiled⟩ := Samples.exists_compile_detour
  exact ⟨compilation, _, _, compiled, rfl, compile_branching compiled rfl⟩

end Compiler

end ReplyFlow
