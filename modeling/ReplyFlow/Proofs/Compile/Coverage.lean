import ReplyFlow.Proofs.Compile.Simulation

/-! Which templates are compiled to messages.

The traversal goes along references, at most as far as the depth allows. Without a cut it misses
nothing, and where the depth is not less than the number of other templates there is no cut.
-/

set_option autoImplicit false

namespace ReplyFlow

/-- A kept reply of one template names another. -/
def Rules.Refers (rules : Rules) (index : List Template) (source target : Int) : Prop :=
  ∃ template, Selection.find? index source = some template ∧
    ∃ response ∈ rules.kept index template, response.next = some target

/-- So many references lead from one template to another. -/
inductive Rules.Leads (rules : Rules) (index : List Template) : Nat → Int → Int → Prop where
  | stay {id : Int} : rules.Leads index 0 id id
  | refer {steps : Nat} {source middle target : Int} : rules.Leads index steps source middle →
    rules.Refers index middle target → rules.Leads index (steps + 1) source target

variable {rules : Rules} {index : List Template}

theorem Rules.refers_branch {template child : Template}
    (found : Selection.find? index template.id = some template) {branch : Branch}
    (member : branch ∈ rules.branches index template) (next : branch.next = some child) :
    rules.Refers index template.id child.id := by
  rw [branches_eq] at member
  obtain ⟨response, kept, rfl⟩ := List.mem_map.mp member
  obtain ⟨target, named, known⟩ := Option.bind_eq_some_iff.mp next
  obtain ⟨_, same⟩ := Selection.mem_of_find? known
  exact ⟨template, found, response, kept, same ▸ named⟩

namespace Follows

variable {depth : Nat} {branches : List Branch} {visited after : Visited} {tree : Branches}

/-- A template that is entered is found within the depth that is left. -/
theorem leads (follows : Follows rules index depth branches visited tree after) {root owner : Int}
    {steps : Nat} (reached : rules.Leads index steps root owner)
    (known : ∀ branch ∈ branches, branch.Known index)
    (referred : ∀ branch ∈ branches, ∀ child, branch.next = some child →
      rules.Refers index owner child.id) :
    ∀ id ∈ tree.entered.map Template.id,
      ∃ more ≤ depth, rules.Leads index (steps + more) root id := by
  induction follows generalizing owner steps with
  | done =>
    intro id member
    cases member
  | finish _ ih =>
    exact ih reached (List.forall_mem_of_forall_mem_cons known)
      (List.forall_mem_of_forall_mem_cons referred)
  | back _ _ ih =>
    exact ih reached (List.forall_mem_of_forall_mem_cons known)
      (List.forall_mem_of_forall_mem_cons referred)
  | cut _ _ ih =>
    exact ih reached (List.forall_mem_of_forall_mem_cons known)
      (List.forall_mem_of_forall_mem_cons referred)
  | @into depth _ child _ _ _ _ _ _ _ _ _ insideIH restIH =>
    have found := known _ List.mem_cons_self child rfl
    have entered := reached.refer (referred _ List.mem_cons_self child rfl)
    intro id member
    rw [Branches.entered, List.cons_append, List.map_cons, List.map_append, List.mem_cons,
      List.mem_append] at member
    rcases member with rfl | below | beside
    -- one reference to the child, and from there one level less is left
    · exact ⟨1, Nat.le_add_left 1 depth, entered⟩
    · obtain ⟨more, bound, leads⟩ := insideIH entered Rules.known_branches
        (fun _ offered _ next => Rules.refers_branch found offered next) id below
      refine ⟨more + 1, Nat.succ_le_succ bound, ?_⟩
      rw [Nat.add_right_comm] at leads
      exact leads
    · exact restIH reached (List.forall_mem_of_forall_mem_cons known)
        (List.forall_mem_of_forall_mem_cons referred) id beside

/-- What has been visited takes part. -/
theorem after_subset (follows : Follows rules index depth branches visited tree after)
    (known : ∀ branch ∈ branches, branch.Known index)
    (before : visited ⊆ index.map Template.id) : after ⊆ index.map Template.id := by
  intro id member
  rcases follows.mem_after.mp member with entered | old
  · obtain ⟨template, here, rfl⟩ := List.mem_map.mp entered
    have present := Selection.mem_of_find? (follows.find?_entered known template here)
    exact List.mem_map_of_mem present.1
  · exact before old

theorem length_le_after (follows : Follows rules index depth branches visited tree after) :
    visited.length ≤ after.length := by
  rw [follows.after_eq, List.length_append]
  exact Nat.le_add_left _ _

/-- No branch is cut while there are levels enough for all templates that have not been visited. -/
theorem cuts_eq_nil (follows : Follows rules index depth branches visited tree after)
    (known : ∀ branch ∈ branches, branch.Known index)
    (distinct : visited.Nodup) (before : visited ⊆ index.map Template.id)
    (enough : index.length ≤ visited.length + depth) : ∀ owner, tree.cuts owner = [] := by
  induction follows with
  | done => exact fun _ => rfl
  | finish _ ih => exact ih (List.forall_mem_of_forall_mem_cons known) distinct before enough
  | back _ _ ih => exact ih (List.forall_mem_of_forall_mem_cons known) distinct before enough
  | @cut _ child _ visited _ _ new _ _ =>
    -- with this template more would have been visited than there are
    have present := Selection.mem_of_find? (known _ List.mem_cons_self child rfl)
    have inside : child.id :: visited ⊆ index.map Template.id :=
      List.cons_subset.mpr ⟨List.mem_map_of_mem present.1, before⟩
    have fits := (List.subperm_of_subset (List.nodup_cons.mpr ⟨new, distinct⟩) inside).length_le
    rw [List.length_cons, List.length_map] at fits
    omega
  | @into depth _ child _ visited between _ _ _ new inside rest insideIH restIH =>
    have present := Selection.mem_of_find? (known _ List.mem_cons_self child rfl)
    have entered : child.id :: visited ⊆ index.map Template.id :=
      List.cons_subset.mpr ⟨List.mem_map_of_mem present.1, before⟩
    have apart : (child.id :: visited).Nodup := List.nodup_cons.mpr ⟨new, distinct⟩
    -- every level that is used up has visited one template at least
    have grown := inside.length_le_after
    rw [List.length_cons] at grown
    have below := insideIH Rules.known_branches apart entered (by rw [List.length_cons]; omega)
    have beside := restIH (List.forall_mem_of_forall_mem_cons known) (inside.nodup_after apart)
      (inside.after_subset Rules.known_branches entered) (by omega)
    intro owner
    rw [Branches.cuts, below, beside]
    rfl

/-- Where nothing is cut, more levels change nothing. -/
theorem deeper (follows : Follows rules index depth branches visited tree after)
    {owner : Template} (whole : tree.cuts owner = []) (others : Rules)
    (same : ∀ template, others.branches index template = rules.branches index template)
    {more : Nat} (deep : depth ≤ more) : Follows others index more branches visited tree after := by
  induction follows generalizing owner more with
  | done => exact .done
  | finish _ ih => exact .finish (ih whole deep)
  | back known _ ih => exact .back known (ih whole deep)
  | cut => cases whole
  | into new _ _ insideIH restIH =>
    rw [Branches.cuts, List.append_eq_nil_iff] at whole
    cases more with
    | zero => omega
    | succ more =>
      have below := insideIH whole.1 (Nat.le_of_succ_le_succ deep)
      have beside := restIH whole.2 deep
      rw [← same] at below
      exact .into new below beside

end Follows

/-! ## Without a cut -/

/-- No branch of the scene is cut. -/
def Scene.Whole (scene : Scene) : Prop :=
  ∀ turn ∈ scene.turns, ∀ id, turn.landing ≠ .continuation id

theorem Branches.whole_scenes {tree : Branches} {owner : Template} (whole : tree.cuts owner = []) :
    ∀ scene ∈ ⟨owner, tree.turns⟩ :: tree.scenes, scene.Whole := by
  induction tree generalizing owner with
  | done =>
    intro scene member
    rw [List.mem_singleton.mp member]
    exact fun turn offered => absurd offered List.not_mem_nil
  | stop response ending rest ih =>
    cases ending with
    | cut => cases whole
    | finish | back =>
      have later := ih whole
      intro scene member
      rcases List.mem_cons.mp member with rfl | below
      · exact List.forall_mem_cons.mpr ⟨nofun, later _ List.mem_cons_self⟩
      · exact later scene (List.mem_cons_of_mem _ below)
  | into response child inside rest insideIH restIH =>
    rw [cuts, List.append_eq_nil_iff] at whole
    have below := insideIH whole.1
    have later := restIH whole.2
    intro scene member
    rcases List.mem_cons.mp member with rfl | member
    · exact List.forall_mem_cons.mpr ⟨nofun, later _ List.mem_cons_self⟩
    · rw [scenes, List.mem_append] at member
      rcases member with inner | beside
      · exact below scene inner
      · exact later scene (List.mem_cons_of_mem _ beside)

section

variable {first : Template}

theorem Rules.leads_scene (found : Selection.find? index first.id = some first) {scene : Scene}
    (member : scene ∈ (rules.expand index first).scenes) :
    ∃ steps ≤ rules.maxDepth, rules.Leads index steps first.id scene.owner.id := by
  rcases List.mem_cons.mp member with rfl | below
  · exact ⟨0, Nat.zero_le _, .stay⟩
  · obtain ⟨after, follows⟩ := follows_expand rules index first
    have entered : scene.owner.id ∈ (rules.expand index first).branches.entered.map Template.id := by
      rw [← Branches.map_owner_id_scenes]
      exact List.mem_map_of_mem below
    obtain ⟨more, bound, leads⟩ := follows.leads .stay known_branches
      (fun _ offered _ next => refers_branch found offered next) _ entered
    rw [Nat.zero_add] at leads
    exact ⟨more, bound, leads⟩

/-- What a whole scene refers to has a message. -/
theorem Rules.exists_scene_of_refers (found : Selection.find? index first.id = some first)
    {scene : Scene} (member : scene ∈ (rules.expand index first).scenes) (whole : scene.Whole)
    {id : Int} (reference : rules.Refers index scene.owner.id id) :
    ∃ other ∈ (rules.expand index first).scenes, other.owner.id = id := by
  obtain ⟨template, known, response, kept, next⟩ := reference
  rw [find?_owner found member] at known
  cases known
  rw [← map_response_turns member] at kept
  obtain ⟨turn, offered, rfl⟩ := List.mem_map.mp kept
  rw [next_turn member offered] at next
  cases lands : turn.landing with
  | finish =>
    rw [lands] at next
    cases next
  | message target =>
    rw [lands] at next
    cases next
    exact exists_scene member offered lands
  | continuation target => exact absurd lands (whole turn offered target)

/-- Whatever a whole conversation refers to has a message. -/
theorem Rules.exists_scene_of_leads
    (whole : (rules.expand index first).branches.cuts first = []) {steps : Nat} {id : Int}
    (found : Selection.find? index first.id = some first)
    (leads : rules.Leads index steps first.id id) :
    ∃ scene ∈ (rules.expand index first).scenes, scene.owner.id = id := by
  -- along the references: each leaves a message by a branch that is not cut
  generalize root : first.id = source at leads
  induction leads with
  | stay => exact ⟨_, List.mem_cons_self, root⟩
  | refer _ reference ih =>
    obtain ⟨scene, member, rfl⟩ := ih root
    exact exists_scene_of_refers found member (Branches.whole_scenes whole scene member) reference

theorem Graph.Shows.messageTemplates_scenes {α : Type} {graph : Graph α} {others : List Template}
    (drawn : graph.Shows (rules.plan (first :: others))) :
    graph.messageTemplates =
      (rules.expand (first :: others) first).scenes.map fun scene => scene.owner.id := by
  rw [drawn.messageTemplates_eq (rules.sound_plan _).agrees, Rules.messages_plan_cons]

/-- A branch leads to the message of its target or to a mark in its place. -/
theorem Graph.Shows.scene_or_cut {α : Type} {graph : Graph α} {others : List Template}
    (drawn : graph.Shows (rules.plan (first :: others))) {scene : Scene}
    (member : scene ∈ (rules.expand (first :: others) first).scenes) {place : Nat}
    {response : Response} (kept : (rules.kept (first :: others) scene.owner)[place]? = some response)
    {target : Int} (next : response.next = some target) :
    (∃ other ∈ (rules.expand (first :: others) first).scenes, other.owner.id = target) ∨
      graph.CutsBefore scene.owner.id place target := by
  rw [← Rules.map_response_turns member, List.getElem?_map, Option.map_eq_some_iff] at kept
  obtain ⟨turn, offered, rfl⟩ := kept
  have turning := List.mem_of_getElem? offered
  rw [Rules.next_turn member turning] at next
  cases landing : turn.landing with
  | finish =>
    rw [landing] at next
    cases next
  | message other =>
    rw [landing] at next
    cases next
    exact .inl (Rules.exists_scene member turning landing)
  | continuation other =>
    rw [landing] at next
    cases next
    exact .inr (drawn.cutsBefore member offered landing)

theorem Rules.cuts_expand (rules : Rules) (found : Selection.find? index first.id = some first)
    (enough : index.length ≤ rules.maxDepth + 1) :
    ∀ owner, (rules.expand index first).branches.cuts owner = [] := by
  obtain ⟨after, follows⟩ := follows_expand rules index first
  have present := Selection.mem_of_find? found
  apply follows.cuts_eq_nil known_branches (List.nodup_singleton _)
  · intro id member
    rw [List.mem_singleton.mp member]
    exact List.mem_map_of_mem present.1
  · rw [List.length_singleton]
    omega

/-- The same rules with another depth. -/
def Rules.withDepth (rules : Rules) (depth : Nat) : Rules :=
  { rules with maxDepth := depth }

/-- Where nothing is cut, a greater depth makes the same conversation. -/
theorem Rules.expand_deeper (whole : (rules.expand index first).branches.cuts first = [])
    {depth : Nat} (deep : rules.maxDepth ≤ depth) :
    (rules.withDepth depth).expand index first = rules.expand index first := by
  obtain ⟨after, follows⟩ := follows_expand rules index first
  obtain ⟨later, again⟩ := follows_expand (rules.withDepth depth) index first
  have lifted := follows.deeper whole (rules.withDepth depth) (fun _ => rfl) deep
  exact congrArg (Expansion.mk first) (again.unique lifted).1

theorem Rules.expand_withDepth (found : Selection.find? index first.id = some first)
    (enough : index.length ≤ rules.maxDepth + 1) {depth : Nat} (too : index.length ≤ depth + 1) :
    (rules.withDepth depth).expand index first = rules.expand index first := by
  have whole := rules.cuts_expand found enough first
  have others := (rules.withDepth depth).cuts_expand found too first
  rcases Nat.le_total rules.maxDepth depth with deep | shallow
  · exact expand_deeper whole deep
  · exact (expand_deeper others shallow).symm

end

namespace Compiler

variable {α : Type} [Coordinate α]

def withDepth (compiler : Compiler α) (depth : Nat) : Compiler α :=
  { compiler with rules := compiler.rules.withDepth depth }

/-- The depth has no part in drawing. -/
theorem drawBranches_withDepth (compiler : Compiler α) (depth : Nat) (owner : Template)
    (parent : Position α) (count index : Nat) (tree : Branches) (draft : Draft α) :
    (compiler.withDepth depth).drawBranches owner parent count index tree draft =
      compiler.drawBranches owner parent count index tree draft := by
  induction tree generalizing owner parent count index draft with
  | done => rfl
  | stop response ending rest ih =>
    simp only [drawBranches, ih]
    rfl
  | into response child inside rest insideIH restIH =>
    simp only [drawBranches, insideIH, restIH]
    rfl

theorem draw_withDepth (compiler : Compiler α) (depth : Nat) (expansion : Expansion) :
    (compiler.withDepth depth).draw expansion = compiler.draw expansion := by
  simp only [draw, drawOpen, drawBranches_withDepth]
  rfl

/-- A depth that makes the same conversation makes the same compilation. -/
theorem compile_withDepth_of_expand {compiler : Compiler α} {templates : List Template}
    {depth : Nat} (same : ∀ first others,
      (compiler.rules.select templates).templates = first :: others →
        (compiler.rules.withDepth depth).expand (first :: others) first =
          compiler.rules.expand (first :: others) first) :
    (compiler.withDepth depth).compile templates = compiler.compile templates := by
  have selection : (compiler.withDepth depth).rules.select templates =
    compiler.rules.select templates := rfl
  rw [compile, compile, selection, compileSelection, compileSelection]
  cases selected : (compiler.rules.select templates).templates with
  | nil => rfl
  | cons first others =>
    have expansion : (compiler.withDepth depth).rules.expand (first :: others) first =
      compiler.rules.expand (first :: others) first := same first others selected
    simp only [expansion, draw_withDepth]

theorem compile_withDepth {compiler : Compiler α} {templates : List Template}
    (enough : (compiler.rules.select templates).templates.length ≤ compiler.rules.maxDepth + 1)
    {depth : Nat} (too : (compiler.rules.select templates).templates.length ≤ depth + 1) :
    (compiler.withDepth depth).compile templates = compiler.compile templates := by
  apply compile_withDepth_of_expand
  intro first others selected
  rw [selected] at enough too
  exact Rules.expand_withDepth (Selection.find?_first first others) enough too

section

variable {compiler : Compiler α} {templates : List Template} {compilation : Compilation α}
  {first : Template} {others : List Template}

theorem exists_report (compiled : compiler.compile templates = .ok compilation)
    (selected : (compiler.rules.select templates).templates = first :: others) :
    ∃ draft : Draft α, compilation = ⟨draft.graph, (compiler.rules.select templates).report
      (compiler.rules.expand (first :: others) first) draft⟩ := by
  obtain ⟨draft, _, rfl⟩ := exists_draft compiled
  refine ⟨draft, ?_⟩
  simp only [Rules.account, selected]

theorem truncated_eq (compiled : compiler.compile templates = .ok compilation)
    (selected : (compiler.rules.select templates).templates = first :: others) :
    compilation.report.truncated =
      (compiler.rules.expand (first :: others) first).branches.cuts first := by
  obtain ⟨draft, rfl⟩ := exists_report compiled selected
  rfl

/-- Where the depth is as great as there are other templates, no branch is cut. -/
theorem truncated_eq_nil (compiled : compiler.compile templates = .ok compilation)
    (enough : (compiler.rules.select templates).templates.length ≤ compiler.rules.maxDepth + 1) :
    compilation.report.truncated = [] := by
  cases selected : (compiler.rules.select templates).templates with
  | nil =>
    obtain ⟨draft, _, rfl⟩ := exists_draft compiled
    simp only [Rules.account, selected]
    rfl
  | cons first others =>
    rw [selected] at enough
    rw [truncated_eq compiled selected]
    exact compiler.rules.cuts_expand (Selection.find?_first first others) enough first

theorem messageTemplates_eq_owners (compiled : compiler.compile templates = .ok compilation)
    (selected : (compiler.rules.select templates).templates = first :: others) :
    compilation.graph.messageTemplates =
      (compiler.rules.expand (first :: others) first).scenes.map fun scene => scene.owner.id := by
  have drawn := shows_plan compiled
  rw [selected] at drawn
  exact drawn.messageTemplates_scenes

/-- Messages are drawn for templates that the first one leads to within the depth, for all of them
if no branch is cut, and none is cut where the depth is as great as there are other templates. -/
theorem compile_covers (compiled : compiler.compile templates = .ok compilation)
    (selected : (compiler.rules.select templates).templates = first :: others) :
    first.id ∈ compilation.graph.messageTemplates ∧
    (∀ id ∈ compilation.graph.messageTemplates, ∃ steps ≤ compiler.rules.maxDepth,
      compiler.rules.Leads (first :: others) steps first.id id) ∧
    (∀ id ∈ compilation.graph.messageTemplates, ∀ template,
      Selection.find? (first :: others) id = some template → ∀ place response,
      (compiler.rules.kept (first :: others) template)[place]? = some response →
      ∀ target, response.next = some target →
        target ∈ compilation.graph.messageTemplates ∨
          compilation.graph.CutsBefore id place target) ∧
    (compilation.report.truncated = [] → ∀ id, id ∈ compilation.graph.messageTemplates ↔
      ∃ steps, compiler.rules.Leads (first :: others) steps first.id id) ∧
    ((first :: others).length ≤ compiler.rules.maxDepth + 1 →
      compilation.report.truncated = [] ∧ ∀ depth, (first :: others).length ≤ depth + 1 →
        (compiler.withDepth depth).compile templates = .ok compilation) := by
  have found : Selection.find? (first :: others) first.id = some first := by
    simp [Selection.find?]
  have drawn := shows_plan compiled
  rw [selected] at drawn
  rw [messageTemplates_eq_owners compiled selected, truncated_eq compiled selected]
  have within : ∀ id ∈ (compiler.rules.expand (first :: others) first).scenes.map
      (fun scene => scene.owner.id), ∃ steps ≤ compiler.rules.maxDepth,
      compiler.rules.Leads (first :: others) steps first.id id := by
    intro id member
    obtain ⟨scene, present, rfl⟩ := List.mem_map.mp member
    exact Rules.leads_scene found present
  refine ⟨List.mem_cons_self, within, ?_, ?_, ?_⟩
  · intro id member template known place response kept target next
    obtain ⟨scene, present, rfl⟩ := List.mem_map.mp member
    rw [Rules.find?_owner found present] at known
    cases known
    rcases drawn.scene_or_cut present kept next with ⟨other, entered, rfl⟩ | cut
    · exact .inl (List.mem_map_of_mem entered)
    · exact .inr cut
  · intro whole id
    constructor
    · intro member
      obtain ⟨steps, _, leads⟩ := within id member
      exact ⟨steps, leads⟩
    · rintro ⟨steps, leads⟩
      exact List.mem_map.mpr (Rules.exists_scene_of_leads whole found leads)
  · intro enough
    refine ⟨compiler.rules.cuts_expand found enough first, fun depth too => ?_⟩
    rw [← compiled]
    exact compile_withDepth (selected ▸ enough) (selected ▸ too)

end

theorem compile_covers_detour :
    ∃ compilation first others, Samples.shallow.compile Samples.detour = .ok compilation ∧
      (Samples.shallow.rules.select Samples.detour).templates = first :: others ∧
      first.id ∈ compilation.graph.messageTemplates ∧
      ∀ id ∈ compilation.graph.messageTemplates, ∃ steps ≤ Samples.shallow.rules.maxDepth,
        Samples.shallow.rules.Leads (first :: others) steps first.id id := by
  obtain ⟨compilation, compiled⟩ := Samples.exists_compile_detour
  have covers := compile_covers compiled rfl
  exact ⟨compilation, _, _, compiled, rfl, covers.1, covers.2.1⟩

end Compiler

end ReplyFlow
