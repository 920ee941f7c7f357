import ReplyFlow.Proofs.Compile.Trunk

/-! No two edges of a compiled graph join the same nodes or have the same id.

The links of one branch carry its number at one of their ends, and all links of one template leave
one of its own steps. So links of different branches, or of different templates, join different
steps, and it remains to look at the three links of one branch.
-/

set_option autoImplicit false

namespace ReplyFlow

variable {rules : Rules}

/-- Links that leave different steps differ in their ends. -/
theorem Link.nodup_ends_of_source {links : List Link} (distinct : (links.map Link.source).Nodup) :
    (links.map Link.ends).Nodup := by
  apply List.Nodup.of_map Prod.fst
  have texts := distinct.map fun _ _ => StepName.text_injective
  rw [List.map_map] at texts ⊢
  exact texts

theorem Link.nodup_ends_append {first second : List Link} (here : (first.map Link.ends).Nodup)
    (there : (second.map Link.ends).Nodup) (apart : ∀ link ∈ first, ∀ other ∈ second,
      link.source = other.source → link.target ≠ other.target) :
    ((first ++ second).map Link.ends).Nodup := by
  rw [List.map_append, List.nodup_append]
  refine ⟨here, there, ?_⟩
  rintro _ member _ later rfl
  obtain ⟨link, present, rfl⟩ := List.mem_map.mp member
  obtain ⟨other, follows, same⟩ := List.mem_map.mp later
  obtain ⟨source, target⟩ := Link.of_ends_eq same.symm
  exact apart link present other follows source target

/-! ## Branches -/

/-- The number of the branch that a link belongs to: its source has it, or else its target. -/
def Link.index? (link : Link) : Option Int :=
  link.source.index?.or link.target.index?

theorem Turn.index?_of_link {owner : Int} {index : Nat} {turn : Turn} :
    ∀ link ∈ (turn.plan rules owner index).links, link.index? = some (index : Int) := by
  intro link member
  rw [links_plan] at member
  simp only [List.mem_cons, List.not_mem_nil, or_false] at member
  rcases member with rfl | rfl | rfl <;> rfl

theorem Rules.index?_of_link {owner : Int} {index : Nat} {turns : List Turn} :
    ∀ link ∈ (rules.turnsPlan owner index turns).links,
      ∃ later : Nat, index ≤ later ∧ link.index? = some (later : Int) := by
  intro link member
  obtain ⟨turn, later, offered, inside⟩ := mem_links_turnsPlan.mp member
  exact ⟨later, List.le_snd_of_mem_zipIdx offered, Turn.index?_of_link link inside⟩

theorem Turn.nodup_ends (owner : Int) (index : Nat) (turn : Turn) :
    ((turn.plan rules owner index).links.map Link.ends).Nodup := by
  apply Link.nodup_ends_of_source
  simp [links_plan]

theorem Rules.nodup_ends_turnsPlan (owner : Int) (index : Nat) (turns : List Turn) :
    ((rules.turnsPlan owner index turns).links.map Link.ends).Nodup := by
  induction turns generalizing index with
  | nil => exact List.nodup_nil
  | cons turn rest ih =>
    apply Link.nodup_ends_append (turn.nodup_ends owner index) (ih (index + 1))
    -- equal ends would have equal numbers
    intro link here other there source target
    have numbered := Turn.index?_of_link link here
    obtain ⟨later, bound, numberedLater⟩ := index?_of_link other there
    rw [Link.index?, source, target, ← Link.index?, numberedLater, Option.some.injEq] at numbered
    omega

/-! ## Scenes and conversations -/

theorem Scene.nodup_ends (scene : Scene) : ((scene.plan rules).links.map Link.ends).Nodup := by
  have turns := rules.nodup_ends_turnsPlan scene.owner.id 0 scene.turns
  change ((_ ++ scene.closingPlan.links).map Link.ends).Nodup
  rw [closingPlan]
  split
  · rename_i silent
    rw [silent]
    exact List.nodup_singleton _
  · rw [List.append_nil]
    exact turns

theorem Rules.nodup_ends_scenesPlan {scenes : List Scene}
    (distinct : (scenes.map fun scene => scene.owner.id).Nodup) :
    ((rules.scenesPlan scenes).links.map Link.ends).Nodup := by
  induction scenes with
  | nil => exact List.nodup_nil
  | cons scene rest ih =>
    rw [List.map_cons, List.nodup_cons] at distinct
    apply Link.nodup_ends_append scene.nodup_ends (ih distinct.2)
    -- links of different templates leave steps of different owners
    intro link here other there source _
    obtain ⟨owner, member, inside⟩ := List.mem_flatMap.mp there
    have owned := Scene.owner_of_link link here
    rw [source, Scene.owner_of_link other inside, Option.some.injEq] at owned
    apply distinct.1
    rw [← owned]
    exact List.mem_map_of_mem member

theorem Rules.nodup_ends_plan (rules : Rules) (templates : List Template) :
    ((rules.plan templates).links.map Link.ends).Nodup := by
  cases templates with
  | nil => exact List.nodup_singleton _
  | cons first others =>
    have same := rules.perm_conversationPlan (first :: others) first
    have inside := rules.nodup_ends_scenesPlan (rules.nodup_owners (first :: others) first)
    rw [links_plan_cons, List.map_cons, List.nodup_cons]
    refine ⟨fun member => ?_, (same.links.map Link.ends).nodup_iff.mpr inside⟩
    -- nothing else leaves the start
    obtain ⟨link, present, ends⟩ := List.mem_map.mp member
    rw [same.links.mem_iff] at present
    obtain ⟨scene, _, inner⟩ := List.mem_flatMap.mp present
    have owned := Scene.owner_of_link link inner
    rw [(Link.of_ends_eq ends).1] at owned
    cases owned

/-! ## Edges -/

theorem Graph.Shows.ends_edges {α : Type} {graph : Graph α} {plan : Blueprint}
    (drawn : graph.Shows plan) :
    graph.edges.map (fun edge => (edge.source, edge.target)) = plan.links.map Link.ends := by
  rw [drawn.edges, List.map_map]
  rfl

theorem Graph.Shows.edgeName_injective {α : Type} {graph : Graph α} {plan : Blueprint}
    (drawn : graph.Shows plan) {source target first second : String} (leaves : source ∈ graph.ids)
    (enters : target ∈ graph.ids) (begins : first ∈ graph.ids) (ends : second ∈ graph.ids)
    (same : edgeName source target = edgeName first second) : source = first ∧ target = second := by
  rw [drawn.ids_eq] at leaves enters begins ends
  obtain ⟨source, _, rfl⟩ := List.mem_map.mp leaves
  obtain ⟨target, _, rfl⟩ := List.mem_map.mp enters
  obtain ⟨first, _, rfl⟩ := List.mem_map.mp begins
  obtain ⟨second, _, rfl⟩ := List.mem_map.mp ends
  obtain ⟨sources, targets⟩ := StepName.edgeName_injective same
  exact ⟨congrArg StepName.text sources, congrArg StepName.text targets⟩

namespace Compiler

variable {α : Type} [Coordinate α] {compiler : Compiler α} {templates : List Template}
  {compilation : Compilation α}

/-- Edges of a compiled graph differ in their ends and in their ids. An id is the name that the
ends of the edge have together, and no other two nodes of the graph have that name. -/
theorem compile_distinct_edges (compiled : compiler.compile templates = .ok compilation) :
    (compilation.graph.edges.map fun edge => (edge.source, edge.target)).Nodup ∧
      (compilation.graph.edges.map Edge.id).Nodup ∧
      (∀ edge ∈ compilation.graph.edges, edge.id = edgeName edge.source edge.target ∧
        edge.source ∈ compilation.graph.ids ∧ edge.target ∈ compilation.graph.ids) ∧
      ∀ source ∈ compilation.graph.ids, ∀ target ∈ compilation.graph.ids,
        ∀ first ∈ compilation.graph.ids, ∀ second ∈ compilation.graph.ids,
          edgeName source target = edgeName first second → source = first ∧ target = second := by
  have drawn := shows_plan compiled
  have sound := compiler.rules.sound_plan (compiler.rules.select templates).templates
  have joined := drawn.joined sound.joined
  have named : ∀ edge ∈ compilation.graph.edges, edge.id = edgeName edge.source edge.target := by
    intro edge member
    obtain ⟨link, _, rfl⟩ := drawn.exists_link edge member
    rfl
  have ends : (compilation.graph.edges.map fun edge => (edge.source, edge.target)).Nodup := by
    rw [drawn.ends_edges]
    exact compiler.rules.nodup_ends_plan _
  refine ⟨ends, ?_, fun edge member => ⟨named edge member, joined edge member⟩,
    fun _ leaves _ enters _ begins _ ends same =>
      drawn.edgeName_injective leaves enters begins ends same⟩
  apply ends.of_map _ |>.map_on
  intro edge member other present same
  rw [named edge member, named other present] at same
  obtain ⟨sources, targets⟩ := drawn.edgeName_injective (joined edge member).1
    (joined edge member).2 (joined other present).1 (joined other present).2 same
  exact List.inj_on_of_nodup_map ends member present (Prod.ext sources targets)

end Compiler

theorem Compiler.compile_distinct_edges_negative :
    ∃ compilation, Samples.shallow.compile Samples.negative = .ok compilation ∧
      (compilation.graph.edges.map fun edge => (edge.source, edge.target)).Nodup ∧
      (compilation.graph.edges.map Edge.id).Nodup := by
  obtain ⟨compilation, compiled⟩ : ∃ compilation,
      Samples.shallow.compile Samples.negative = .ok compilation :=
    exists_ok_of_isSome (by decide +kernel)
  obtain ⟨ends, ids, _⟩ := compile_distinct_edges compiled
  exact ⟨compilation, compiled, ends, ids⟩

end ReplyFlow
