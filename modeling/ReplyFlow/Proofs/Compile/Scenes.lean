import ReplyFlow.Proofs.Compile.Traversal

/-! The scenes of a conversation: its messages one by one, each with the branches that it offers.

A tree says what follows what, a scene only where each branch of one message leads. What is said of
the branches of one message in a tree is said here of every scene.
-/

set_option autoImplicit false

namespace ReplyFlow

/-- What a branch leads to: the end, a message, or a mark that stands for a template. -/
inductive Landing where
  | finish
  | message (template : Int)
  | continuation (template : Int)
  deriving Repr, DecidableEq

def Ending.landing : Ending → Landing
  | .finish => .finish
  | .back target => .message target
  | .cut target => .continuation target

/-- A branch, and what it leads to. -/
structure Turn where
  response : Response
  landing : Landing
  deriving Repr, DecidableEq

structure Scene where
  owner : Template
  turns : List Turn
  deriving Repr, DecidableEq

namespace Branches

def turns : Branches → List Turn
  | done => []
  | stop response ending rest => ⟨response, ending.landing⟩ :: rest.turns
  | into response child _ rest => ⟨response, .message child.id⟩ :: rest.turns

/-- The scenes of the templates that are entered, in order. -/
def scenes : Branches → List Scene
  | done => []
  | stop _ _ rest => rest.scenes
  | into _ child inside rest => ⟨child, inside.turns⟩ :: inside.scenes ++ rest.scenes

theorem map_owner_scenes (tree : Branches) : tree.scenes.map Scene.owner = tree.entered := by
  induction tree with
  | done => rfl
  | stop _ _ _ ih => exact ih
  | into _ child _ _ insideIH restIH => simp [scenes, entered, insideIH, restIH]

theorem map_owner_id_scenes (tree : Branches) :
    tree.scenes.map (fun scene => scene.owner.id) = tree.entered.map Template.id := by
  rw [← map_owner_scenes, List.map_map]
  rfl

end Branches

def Expansion.scenes (expansion : Expansion) : List Scene :=
  ⟨expansion.first, expansion.branches.turns⟩ :: expansion.branches.scenes

theorem Expansion.map_owner_scenes (expansion : Expansion) :
    expansion.scenes.map Scene.owner = expansion.entered := by
  simp [scenes, entered, Branches.map_owner_scenes]

/-- A branch without a template leads to the end; any other one leads to the message of its
template, or to a mark in its place. -/
inductive Lands : Option Template → Landing → Prop where
  | finish : Lands none .finish
  | message {child : Template} : Lands (some child) (.message child.id)
  | continuation {child : Template} : Lands (some child) (.continuation child.id)

def Turn.Plays (turn : Turn) (branch : Branch) : Prop :=
  turn.response = branch.response ∧ Lands branch.next turn.landing

namespace Follows

variable {rules : Rules} {templates : List Template} {depth : Nat} {branches : List Branch}
  {visited after : Visited} {tree : Branches}

theorem plays (follows : Follows rules templates depth branches visited tree after) :
    List.Forall₂ Turn.Plays tree.turns branches := by
  induction follows with
  | done => exact .nil
  | finish _ ih => exact .cons ⟨rfl, .finish⟩ ih
  | back _ _ ih => exact .cons ⟨rfl, .message⟩ ih
  | cut _ _ ih => exact .cons ⟨rfl, .continuation⟩ ih
  | into _ _ _ _ ih => exact .cons ⟨rfl, .message⟩ ih

/-- Every message that a branch leads to is drawn. -/
theorem message_mem_after (follows : Follows rules templates depth branches visited tree after)
    {turn : Turn} (member : turn ∈ tree.turns) {id : Int} (lands : turn.landing = .message id) :
    id ∈ after := by
  induction follows with
  | done => cases member
  | finish _ ih =>
    cases member with
    | head => cases lands
    | tail _ member => exact ih member
  | back known rest ih =>
    cases member with
    -- what has been visited stays visited
    | head =>
      cases lands
      exact rest.visited_subset known
    | tail _ member => exact ih member
  | cut _ _ ih =>
    cases member with
    | head => cases lands
    | tail _ member => exact ih member
  | into _ inside rest _ ih =>
    cases member with
    | head =>
      cases lands
      exact rest.visited_subset (inside.visited_subset List.mem_cons_self)
    | tail _ member => exact ih member

/-- Every scene is followed for itself, at some level below. -/
theorem of_mem_scenes (follows : Follows rules templates depth branches visited tree after)
    {scene : Scene} (member : scene ∈ tree.scenes) :
    ∃ below < depth, ∃ before inside between,
      Follows rules templates below (rules.branches templates scene.owner)
        (scene.owner.id :: before) inside between ∧
      inside.turns = scene.turns ∧ visited ⊆ before ∧ between ⊆ after := by
  induction follows with
  | done => cases member
  | finish _ ih => exact ih member
  | back _ _ ih => exact ih member
  | cut _ _ ih => exact ih member
  | @into depth _ child _ visited _ _ _ _ _ inside rest insideIH restIH =>
    rw [Branches.scenes, List.cons_append, List.mem_cons, List.mem_append] at member
    rcases member with rfl | member | member
    -- the scene of the child itself, those below it, and those of later branches
    · exact ⟨depth, Nat.lt_succ_self depth, _, _, _, inside, rfl, List.Subset.refl _,
        rest.visited_subset⟩
    · obtain ⟨below, lower, before, tree, between, found, same, older, newer⟩ := insideIH member
      exact ⟨below, Nat.lt_succ_of_lt lower, before, tree, between, found, same,
        fun _ known => older (List.mem_cons_of_mem _ known),
        fun _ known => rest.visited_subset (newer known)⟩
    · obtain ⟨below, lower, before, tree, between, found, same, older, newer⟩ := restIH member
      exact ⟨below, lower, before, tree, between, found, same,
        fun _ known => older (inside.visited_subset (List.mem_cons_of_mem _ known)), newer⟩

end Follows

namespace Rules

variable {rules : Rules} {templates : List Template} {first : Template}

theorem owners_expand (rules : Rules) (templates : List Template) (first : Template) :
    (rules.expand templates first).scenes.map (fun scene => scene.owner.id) =
      first.id :: (rules.expand templates first).branches.entered.map Template.id :=
  congrArg (List.cons first.id) (Branches.map_owner_id_scenes _)

/-- Every message has one scene. -/
theorem nodup_owners (rules : Rules) (templates : List Template) (first : Template) :
    ((rules.expand templates first).scenes.map fun scene => scene.owner.id).Nodup := by
  obtain ⟨after, follows⟩ := follows_expand rules templates first
  obtain ⟨distinct, new⟩ := follows.nodup_entered (List.nodup_singleton first.id)
  rw [owners_expand, List.nodup_cons]
  exact ⟨fun member => new _ member List.mem_cons_self, distinct⟩

/-- Every scene is followed for itself, and what was visited by then has a scene in the end. -/
theorem follows_scene {scene : Scene} (member : scene ∈ (rules.expand templates first).scenes) :
    ∃ depth ≤ rules.maxDepth, ∃ before tree after,
      Follows rules templates depth (rules.branches templates scene.owner)
        (scene.owner.id :: before) tree after ∧
      tree.turns = scene.turns ∧
      ∀ id ∈ after, ∃ other ∈ (rules.expand templates first).scenes, other.owner.id = id := by
  obtain ⟨after, follows⟩ := follows_expand rules templates first
  have visited : ∀ id ∈ after,
      ∃ other ∈ (rules.expand templates first).scenes, other.owner.id = id := by
    intro id known
    rw [follows.mem_after, List.mem_singleton, or_comm, ← List.mem_cons, ← owners_expand] at known
    exact List.mem_map.mp known
  rcases List.mem_cons.mp member with rfl | below
  · exact ⟨_, Nat.le_refl _, [], _, after, follows, rfl, visited⟩
  · obtain ⟨depth, lower, before, tree, between, found, same, _, newer⟩ := follows.of_mem_scenes below
    exact ⟨depth, Nat.le_of_lt lower, before, tree, between, found, same,
      fun id known => visited id (newer known)⟩

/-- A message that a branch leads to has a scene. -/
theorem exists_scene {scene : Scene} (member : scene ∈ (rules.expand templates first).scenes)
    {turn : Turn} (offered : turn ∈ scene.turns) {id : Int} (lands : turn.landing = .message id) :
    ∃ other ∈ (rules.expand templates first).scenes, other.owner.id = id := by
  obtain ⟨_, _, _, tree, _, follows, same, visited⟩ := follows_scene member
  rw [← same] at offered
  exact visited id (follows.message_mem_after offered lands)

theorem plays_scene {scene : Scene} (member : scene ∈ (rules.expand templates first).scenes) :
    List.Forall₂ Turn.Plays scene.turns (rules.branches templates scene.owner) := by
  obtain ⟨_, _, _, _, _, follows, same, _⟩ := follows_scene member
  exact same ▸ follows.plays

end Rules

end ReplyFlow
