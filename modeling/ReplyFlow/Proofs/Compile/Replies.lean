import Mathlib.Data.List.Forall2
import ReplyFlow.Proofs.Compile.Scenes

/-! Which replies make a branch, and where each branch of a scene comes from. -/

set_option autoImplicit false

namespace ReplyFlow

theorem Selection.mem_of_find? {index : List Template} {id : Int} {template : Template}
    (found : Selection.find? index id = some template) : template ∈ index ∧ template.id = id := by
  unfold find? at found
  have matched := List.find?_some found
  exact ⟨List.mem_of_find?_eq_some found, beq_iff_eq.mp matched⟩

theorem Selection.find?_first (first : Template) (others : List Template) :
    find? (first :: others) first.id = some first := by
  simp [find?]

theorem Selection.isSome_find? (index : List Template) (id : Int) :
    (find? index id).isSome = index.any (·.id == id) := by
  rw [Bool.eq_iff_iff, find?, List.find?_isSome, List.any_eq_true]

namespace Rules

variable {rules : Rules} {index : List Template}

/-- A reply is kept if it leads to a template that takes part, or if it leads nowhere and such
replies go to the end. -/
def keeps (rules : Rules) (index : List Template) (response : Response) : Bool :=
  match response.next with
  | none => rules.policy = .finish
  | some target => index.any (·.id == target)

def kept (rules : Rules) (index : List Template) (template : Template) : List Response :=
  template.responses.filter (rules.keeps index)

theorem branch?_eq (response : Response) :
    rules.branch? index response =
      if rules.keeps index response then
        some ⟨response, response.next.bind (Selection.find? index)⟩
      else none := by
  unfold branch? Response.lead keeps
  cases next : response.next with
  | none => by_cases policy : rules.policy = .finish <;> simp [policy]
  | some target =>
    cases found : Selection.find? index target with
    | none =>
      have absent : index.any (·.id == target) = false := by
        rw [← Selection.isSome_find?, found]
        rfl
      simp [found, absent]
    | some child =>
      have present : index.any (·.id == target) = true := by
        rw [← Selection.isSome_find?, found]
        rfl
      simp [found, present]

theorem branches_eq (template : Template) :
    rules.branches index template = (rules.kept index template).map fun response =>
      ⟨response, response.next.bind (Selection.find? index)⟩ := by
  rw [branches, kept, ← List.filterMap_eq_map, List.filterMap_filter]
  congr
  funext response
  exact branch?_eq response

/-- The target of a kept reply takes part. -/
theorem exists_target {template : Template} {response : Response}
    (member : response ∈ rules.kept index template) {target : Int}
    (next : response.next = some target) :
    ∃ child, Selection.find? index target = some child ∧ child.id = target := by
  have keeps := (List.mem_filter.mp member).2
  rw [Rules.keeps, next] at keeps
  have found : (Selection.find? index target).isSome :=
    (Selection.isSome_find? index target).trans keeps
  obtain ⟨child, found⟩ := Option.isSome_iff_exists.mp found
  exact ⟨child, found, (Selection.mem_of_find? found).2⟩

end Rules

/-- A template that a branch leads to takes part. -/
def Branch.Known (branch : Branch) (index : List Template) : Prop :=
  ∀ child, branch.next = some child → Selection.find? index child.id = some child

theorem Rules.known_branches {rules : Rules} {index : List Template} {template : Template} :
    ∀ branch ∈ rules.branches index template, branch.Known index := by
  intro branch member child next
  rw [branches_eq] at member
  obtain ⟨response, _, rfl⟩ := List.mem_map.mp member
  obtain ⟨target, _, found⟩ := Option.bind_eq_some_iff.mp next
  exact (Selection.mem_of_find? found).2 ▸ found

/-- The template that a branch leads to, whether its message is drawn or a mark in its place. -/
def Landing.target? : Landing → Option Int
  | finish => none
  | message template | continuation template => some template

theorem Turn.Plays.target?_eq {turn : Turn} {branch : Branch} (plays : turn.Plays branch) :
    turn.landing.target? = branch.next.map Template.id := by
  obtain ⟨response, landing⟩ := turn
  obtain ⟨reply, next⟩ := branch
  obtain ⟨_, lands⟩ := plays
  cases lands <;> rfl

/-- Everything that is entered takes part. -/
theorem Follows.find?_entered {rules : Rules} {index : List Template} {depth : Nat}
    {branches : List Branch} {visited after : Visited} {tree : Branches}
    (follows : Follows rules index depth branches visited tree after)
    (known : ∀ branch ∈ branches, branch.Known index) :
    ∀ template ∈ tree.entered, Selection.find? index template.id = some template := by
  induction follows with
  | done =>
    intro template member
    cases member
  | finish _ ih => exact ih (List.forall_mem_of_forall_mem_cons known)
  | back _ _ ih => exact ih (List.forall_mem_of_forall_mem_cons known)
  | cut _ _ ih => exact ih (List.forall_mem_of_forall_mem_cons known)
  | @into _ _ child _ _ _ _ _ _ _ _ _ insideIH restIH =>
    intro template member
    rw [Branches.entered, List.cons_append, List.mem_cons, List.mem_append] at member
    rcases member with rfl | below | beside
    · exact known _ List.mem_cons_self template rfl
    -- below the child it is the child's own branches that are known
    · exact insideIH Rules.known_branches template below
    · exact restIH (List.forall_mem_of_forall_mem_cons known) template beside

namespace Rules

variable {rules : Rules} {index : List Template} {first : Template}

theorem find?_owner (known : Selection.find? index first.id = some first) {scene : Scene}
    (member : scene ∈ (rules.expand index first).scenes) :
    Selection.find? index scene.owner.id = some scene.owner := by
  have owner : scene.owner ∈ (rules.expand index first).entered := by
    rw [← Expansion.map_owner_scenes]
    exact List.mem_map_of_mem member
  rcases List.mem_cons.mp owner with same | below
  · rw [same]
    exact known
  · obtain ⟨_, follows⟩ := follows_expand rules index first
    exact follows.find?_entered known_branches _ below

/-- The branches of a scene are the kept replies of its template, and lead where these lead. -/
theorem map_turns {scene : Scene} (member : scene ∈ (rules.expand index first).scenes) :
    scene.turns.map (fun turn => (turn.response, turn.landing.target?)) =
      (rules.kept index scene.owner).map fun response => (response, response.next) := by
  have played : scene.turns.map (fun turn => (turn.response, turn.landing.target?)) =
      (rules.branches index scene.owner).map
        fun branch => (branch.response, branch.next.map Template.id) := by
    rw [← List.forall₂_eq_eq_eq, List.forall₂_map_left_iff, List.forall₂_map_right_iff]
    exact (plays_scene member).imp fun _ _ plays => Prod.ext plays.1 plays.target?_eq
  -- a target that takes part is found by its id, so the branch leads where the reply does
  rw [played, branches_eq, List.map_map]
  apply List.map_congr_left
  intro response reply
  cases next : response.next with
  | none => simp [next]
  | some target =>
    obtain ⟨child, found, same⟩ := exists_target reply next
    simp [next, found, same]

theorem map_response_turns {scene : Scene} (member : scene ∈ (rules.expand index first).scenes) :
    scene.turns.map Turn.response = rules.kept index scene.owner := by
  have responses := congrArg (List.map Prod.fst) (map_turns member)
  simpa [Function.comp_def] using responses

theorem next_turn {scene : Scene} (member : scene ∈ (rules.expand index first).scenes) {turn : Turn}
    (offered : turn ∈ scene.turns) : turn.response.next = turn.landing.target? := by
  have pair : (turn.response, turn.landing.target?) ∈
      (rules.kept index scene.owner).map fun response => (response, response.next) := by
    rw [← map_turns member]
    exact List.mem_map_of_mem offered
  obtain ⟨response, _, same⟩ := List.mem_map.mp pair
  rw [Prod.mk.injEq] at same
  rw [← same.1, ← same.2]

end Rules

end ReplyFlow
