import Mathlib.Data.List.Nodup
import ReplyFlow.Compile.Expansion

/-! How a conversation is followed, as a relation.

`Follows` has one rule for each way in which a branch can end, so what holds of every tree is shown
by induction on its derivations. The visited templates are the state of the traversal: they only
grow, and those that are new are the templates that the tree enters.
-/

set_option autoImplicit false

namespace ReplyFlow

variable {rules : Rules} {templates : List Template}

/-- The branches of one message make a tree, and add to what has been visited. Below the message
`depth` further levels are left. -/
inductive Follows (rules : Rules) (templates : List Template) :
    Nat → List Branch → Visited → Branches → Visited → Prop where
  | done {depth : Nat} {visited : Visited} :
    Follows rules templates depth [] visited .done visited
  | finish {depth : Nat} {response : Response} {others : List Branch} {visited after : Visited}
      {rest : Branches} :
    Follows rules templates depth others visited rest after →
    Follows rules templates depth (⟨response, none⟩ :: others) visited
      (.stop response .finish rest) after
  | back {depth : Nat} {response : Response} {child : Template} {others : List Branch}
      {visited after : Visited} {rest : Branches} :
    child.id ∈ visited → Follows rules templates depth others visited rest after →
    Follows rules templates depth (⟨response, some child⟩ :: others) visited
      (.stop response (.back child.id) rest) after
  | cut {response : Response} {child : Template} {others : List Branch} {visited after : Visited}
      {rest : Branches} :
    child.id ∉ visited → Follows rules templates 0 others visited rest after →
    Follows rules templates 0 (⟨response, some child⟩ :: others) visited
      (.stop response (.cut child.id) rest) after
  | into {depth : Nat} {response : Response} {child : Template} {others : List Branch}
      {visited between after : Visited} {inside rest : Branches} :
    child.id ∉ visited →
    Follows rules templates depth (rules.branches templates child) (child.id :: visited) inside
      between →
    Follows rules templates (depth + 1) others between rest after →
    Follows rules templates (depth + 1) (⟨response, some child⟩ :: others) visited
      (.into response child inside rest) after

/-- A way to enter templates that follows what is inside them one level deeper, or none where no
level is left. -/
inductive Enters (rules : Rules) (templates : List Template) :
    Nat → Option (Template → Visited → Branches × Visited) → Prop where
  | never : Enters rules templates 0 none
  | deeper {depth : Nat} {follow : Template → Visited → Branches × Visited} :
    (∀ child visited, Follows rules templates depth (rules.branches templates child)
      (child.id :: visited) (follow child visited).1 (follow child visited).2) →
    Enters rules templates (depth + 1) (some follow)

theorem follows_followBranches {depth : Nat}
    {enter : Option (Template → Visited → Branches × Visited)}
    (enters : Enters rules templates depth enter) (branches : List Branch) (visited : Visited) :
    Follows rules templates depth branches visited (followBranches enter branches visited).1
      (followBranches enter branches visited).2 := by
  induction branches generalizing visited with
  | nil => exact .done
  | cons branch others ih =>
    obtain ⟨response, next⟩ := branch
    cases next with
    | none => exact .finish (ih visited)
    | some child =>
      unfold followBranches
      by_cases known : child.id ∈ visited
      · rw [if_pos (List.contains_iff_mem.mpr known)]
        exact .back known (ih visited)
      · rw [if_neg (fun present => known (List.contains_iff_mem.mp present))]
        cases enters with
        | never => exact .cut known (ih visited)
        | deeper inside => exact .into known (inside child visited) (ih _)

theorem follows_follow (depth : Nat) (template : Template) (visited : Visited) :
    Follows rules templates depth (rules.branches templates template) (template.id :: visited)
      (rules.follow templates depth template visited).1
      (rules.follow templates depth template visited).2 := by
  -- on the depth for the levels; the branches of one level are the induction of the lemma before
  induction depth generalizing template visited with
  | zero => exact follows_followBranches .never _ _
  | succ depth ih => exact follows_followBranches (.deeper ih) _ _

theorem follows_expand (rules : Rules) (templates : List Template) (first : Template) :
    ∃ after, Follows rules templates rules.maxDepth (rules.branches templates first) [first.id]
      (rules.expand templates first).branches after :=
  ⟨_, follows_follow rules.maxDepth first []⟩

namespace Follows

variable {depth : Nat} {branches : List Branch} {visited after : Visited} {tree : Branches}

/-- The templates that are entered are put in front, the latest first. -/
theorem after_eq (follows : Follows rules templates depth branches visited tree after) :
    after = (tree.entered.map Template.id).reverse ++ visited := by
  induction follows with
  | done => rfl
  | finish _ ih => exact ih
  | back _ _ ih => exact ih
  | cut _ _ ih => exact ih
  | into _ _ _ insideIH restIH =>
    rw [restIH, insideIH]
    simp [Branches.entered]

theorem visited_subset (follows : Follows rules templates depth branches visited tree after) :
    visited ⊆ after := by
  rw [follows.after_eq]
  exact List.subset_append_right _ _

theorem mem_after (follows : Follows rules templates depth branches visited tree after)
    {id : Int} : id ∈ after ↔ id ∈ tree.entered.map Template.id ∨ id ∈ visited := by
  rw [follows.after_eq, List.mem_append, List.mem_reverse]

/-- No template is entered twice, nor one that was visited before. -/
theorem nodup_after (follows : Follows rules templates depth branches visited tree after)
    (distinct : visited.Nodup) : after.Nodup := by
  induction follows with
  | done => exact distinct
  | finish _ ih => exact ih distinct
  | back _ _ ih => exact ih distinct
  | cut _ _ ih => exact ih distinct
  | into new _ _ insideIH restIH => exact restIH (insideIH (List.nodup_cons.mpr ⟨new, distinct⟩))

theorem nodup_entered (follows : Follows rules templates depth branches visited tree after)
    (distinct : visited.Nodup) :
    (tree.entered.map Template.id).Nodup ∧ ∀ id ∈ tree.entered.map Template.id, id ∉ visited := by
  have all := follows.nodup_after distinct
  rw [follows.after_eq, List.nodup_append] at all
  refine ⟨List.nodup_reverse.mp all.1, fun id member present => ?_⟩
  exact all.2.2 id (List.mem_reverse.mpr member) id present rfl

/-- The branches and what has been visited determine what follows. -/
theorem unique (follows : Follows rules templates depth branches visited tree after)
    {other : Branches} {later : Visited}
    (again : Follows rules templates depth branches visited other later) :
    tree = other ∧ after = later := by
  induction follows generalizing other later with
  | done => cases again; exact ⟨rfl, rfl⟩
  | finish _ ih =>
    cases again with
    | finish rest =>
      obtain ⟨rfl, rfl⟩ := ih rest
      exact ⟨rfl, rfl⟩
  | back known _ ih =>
    cases again with
    | back _ rest =>
      obtain ⟨rfl, rfl⟩ := ih rest
      exact ⟨rfl, rfl⟩
    | cut new _ => exact absurd known new
    | into new _ _ => exact absurd known new
  | cut new _ ih =>
    cases again with
    | back known _ => exact absurd known new
    | cut _ rest =>
      obtain ⟨rfl, rfl⟩ := ih rest
      exact ⟨rfl, rfl⟩
  | into new _ _ insideIH restIH =>
    cases again with
    | back known _ => exact absurd known new
    | into _ inside rest =>
      obtain ⟨rfl, rfl⟩ := insideIH inside
      obtain ⟨rfl, rfl⟩ := restIH rest
      exact ⟨rfl, rfl⟩

end Follows

end ReplyFlow
