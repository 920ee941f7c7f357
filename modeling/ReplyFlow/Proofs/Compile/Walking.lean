import ReplyFlow.Graph.Query
import ReplyFlow.Proofs.Compile.Blueprint
import ReplyFlow.Proofs.Compile.Replies

/-! Walks through a conversation, choice by choice.

The templates can be walked through, and so can the graph that is compiled from them. On both walks
the same things are seen, except that the graph breaks off where a branch is cut.
-/

set_option autoImplicit false

namespace ReplyFlow

inductive Sight where
  | message (template : Int)
  | option (key : String)
  | finish
  | continuation (template : Int)
  deriving Repr, DecidableEq

/-- Places to walk through: what is seen at each of them, and the ways that lead on. -/
structure Terrain (σ : Type) where
  sights : σ → List Sight
  ways : σ → List (String × σ)

variable {σ τ : Type}

/-- What is seen where each choice in turn takes one of the ways; a choice that is not offered ends
the walk. -/
def Terrain.walk (terrain : Terrain σ) : List Nat → σ → List Sight
  | [], place => terrain.sights place
  | choice :: rest, place =>
    terrain.sights place ++ match (terrain.ways place)[choice]? with
      | some (key, next) => .option key :: terrain.walk rest next
      | none => []

/-- The same, or the same up to a mark that stands for the template which comes next. -/
def BreaksOff (short long : List Sight) : Prop :=
  short = long ∨ ∃ before template after,
    short = before ++ [.continuation template] ∧ long = before ++ .message template :: after

theorem BreaksOff.append {short long : List Sight} (front : List Sight)
    (breaks : BreaksOff short long) : BreaksOff (front ++ short) (front ++ long) := by
  rcases breaks with rfl | ⟨before, template, after, rfl, rfl⟩
  · exact .inl rfl
  · exact .inr ⟨front ++ before, template, after, (List.append_assoc _ _ _).symm,
      (List.append_assoc _ _ _).symm⟩

theorem BreaksOff.cons {short long : List Sight} (first : Sight)
    (breaks : BreaksOff short long) : BreaksOff (first :: short) (first :: long) :=
  breaks.append [first]

/-- Related places look the same and have the same ways, or the first of them is a mark for what is
seen at the second one. -/
def Terrain.Tracks (left : Terrain σ) (right : Terrain τ) (related : σ → τ → Prop) : Prop :=
  ∀ place other, related place other →
    left.sights place = right.sights other ∧ List.Forall₂
        (fun way across => way.1 = across.1 ∧ related way.2 across.2)
        (left.ways place) (right.ways other) ∨
      ∃ template after, left.sights place = [.continuation template] ∧ left.ways place = [] ∧
        right.sights other = .message template :: after

theorem rel_getElem? {β γ : Type} {related : β → γ → Prop} {items : List β} {others : List γ}
    (all : List.Forall₂ related items others) (index : Nat) :
    Option.Rel related items[index]? others[index]? := by
  induction all generalizing index with
  | nil => exact .none
  | cons first _ ih =>
    cases index with
    | zero => exact .some first
    | succ index => exact ih index

theorem Terrain.Tracks.walk {left : Terrain σ} {right : Terrain τ} {related : σ → τ → Prop}
    (tracks : left.Tracks right related) {place : σ} {other : τ} (start : related place other)
    (choices : List Nat) : BreaksOff (left.walk choices place) (right.walk choices other) := by
  -- on the choices, for any places that go together
  induction choices generalizing place other with
  | nil =>
    rcases tracks place other start with ⟨same, _⟩ | ⟨template, after, mark, _, message⟩
    · exact .inl same
    · exact .inr ⟨[], template, after, mark, message⟩
  | cons choice rest ih =>
    unfold Terrain.walk
    rcases tracks place other start with ⟨same, ways⟩ | ⟨template, after, mark, closed, message⟩
    · rw [same]
      apply BreaksOff.append
      -- a choice is offered on both sides or on none
      have taken := rel_getElem? ways choice
      cases here : (left.ways place)[choice]? with
      | none =>
        rw [here] at taken
        cases there : (right.ways other)[choice]? with
        | none => exact .inl rfl
        | some => rw [there] at taken; cases taken
      | some way =>
        rw [here] at taken
        cases there : (right.ways other)[choice]? with
        | none => rw [there] at taken; cases taken
        | some across =>
          rw [there] at taken
          cases taken with
          | some pair =>
            simp only [pair.1]
            exact (ih pair.2).cons _
    · rw [mark, closed, message]
      exact .inr ⟨[], template, _, rfl, rfl⟩

/-! ## Walking through templates -/

/-- The templates as a terrain. A place is the template whose message has been sent last, or nothing
at the end. -/
def Rules.terrain (rules : Rules) (index : List Template) : Terrain (Option Int) where
  sights
    | none => [.finish]
    | some id =>
      match Selection.find? index id with
      | none => []
      | some template => .message id :: if rules.kept index template = [] then [.finish] else []
  ways place :=
    match place.bind (Selection.find? index) with
    | none => []
    | some template =>
      (rules.kept index template).map fun response => (response.key, response.next)

/-- The conversation from the first template on. -/
def Rules.walk (rules : Rules) (index : List Template) (choices : List Nat) : List Sight :=
  (rules.terrain index).walk choices (index.head?.map Template.id)

/-! ## Walking through a graph -/

def NodeContent.sight? (content : NodeContent) : Option Sight :=
  match content.kind, content.payload with
  | .message, .message _ templateId _ _ => some (.message templateId)
  | .finish, .marker _ true (some templateId) => some (.continuation templateId)
  | .finish, .marker _ false _ => some .finish
  | _, _ => none

namespace Graph

variable {α : Type} (graph : Graph α)

def content? (id : String) : Option NodeContent :=
  (graph.node? id).map Node.content

def sight? (id : String) : Option Sight :=
  (graph.content? id).bind NodeContent.sight?

/-- A way over a condition and the delay behind it. -/
def way? (edge : Edge) : Option (String × String) :=
  match (graph.content? edge.target).map NodeContent.payload, graph.outgoing edge.target with
  | some (.condition _ _ _ expected), [wait] =>
    match (graph.content? wait.target).map NodeContent.payload, graph.outgoing wait.target with
    | some (.delay ..), [next] => some (expected, next.target)
    | _, _ => none
  | _, _ => none

/-- A graph as a terrain. A place is the id of a message, of the end, or of a mark; an end that an
edge leads to without a condition is seen at once. -/
def terrain : Terrain String where
  sights id := (graph.sight? id).toList
    ++ (graph.outgoing id).filterMap fun edge => (graph.sight? edge.target).filter (· = .finish)
  ways id := (graph.outgoing id).filterMap graph.way?

/-- The conversation from the one step on that follows the start. -/
def walk (choices : List Nat) : List Sight :=
  match graph.outgoing StepName.start.text with
  | [edge] => graph.terrain.walk choices edge.target
  | _ => []

end Graph

end ReplyFlow
