import ReplyFlow.Compile.Selection

/-! The tree of a conversation.

Starting from the first template every branch is followed before the next one. A template is
entered once; a later branch that leads to it goes back. A branch that would lead too deep is cut.
Nothing here depends on places.
-/

set_option autoImplicit false

namespace ReplyFlow

/-- How a branch ends that does not enter a template. -/
inductive Ending where
  | finish
  | back (target : Int)
  | cut (target : Int)
  deriving Repr, DecidableEq

/-- The branches of one message from some branch on; `into` enters a template, whose own branches
are `inside`. -/
inductive Branches where
  | done
  | stop (response : Response) (ending : Ending) (rest : Branches)
  | into (response : Response) (child : Template) (inside rest : Branches)
  deriving Repr

namespace Branches

def length : Branches → Nat
  | done => 0
  | stop _ _ rest => rest.length + 1
  | into _ _ _ rest => rest.length + 1

/-- The templates that are entered, in order. -/
def entered : Branches → List Template
  | done => []
  | stop _ _ rest => rest.entered
  | into _ child inside rest => child :: inside.entered ++ rest.entered

/-- Some branch ends, or a template that is entered has no branches. -/
def closes : Branches → Bool
  | done => false
  | stop _ .finish _ => true
  | stop _ _ rest => rest.closes
  | into _ _ .done _ => true
  | into _ _ inside rest => inside.closes || rest.closes

/-- The branches that are cut, with the templates whose replies they are. -/
def cuts (owner : Template) : Branches → List ReplyRef
  | done => []
  | stop response (.cut _) rest => response.ref owner :: rest.cuts owner
  | stop _ _ rest => rest.cuts owner
  | into _ child inside rest => inside.cuts child ++ rest.cuts owner

end Branches

/-- Templates entered so far are collected in `visited`. -/
abbrev Visited := List Int

/-- Follows the branches of one message in turn. `enter` follows a template that has not been
visited; without it the depth is used up. -/
def followBranches (enter : Option (Template → Visited → Branches × Visited)) :
    List Branch → Visited → Branches × Visited
  | [], visited => (.done, visited)
  | ⟨response, none⟩ :: others, visited =>
    let (rest, visited) := followBranches enter others visited
    (.stop response .finish rest, visited)
  | ⟨response, some child⟩ :: others, visited =>
    if visited.contains child.id then
      let (rest, visited) := followBranches enter others visited
      (.stop response (.back child.id) rest, visited)
    else
      match enter with
      | none =>
        let (rest, visited) := followBranches enter others visited
        (.stop response (.cut child.id) rest, visited)
      | some follow =>
        let (inside, visited) := follow child visited
        let (rest, visited) := followBranches enter others visited
        (.into response child inside rest, visited)

/-- Everything that follows a template which is entered now, with `depth` levels left below it. -/
def Rules.follow (rules : Rules) (templates : List Template) :
    Nat → Template → Visited → Branches × Visited
  | 0, template, visited =>
    followBranches none (rules.branches templates template) (template.id :: visited)
  | depth + 1, template, visited =>
    followBranches (some (rules.follow templates depth)) (rules.branches templates template)
      (template.id :: visited)

/-- The conversation from its first template on. -/
structure Expansion where
  first : Template
  branches : Branches
  deriving Repr

def Rules.expand (rules : Rules) (templates : List Template) (first : Template) : Expansion :=
  ⟨first, (rules.follow templates rules.maxDepth first []).1⟩

def Expansion.entered (expansion : Expansion) : List Template :=
  expansion.first :: expansion.branches.entered

/-- Something in the conversation leads to the end. -/
def Expansion.closes (expansion : Expansion) : Bool :=
  match expansion.branches with
  | .done => true
  | branches => branches.closes

end ReplyFlow
