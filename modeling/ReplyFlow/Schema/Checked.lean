import ReplyFlow.Schema.Issue

/-! Results of checking a value from outside: the value that was meant, or all that is wrong.

Independent checks are combined with `<*>` and report every issue, in order. `andThen` makes a
check that runs only on the outcome of an earlier one.
-/

set_option autoImplicit false

namespace ReplyFlow.Schema

inductive Checked (α : Type) where
  | ok (value : α)
  | bad (issues : List Issue)

namespace Checked

variable {α β : Type}

def issues : Checked α → List Issue
  | .ok _ => []
  | .bad issues => issues

def map (f : α → β) : Checked α → Checked β
  | .ok value => .ok (f value)
  | .bad issues => .bad issues

def both (f : Checked (α → β)) (x : Unit → Checked α) : Checked β :=
  match f, x () with
  | .ok f, .ok value => .ok (f value)
  | .ok _, .bad issues => .bad issues
  | .bad issues, other => .bad (issues ++ other.issues)

instance : Applicative Checked where
  pure := .ok
  map := map
  seq := both

def andThen (x : Checked α) (f : α → Checked β) : Checked β :=
  match x with
  | .ok value => f value
  | .bad issues => .bad issues

/-- A single issue with the value as a whole. -/
def fault (cause : Cause) (input : Json) : Checked α :=
  .bad [⟨[], cause, input⟩]

/-- Puts a key in front of the path of every issue. -/
def under (key : Key) : Checked α → Checked α
  | .ok value => .ok value
  | .bad issues => .bad (issues.map (Issue.under key))

def toOption : Checked α → Option α
  | .ok value => some value
  | .bad _ => none

@[simp] theorem map_ok (f : α → β) (value : α) : (Checked.ok value).map f = .ok (f value) := rfl

@[simp] theorem under_ok (key : Key) (value : α) : (Checked.ok value).under key = .ok value := rfl

@[simp] theorem andThen_ok (value : α) (f : α → Checked β) :
    (Checked.ok value).andThen f = f value := rfl

@[simp] theorem seq_ok (f : α → β) (value : α) :
    (Checked.ok f <*> Checked.ok value) = .ok (f value) := rfl

end Checked

/-- Checks every item of a list, each under its position from `start` on. -/
def checkItems {α : Type} (check : Json → Checked α) : Nat → List Json → Checked (List α)
  | _, [] => .ok []
  | start, item :: rest =>
    List.cons <$> (check item).under (.index start) <*> checkItems check (start + 1) rest

end ReplyFlow.Schema
