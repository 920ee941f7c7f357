import ReplyFlow.Workflow.Basic

/-! Workflows kept in memory.

A memory is a finite map from ids to workflows that also remembers the order in which they were
saved. Every operation is given the time, and saving an id that is not in use yet.
-/

set_option autoImplicit false

namespace ReplyFlow

open Time

structure Memory where
  workflows : List Workflow
  deriving Repr, DecidableEq

namespace Memory

def empty : Memory := ⟨[]⟩

def get? (memory : Memory) (id : String) : Option Workflow :=
  memory.workflows.find? (·.id == id)

/-- Sets the workflow of an id, in its place if the id is in use and as the last one if not. -/
def put (memory : Memory) (workflow : Workflow) : Memory :=
  if (memory.get? workflow.id).isSome then
    ⟨memory.workflows.map fun other => if other.id == workflow.id then workflow else other⟩
  else ⟨memory.workflows ++ [workflow]⟩

def erase (memory : Memory) (id : String) : Memory :=
  ⟨memory.workflows.filter (·.id != id)⟩

def save (memory : Memory) (id : String) (now : Timestamp) (creator : String) (entry : Entry) :
    Workflow × Memory :=
  let workflow := Workflow.ofEntry id now creator entry
  (workflow, memory.put workflow)

/-- Replaces the workflow of an id by a changed one; `none` if there is no such workflow. -/
def modify? (memory : Memory) (id : String) (change : Workflow → Workflow) :
    Option (Workflow × Memory) :=
  (memory.get? id).map fun workflow => (change workflow, memory.put (change workflow))

def update? (memory : Memory) (id : String) (now : Timestamp) (changes : Changes) :
    Option (Workflow × Memory) :=
  memory.modify? id (·.update now changes)

def markRun? (memory : Memory) (id : String) (now : Timestamp) : Option (Workflow × Memory) :=
  memory.modify? id (·.markRun now)

def delete? (memory : Memory) (id : String) : Option Memory :=
  (memory.get? id).map fun _ => memory.erase id

/-- Newest first; of equally old workflows the one saved first. -/
def list (memory : Memory) : List Workflow :=
  memory.workflows.mergeSort fun a b => b.createdAt.micros ≤ a.createdAt.micros

end Memory

end ReplyFlow
