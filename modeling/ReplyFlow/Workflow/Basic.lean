import ReplyFlow.Graph.Basic
import ReplyFlow.Time.Timestamp

/-! Workflows: named graphs with a status and a history. -/

set_option autoImplicit false

namespace ReplyFlow

open Time

inductive Status where
  | active
  | inactive
  | draft
  deriving Repr, DecidableEq

def Status.name : Status → String
  | .active => "Active"
  | .inactive => "Inactive"
  | .draft => "Draft"

def Status.all : List Status :=
  [.active, .inactive, .draft]

def Status.ofName? (name : String) : Option Status :=
  Status.all.find? (·.name == name)

structure Workflow where
  id : String
  name : String
  description : String
  graph : Graph Float
  status : Status
  createdAt : Timestamp
  updatedAt : Timestamp
  createdBy : String
  lastRun : Option Timestamp
  deriving Repr, DecidableEq

/-- What is given to save a new workflow. -/
structure Entry where
  name : String
  description : String
  graph : Graph Float
  status : Status
  creator : Option String
  deriving Repr, DecidableEq

/-- An empty name is nobody. -/
def Entry.namedCreator? (entry : Entry) : Option String :=
  entry.creator.filter (!·.isEmpty)

/-- What is to be replaced in a workflow. -/
structure Changes where
  name : Option String
  description : Option String
  graph : Option (Graph Float)
  status : Option Status
  deriving Repr, DecidableEq

namespace Workflow

/-- A new workflow, made at `now`. -/
def ofEntry (id : String) (now : Timestamp) (creator : String) (entry : Entry) : Workflow where
  id := id
  name := entry.name
  description := entry.description
  graph := entry.graph
  status := entry.status
  createdAt := now
  updatedAt := now
  createdBy := creator
  lastRun := none

def update (workflow : Workflow) (now : Timestamp) (changes : Changes) : Workflow :=
  { workflow with
    name := changes.name.getD workflow.name
    description := changes.description.getD workflow.description
    graph := changes.graph.getD workflow.graph
    status := changes.status.getD workflow.status
    updatedAt := now }

def markRun (workflow : Workflow) (now : Timestamp) : Workflow :=
  { workflow with lastRun := some now }

end Workflow

/-- The names of the fields that an update changes, in alphabetical order. -/
def Changes.fields (changes : Changes) : List String :=
  (if changes.description.isSome then ["description"] else [])
    ++ (if changes.graph.isSome then ["edges"] else [])
    ++ (if changes.name.isSome then ["name"] else [])
    ++ (if changes.graph.isSome then ["nodes"] else [])
    ++ (if changes.status.isSome then ["status"] else [])
    ++ ["updated_at"]

end ReplyFlow
