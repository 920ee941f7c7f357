import ReplyFlow.Json.Parser
import ReplyFlow.Json.Printer
import ReplyFlow.Settings.Codec
import ReplyFlow.Workflow.Codec

/-! Workflows as rows of a table.

The nodes and the edges of a graph are two columns that hold JSON text; a table may also give them
back as lists. Columns that are empty or missing have a default, except for the id, the name and
the time of creation.
-/

set_option autoImplicit false

namespace ReplyFlow

open Schema Time

/-- Why a row does not stand for a workflow. -/
inductive RowFault where
  | noRow (row : Json)
  | missingColumn (name : String)
  | unreadable (error : Json.ParseError)
  | noItems (value : Json)
  | settings (issues : List Issue)
  | invalid (issues : List Issue)

namespace Row

def nodesText (graph : Graph Float) : Json :=
  .text (Json.ofList Node.json graph.nodes).render

def edgesText (graph : Graph Float) : Json :=
  .text (Json.ofList Edge.json graph.edges).render

/-- The row of a new workflow, which gets its id from the table. -/
def ofEntry (now : Timestamp) (creator : String) (entry : Entry) : Json.Members :=
  [("name", .text entry.name), ("description", .text entry.description),
    ("nodes", nodesText entry.graph), ("connections", edgesText entry.graph),
    ("status", .text entry.status.name), ("created_by", .text creator),
    ("created_at", .text now.rowText), ("updated_at", .text now.rowText)]

def ofOption {β : Type} (name : String) (encode : β → Json) : Option β → Json.Members
  | none => []
  | some value => [(name, encode value)]

/-- The columns that an update sets. -/
def ofChanges (now : Timestamp) (changes : Changes) : Json.Members :=
  ("updated_at", .text now.rowText) :: ofOption "name" .text changes.name
    ++ ofOption "description" .text changes.description
    ++ ofOption "status" (fun status => .text status.name) changes.status
    ++ ofOption "nodes" nodesText changes.graph ++ ofOption "connections" edgesText changes.graph

def ofRun (now : Timestamp) : Json.Members :=
  [("last_run", .text now.rowText)]

def column (row : Json.Members) (name : String) : Except RowFault Json :=
  match row.lookup name with
  | some value => .ok value
  | none => .error (.missingColumn name)

/-- A column that counts as missing when it holds nothing. -/
def filled? (row : Json.Members) (name : String) : Option Json :=
  (row.lookup name).filter (!·.isVacant)

/-- A column of a list: as JSON text, as it is, or as the names of the members of an object. -/
def items : Json → Except RowFault Json
  | .null => .ok (.list [])
  | .text content =>
    if content.isEmpty then .ok (.list [])
    else
      match Json.parse content with
      | .ok value => .ok value
      | .error error => .error (.unreadable error)
  | .list items => .ok (.list items)
  | .object members => .ok (.texts (members.map Prod.fst))
  | value => .error (.noItems value)

def creator (settings : Checked Settings) (row : Json.Members) : Except RowFault Json :=
  match filled? row "created_by", settings with
  | some value, _ => .ok value
  | none, .ok settings => .ok (.text settings.creator)
  | none, .bad issues => .error (.settings issues)

/-- The workflow of a row, as it would stand in JSON. -/
def values (settings : Checked Settings) (row : Json.Members) : Except RowFault Json := do
  let id ← column row "id"
  let name ← column row "name"
  let nodes ← items ((row.lookup "nodes").getD .null)
  let edges ← items ((row.lookup "connections").getD .null)
  let createdAt ← column row "created_at"
  let creator ← creator settings row
  return .object [("id", .text id.display), ("name", name),
    ("description", (filled? row "description").getD (.text "")), ("nodes", nodes),
    ("edges", edges), ("status", (filled? row "status").getD (.text Status.draft.name)),
    ("created_at", createdAt), ("updated_at", (filled? row "updated_at").getD createdAt),
    ("created_by", creator), ("last_run", (row.lookup "last_run").getD .null)]

/-- The workflow that a row stands for. -/
def read (settings : Checked Settings) : Json → Except RowFault Workflow
  | .object row => do
    match Workflow.check .direct (← values settings row) with
    | .ok workflow => return workflow
    | .bad issues => throw (.invalid issues)
  | other => .error (.noRow other)

end Row

end ReplyFlow
