import ReplyFlow.Store.Query
import ReplyFlow.Store.Row

/-! Workflows kept in a table.

Each operation asks one query and reads the answer: what is asked and what is read are two
functions here, and neither knows how a query reaches its table.
-/

set_option autoImplicit false

namespace ReplyFlow

open Schema Time

/-- What was being done when a store failed. -/
inductive StoreAction where
  | save
  | list
  | fetch
  | update
  | delete
  deriving Repr, DecidableEq

def StoreAction.name : StoreAction → String
  | .save => "save"
  | .list => "list"
  | .fetch => "fetch"
  | .update => "update"
  | .delete => "delete"

/-- Why a store operation fails. -/
inductive StoreFault where
  | notFound (id : String)
  | failed (action : StoreAction) (cause : String)
  | nothingReturned
  | row (fault : RowFault)
  | settings (issues : List Issue)

/-- The message of a failure for which the store answers itself; there is none for rows that do
not stand for a workflow and for settings that cannot be read. -/
def StoreFault.message? : StoreFault → Option String
  | .notFound id => some ("Workflow not found: " ++ id)
  | .failed .list _ => some "Failed to list workflows"
  | .failed action _ => some ("Failed to " ++ action.name ++ " workflow")
  | .nothingReturned => some "Supabase returned no row for the saved workflow"
  | .row _ | .settings _ => none

namespace Table

def idFilter (id : String) : Json.Members :=
  [("id", .text id)]

def newestFirst : ColumnOrder :=
  ⟨"created_at", true⟩

def saveQuery (table : String) (now : Timestamp) (creator : String) (entry : Entry) : Query :=
  .insert table (.object (Row.ofEntry now creator entry))

def listQuery (table : String) : Query :=
  .select table [] (some newestFirst)

def getQuery (table id : String) : Query :=
  .select table (idFilter id) none

def updateQuery (table id : String) (now : Timestamp) (changes : Changes) : Query :=
  .update table (.object (Row.ofChanges now changes)) (idFilter id)

def markRunQuery (table id : String) (now : Timestamp) : Query :=
  .update table (.object (Row.ofRun now)) (idFilter id)

def deleteQuery (table id : String) : Query :=
  .delete table (idFilter id)

def readRow (settings : Checked Settings) (row : Json) : Except StoreFault Workflow :=
  (Row.read settings row).mapError .row

/-- The rows of an answer; a failure is one of `action`. -/
def answered (action : StoreAction) : Reply → Except StoreFault (List Json)
  | .rows rows => .ok rows
  | .failed cause => .error (.failed action cause)

/-- The workflow in the first row; without a row there is none with this id. -/
def found (settings : Checked Settings) (id : String) : List Json → Except StoreFault Workflow
  | [] => .error (.notFound id)
  | row :: _ => readRow settings row

def saved (settings : Checked Settings) (reply : Reply) : Except StoreFault Workflow := do
  match ← answered .save reply with
  | [] => throw .nothingReturned
  | row :: _ => if row.isVacant then throw .nothingReturned else readRow settings row

def listed (settings : Checked Settings) (reply : Reply) : Except StoreFault (List Workflow) := do
  (← answered .list reply).mapM (readRow settings)

def fetched (settings : Checked Settings) (id : String) (reply : Reply) :
    Except StoreFault Workflow := do
  found settings id (← answered .fetch reply)

def updated (settings : Checked Settings) (id : String) (reply : Reply) :
    Except StoreFault Workflow := do
  found settings id (← answered .update reply)

def deleted (id : String) (reply : Reply) : Except StoreFault Unit := do
  match ← answered .delete reply with
  | [] => throw (.notFound id)
  | _ :: _ => return ()

end Table

end ReplyFlow
