import ReplyFlow.Store.Session

/-! The operations on stored workflows, whichever store is in use. -/

set_option autoImplicit false

namespace ReplyFlow

/-- What was changed and is kept from now on. -/
def Action.keepFound (id : String) (changed : Option (Workflow × Memory)) :
    Action StoreFault Workflow :=
  match changed with
  | none => throw (.notFound id)
  | some (workflow, memory) => do
    Action.keepMemory memory
    return workflow

namespace Store

def save (store : Store) (entry : Entry) : Action StoreFault Workflow := do
  let now ← Action.now
  match store with
  | .memory held =>
    let id ← Action.newId
    let (workflow, next) := held.save id now (← Action.creator entry) entry
    Action.keepMemory next
    Action.log (.workflowSaved workflow.id "memory")
    return workflow
  | .table name =>
    let reply ← Action.ask (Table.saveQuery name now (← Action.creator entry) entry)
    let workflow ← Action.expect (Table.saved (← get).settings reply)
    Action.log (.workflowSaved workflow.id "supabase")
    return workflow

def list : Store → Action StoreFault (List Workflow)
  | .memory held => return held.list
  | .table name => do
    let reply ← Action.ask (Table.listQuery name)
    Action.expect (Table.listed (← get).settings reply)

def fetch (id : String) : Store → Action StoreFault Workflow
  | .memory held =>
    match held.get? id with
    | some workflow => return workflow
    | none => throw (.notFound id)
  | .table name => do
    let reply ← Action.ask (Table.getQuery name id)
    Action.expect (Table.fetched (← get).settings id reply)

def update (id : String) (changes : Changes) : Store → Action StoreFault Workflow
  | .memory held => do
    if (held.get? id).isNone then throw (.notFound id)
    let workflow ← Action.keepFound id (held.update? id (← Action.now) changes)
    Action.log (.workflowUpdated id changes.fields)
    return workflow
  | .table name => do
    let reply ← Action.ask (Table.updateQuery name id (← Action.now) changes)
    Action.expect (Table.updated (← get).settings id reply)

def markRun (id : String) : Store → Action StoreFault Workflow
  | .memory held => do
    if (held.get? id).isNone then throw (.notFound id)
    Action.keepFound id (held.markRun? id (← Action.now))
  | .table name => do
    let reply ← Action.ask (Table.markRunQuery name id (← Action.now))
    Action.expect (Table.updated (← get).settings id reply)

def delete (id : String) : Store → Action StoreFault Unit
  | .memory held =>
    match held.delete? id with
    | none => throw (.notFound id)
    | some next => do
      Action.keepMemory next
      Action.log (.workflowDeleted id)
  | .table name => do
    let reply ← Action.ask (Table.deleteQuery name id)
    Action.expect (Table.deleted id reply)
    Action.log (.workflowDeleted id)

end Store

end ReplyFlow
