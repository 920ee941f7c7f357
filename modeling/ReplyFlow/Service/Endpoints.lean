import ReplyFlow.Canvas.Codec
import ReplyFlow.Compile.Compiler
import ReplyFlow.Compile.Complaint
import ReplyFlow.Graph.Integrity
import ReplyFlow.Service.Answer
import ReplyFlow.Service.Body
import ReplyFlow.Store.Operations
import ReplyFlow.Template.Samples

/-! What is done at each endpoint. -/

set_option autoImplicit false

namespace ReplyFlow

/-! ### Failures of the store -/

/-- The refusal of a request that was to do `action`. -/
def Work.refuseStore {α : Type} (action : StoreAction) (fault : StoreFault) : Work α := do
  match fault, fault.message? with
  | .notFound _, some message => throw (.detail 404 (.text message))
  | _, some message =>
    Action.log (.storeFailed action.name message)
    throw (.detail 502 (.text ("Failed to " ++ action.name ++ " workflow: " ++ message)))
  | _, none => throw .crash

/-- Work on the store in the course of `action`. -/
def Work.onStore {α : Type} (action : StoreAction) (work : Action StoreFault α) : Work α :=
  .ofAction work (Work.refuseStore action)

/-- The refusal of a request whose templates are compiled but cannot be saved. -/
def Work.refuseSaving {α : Type} (fault : StoreFault) : Work α := do
  match fault.message? with
  | some message =>
    Action.log (.saveFailed message)
    throw (.detail 502 (.text ("Failed to save workflow: " ++ message)))
  | none => throw .crash

/-! ### Templates -/

/-- The compiler for one request. -/
def Work.compilerFor (overrides : Option Overrides) : Work (Compiler Float) := do
  let settings ← Work.certain Action.settings
  let settings := match overrides with
    | some overrides => overrides.apply settings
    | none => settings
  match Compiler.ofSettings settings with
  | .ok compiler => return compiler
  | .error _ => throw .crash

/-- Tells that compiling has failed; a search without end is not told of. -/
def Work.refuseCompiling {α : Type} (failure : Compiler.Failure) : Work α := do
  match failure.message? with
  | some message =>
    Action.log (.compileFailed message)
    throw (.detail 500 (.text ("Error compiling templates: " ++ message)))
  | none => throw .silence

def Work.compileBody (body : CompileBody) : Work (Compilation Float) := do
  let compiler ← Work.compilerFor body.overrides
  let run := compiler.run .usual body.templates
  modify (·.log run.journal)
  match run.result with
  | .error failure => Work.refuseCompiling failure
  | .ok compilation =>
    let problems := compilation.graph.problemTexts
    if !problems.isEmpty then Action.log (.graphInvalid problems)
    return compilation

def Compilation.json (compilation : Compilation Float) : Json :=
  let problems := compilation.graph.problemTexts
  .object [("graph", compilation.graph.json), ("report", compilation.report.json),
    ("valid", .bool problems.isEmpty), ("problems", .texts problems)]

def Work.compileTemplates (body : CompileBody) : Work Json := do
  Action.log (.compileRequested body.templates.length)
  return (← Work.compileBody body).json

def Work.renderTemplates (body : RenderBody) : Work Json := do
  return ((← Work.compileBody body.toCompileBody).graph.plan body.size).json

def Work.saveTemplates (store : Store) (body : SaveTemplatesBody) : Work Json := do
  let compilation ← Work.compileBody body.toCompileBody
  let workflow ← Work.ofAction (store.save (body.entry compilation.graph)) Work.refuseSaving
  Action.log (.templatesSaved workflow.id workflow.graph.nodes.length)
  return workflow.json

/-! ### Workflows -/

/-- Only a sound graph is stored. -/
def Work.requireSound (graph : Graph Float) : Work Unit := do
  let problems := graph.problemTexts
  if !problems.isEmpty then
    throw (.detail 422 (.object [("message", .text "Graph is not structurally valid"),
      ("problems", .texts problems)]))

def Work.saveWorkflow (store : Store) (entry : Entry) : Work Json := do
  Work.requireSound entry.graph
  return (← Work.onStore .save (store.save entry)).json

def Work.listWorkflows (store : Store) : Work Json := do
  let workflows ← Work.onStore .list store.list
  return .object [("data", .ofList Workflow.json workflows), ("total", .whole workflows.length)]

def Work.fetchWorkflow (store : Store) (id : String) : Work Json := do
  return (← Work.onStore .fetch (store.fetch id)).json

def Work.updateWorkflow (store : Store) (id : String) (changes : Changes) : Work Json := do
  match changes.graph with
  | some graph => Work.requireSound graph
  | none => pure ()
  return (← Work.onStore .update (store.update id changes)).json

def Work.deleteWorkflow (store : Store) (id : String) : Work Json := do
  Work.onStore .delete (store.delete id)
  return .object [("id", .text id), ("deleted", .bool true)]

def Work.markWorkflowRun (store : Store) (id : String) : Work Json := do
  return (← Work.onStore .update (store.markRun id)).json

/-! ### The application -/

def version : String := "0.1.0"

/-- The health of an application that was started with the default settings. -/
def healthReport : Json :=
  .object [("status", .text "healthy"), ("version", .text version),
    ("persistence", .text (if Settings.default.databaseUrl.isEmpty then "memory" else "supabase"))]

/-- The log of a start and a stop of the application. -/
def lifespan : Journal :=
  let settings := Settings.default
  [.started settings.appName settings.debug settings.maxDepth settings.policy.name, .stopped]

end ReplyFlow
