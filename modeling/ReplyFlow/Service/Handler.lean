import ReplyFlow.Service.Address
import ReplyFlow.Service.Endpoints
import ReplyFlow.Service.Route

/-! From a request to its answer.

A body is read first; then the store is opened, if the endpoint needs one; only then is the body
checked.
-/

set_option autoImplicit false

namespace ReplyFlow

def Work.openStore : Work Store :=
  Work.certain Action.store

def Work.read (request : Request) : Work Body :=
  liftM request.readBody

def Endpoint.work (endpoint : Endpoint) (request : Request) : Work Json := do
  match endpoint with
  | .sampleTemplates => return .ofList Template.json Samples.templates
  | .compile => Work.compileTemplates (← Work.accept (← Work.read request) CompileBody.check)
  | .render => Work.renderTemplates (← Work.accept (← Work.read request) RenderBody.check)
  | .saveTemplates =>
    let body ← Work.read request
    let store ← Work.openStore
    Work.saveTemplates store (← Work.accept body SaveTemplatesBody.check)
  | .saveWorkflow =>
    let body ← Work.read request
    let store ← Work.openStore
    Work.saveWorkflow store (← Work.accept body Entry.check)
  | .listWorkflows => Work.listWorkflows (← Work.openStore)
  | .fetchWorkflow id => Work.fetchWorkflow (← Work.openStore) id
  | .updateWorkflow id =>
    let body ← Work.read request
    let store ← Work.openStore
    Work.updateWorkflow store id (← Work.accept body Changes.check)
  | .deleteWorkflow id => Work.deleteWorkflow (← Work.openStore) id
  | .markWorkflowRun id => Work.markWorkflowRun (← Work.openStore) id
  | .health => return healthReport

/-- Numbers that are not finite are sent as `null`. -/
def Answer.ofJson (value : Json) : Answer :=
  ⟨200, .json value.finite⟩

def Endpoint.answer (endpoint : Endpoint) (request : Request) (session : Session) :
    Answer × Session :=
  match (endpoint.work request).run.run session with
  | (.ok value, session) => (.ofJson value, session)
  | (.error refusal, session) => (refusal.answer, session)

/-- The answer on the way that a method and a path lead to. -/
def Route.answer (route : Route) (request : Request) (session : Session) : Answer × Session :=
  match route with
  | .endpoint target => target.answer request session
  | .wrongMethod => (.ofDetail 405 (.text "Method Not Allowed"), session)
  | .elsewhere => (⟨307, .text ""⟩, session)
  | .unknown => (.ofDetail 404 (.text "Not Found"), session)

/-- The case of a method does not count. A request for the head alone is answered without
content. -/
def Request.answer (request : Request) (session : Session) : Answer × Session :=
  let method := request.method.toUpper
  let route := Route.find method (Address.parse request.address).location
  let (answer, session) := route.answer request session
  if method == "HEAD" then ({ answer with content := .text "" }, session)
  else (answer.sent, session)

end ReplyFlow
