/-! Where a request goes. -/

set_option autoImplicit false

namespace ReplyFlow

inductive Endpoint where
  | sampleTemplates
  | compile
  | render
  | saveTemplates
  | saveWorkflow
  | listWorkflows
  | fetchWorkflow (id : String)
  | updateWorkflow (id : String)
  | deleteWorkflow (id : String)
  | markWorkflowRun (id : String)
  | health
  deriving Repr, DecidableEq

/-- The endpoints of a path, each with its method. -/
def endpoints : List String → List (String × Endpoint)
  | ["", "api", "templates", "samples"] => [("GET", .sampleTemplates)]
  | ["", "api", "templates", "compile"] => [("POST", .compile)]
  | ["", "api", "templates", "render"] => [("POST", .render)]
  | ["", "api", "templates", "workflow"] => [("POST", .saveTemplates)]
  | ["", "api", "workflows"] => [("POST", .saveWorkflow), ("GET", .listWorkflows)]
  | ["", "api", "workflows", id] =>
    if id.isEmpty then []
    else [("GET", .fetchWorkflow id), ("PUT", .updateWorkflow id), ("DELETE", .deleteWorkflow id)]
  | ["", "api", "workflows", id, "last-run"] =>
    if id.isEmpty then [] else [("PATCH", .markWorkflowRun id)]
  | ["", "health"] => [("GET", .health)]
  | _ => []

inductive Route where
  | endpoint (endpoint : Endpoint)
  | wrongMethod
  /-- The path without the slashes at its end is known. -/
  | elsewhere
  | unknown
  deriving Repr, DecidableEq

def segments (path : List Char) : List String :=
  (path.splitOn '/').map String.ofList

/-- The endpoints of a decoded path. One line break at its end does not count if nothing goes by
the path with it. -/
def endpointsAt (path : List Char) : List (String × Endpoint) :=
  let found := endpoints (segments path)
  if found.isEmpty && path.getLast? == some '\n' then endpoints (segments path.dropLast)
  else found

/-- The route of a method and a decoded path. -/
def Route.find (method path : String) : Route :=
  let s := path.toList
  let found := endpointsAt s
  match found.lookup method with
  | some target => .endpoint target
  | none =>
    if !found.isEmpty then .wrongMethod
    else if s.getLast? == some '/'
        && !(endpointsAt (s.reverse.dropWhile (· == '/')).reverse).isEmpty then .elsewhere
    else .unknown

end ReplyFlow
