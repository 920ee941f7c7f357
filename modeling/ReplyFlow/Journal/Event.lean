import ReplyFlow.Compile.Report

/-! What is written to the log.

Every event has a level, a name and named values. A journal holds events in the order in which
they happened.
-/

set_option autoImplicit false

namespace ReplyFlow

inductive Level where
  | debug
  | info
  | warning
  | error
  deriving Repr, DecidableEq

def Level.name : Level → String
  | .debug => "debug"
  | .info => "info"
  | .warning => "warning"
  | .error => "error"

/-- The operations on rows of a table. -/
inductive TableAction where
  | insert
  | select
  | update
  | delete
  deriving Repr, DecidableEq

def TableAction.name : TableAction → String
  | .insert => "insert"
  | .select => "select"
  | .update => "update"
  | .delete => "delete"

inductive Event where
  | compileStarted (templates : Nat)
  | duplicateIgnored (template : Int) (kept ignored : String)
  | terminalDropped (reply : ReplyRef)
  | danglingPruned (entry : Dangling)
  | depthReached (reply : ReplyRef) (target : Int) (maxDepth : Nat)
  | nothingToCompile
  | noTerminalTemplate
  | compileFinished (nodes edges backEdges pruned : Nat)
  | compileRequested (templates : Nat)
  | compileFailed (error : String)
  | graphInvalid (problems : List String)
  | saveFailed (error : String)
  | templatesSaved (workflow : String) (nodes : Nat)
  | storeFailed (action error : String)
  | workflowSaved (workflow backend : String)
  | workflowUpdated (workflow : String) (fields : List String)
  | workflowDeleted (workflow : String)
  | storeInMemory
  | databaseNotConfigured (hasUrl hasKey : Bool)
  | databaseRefused (error : String)
  | databaseConnected (table : String)
  | tableFailed (action : TableAction) (table error : String)
  | started (application : String) (debug : Bool) (maxDepth : Int) (policy : String)
  | stopped
  deriving Repr, DecidableEq

abbrev Journal := List Event

namespace Event

def level : Event → Level
  | .terminalDropped .. => .debug
  | .duplicateIgnored .. | .danglingPruned .. | .depthReached .. | .graphInvalid ..
  | .storeInMemory => .warning
  | .compileFailed .. | .saveFailed .. | .storeFailed .. | .databaseRefused ..
  | .tableFailed .. => .error
  | _ => .info

def name : Event → String
  | .compileStarted .. => "compile_start"
  | .duplicateIgnored .. => "duplicate_template_id"
  | .terminalDropped .. => "terminal_response_dropped"
  | .danglingPruned .. => "dangling_reference_pruned"
  | .depthReached .. => "recursion_limit_reached"
  | .nothingToCompile => "compile_empty_input"
  | .noTerminalTemplate => "compile_no_terminal_template"
  | .compileFinished .. => "compile_complete"
  | .compileRequested .. => "compile_request"
  | .compileFailed .. => "template_compile_error"
  | .graphInvalid .. => "compiled_graph_invalid"
  | .saveFailed .. => "template_workflow_save_error"
  | .templatesSaved .. => "template_workflow_saved"
  | .storeFailed .. => "workflow_store_error"
  | .workflowSaved .. => "workflow_saved"
  | .workflowUpdated .. => "workflow_updated"
  | .workflowDeleted .. => "workflow_deleted"
  | .storeInMemory => "workflow_store_in_memory"
  | .databaseNotConfigured .. => "supabase_not_configured"
  | .databaseRefused .. => "supabase_client_init_error"
  | .databaseConnected .. => "supabase_client_initialized"
  | .tableFailed action .. => "supabase_" ++ action.name ++ "_error"
  | .started .. => "application_startup"
  | .stopped => "application_shutdown"

/-- The named values of an event. -/
def values : Event → Json.Members
  | .compileStarted templates | .compileRequested templates =>
    [("template_count", .whole templates)]
  | .duplicateIgnored template kept ignored =>
    [("template_id", .whole template), ("kept", .text kept), ("ignored", .text ignored)]
  | .terminalDropped reply => reply.members
  | .danglingPruned entry => entry.members
  | .depthReached reply target maxDepth =>
    (Dangling.mk reply target).members ++ [("max_depth", .whole maxDepth)]
  | .compileFinished nodes edges backEdges pruned =>
    [("node_count", .whole nodes), ("edge_count", .whole edges), ("back_edges", .whole backEdges),
      ("pruned", .whole pruned)]
  | .compileFailed error | .saveFailed error | .databaseRefused error => [("error", .text error)]
  | .graphInvalid problems => [("problems", .texts problems)]
  | .templatesSaved workflow nodes =>
    [("workflow_id", .text workflow), ("node_count", .whole nodes)]
  | .storeFailed action error => [("action", .text action), ("error", .text error)]
  | .workflowSaved workflow backend =>
    [("workflow_id", .text workflow), ("backend", .text backend)]
  | .workflowUpdated workflow fields =>
    [("workflow_id", .text workflow), ("fields", .texts fields)]
  | .workflowDeleted workflow => [("workflow_id", .text workflow)]
  | .databaseNotConfigured hasUrl hasKey =>
    [("has_url", .bool hasUrl), ("has_key", .bool hasKey)]
  | .databaseConnected table => [("table", .text table)]
  | .tableFailed _ table error => [("table", .text table), ("error", .text error)]
  | .started application debug maxDepth policy =>
    [("app_name", .text application), ("debug", .bool debug), ("max_depth", .whole maxDepth),
      ("terminal_response_policy", .text policy)]
  | .nothingToCompile | .noTerminalTemplate | .storeInMemory | .stopped => []

def json (event : Event) : Json :=
  .object (("event", .text event.name) :: ("log_level", .text event.level.name) :: event.values)

end Event

end ReplyFlow
