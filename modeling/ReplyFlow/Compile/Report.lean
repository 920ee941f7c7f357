import ReplyFlow.Json.Value

/-! What a compilation left out, merged or cut off. -/

set_option autoImplicit false

namespace ReplyFlow

/-- A reply of a template. -/
structure ReplyRef where
  template : Int
  key : String
  deriving Repr, DecidableEq

/-- A reply that leads to a template which does not exist. -/
structure Dangling where
  reply : ReplyRef
  target : Int
  deriving Repr, DecidableEq

structure Report where
  templateCount : Nat
  nodeCount : Nat
  edgeCount : Nat
  duplicates : List Int
  dangling : List Dangling
  terminal : List ReplyRef
  truncated : List ReplyRef
  /-- Edges into messages that were drawn before. -/
  backEdges : List (String × String)
  emptyInput : Bool
  deriving Repr, DecidableEq

def Report.empty : Report :=
  ⟨0, 0, 0, [], [], [], [], [], false⟩

def ReplyRef.members (reply : ReplyRef) : Json.Members :=
  [("template_id", .whole reply.template), ("option", .text reply.key)]

def Dangling.members (entry : Dangling) : Json.Members :=
  entry.reply.members ++ [("next_template_id", .whole entry.target)]

def Report.json (report : Report) : Json :=
  .object [("template_count", .whole report.templateCount),
    ("node_count", .whole report.nodeCount), ("edge_count", .whole report.edgeCount),
    ("duplicate_template_ids", .ofList .whole report.duplicates),
    ("dangling_references", .ofList (fun entry => .object entry.members) report.dangling),
    ("terminal_responses", .ofList (fun reply => .object reply.members) report.terminal),
    ("truncated_branches", .ofList (fun reply => .object reply.members) report.truncated),
    ("back_edges", .ofList
      (fun edge => .object [("from", .text edge.1), ("to", .text edge.2)]) report.backEdges),
    ("empty_input", .bool report.emptyInput)]

end ReplyFlow
