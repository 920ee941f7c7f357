import ReplyFlow.Graph.Basic
import ReplyFlow.Schema.Fields

/-! Graphs as JSON. A payload names its kind. -/

set_option autoImplicit false

namespace ReplyFlow

open Schema

def Position.check (setting : Setting) (value : Json) : Checked (Position Float) :=
  record setting "Position" value fun members =>
    Position.mk <$> optional members ["x"] 0 number <*> optional members ["y"] 0 number

def Position.json (position : Position Float) : Json :=
  .object [("x", .number position.x), ("y", .number position.y)]

/-- The field that names the kind of a payload; it may be missing where the kind is known. -/
def Payload.checkKind (kind : PayloadKind) (members : Json.Members) : Checked Unit :=
  optional members ["kind"] () (literal [(kind.name, ())])

def Payload.modelName : PayloadKind → String
  | .message => "MessagePayload"
  | .condition => "ConditionPayload"
  | .delay => "DelayPayload"
  | .marker => "MarkerPayload"

def Payload.checkMembers (kind : PayloadKind) (members : Json.Members) : Checked Payload :=
  let label := required members ["label"] text
  match kind with
  | .message =>
    (fun _ label templateId body recipient => Payload.message label templateId body recipient)
      <$> checkKind kind members <*> label <*> required members ["template_id"] whole
      <*> optional members ["body_preview"] "" text
      <*> optional members ["recipient"] defaultRecipient text
  | .condition =>
    (fun _ label field operator expected => Payload.condition label field operator expected)
      <$> checkKind kind members <*> label <*> optional members ["field"] "lastResponse" text
      <*> optional members ["operator"] "equals" text <*> required members ["expected_value"] text
  | .delay =>
    (fun _ label duration unit => Payload.delay label duration unit)
      <$> checkKind kind members <*> label <*> optional members ["duration"] 1 count
      <*> optional members ["unit"] "minutes" text
  | .marker =>
    (fun _ label continuation templateId => Payload.marker label continuation templateId)
      <$> checkKind kind members <*> label <*> optional members ["continuation"] false flag
      <*> optional members ["template_id"] none (nullable whole)

/-- A payload of a known kind. -/
def Payload.checkAs (kind : PayloadKind) (setting : Setting) (value : Json) : Checked Payload :=
  record setting (modelName kind) value (checkMembers kind)

def PayloadKind.all : List PayloadKind :=
  [.message, .condition, .delay, .marker]

def PayloadKind.ofJson? : Json → Option PayloadKind
  | .text name => PayloadKind.all.find? (·.name == name)
  | _ => none

/-- A payload of the kind that it names. -/
def Payload.check (value : Json) : Checked Payload :=
  match value with
  | .object members =>
    match members.lookup "kind" with
    | none => .fault (.tagMissing "kind") value
    | some tag =>
      match PayloadKind.ofJson? tag with
      | some kind => (checkMembers kind members).under (.field kind.name)
      | none =>
        .fault (.tagUnknown "kind" tag.display (PayloadKind.all.map PayloadKind.name)) value
  | _ => .fault .noAttributes value

/-- The fields of a payload other than its kind and its label. -/
def Payload.details : Payload → List (String × Json)
  | .message _ templateId body recipient =>
    [("template_id", .whole templateId), ("body_preview", .text body),
      ("recipient", .text recipient)]
  | .condition _ field operator expected =>
    [("field", .text field), ("operator", .text operator), ("expected_value", .text expected)]
  | .delay _ duration unit => [("duration", .whole duration), ("unit", .text unit)]
  | .marker _ continuation templateId =>
    [("continuation", .bool continuation), ("template_id", .ofOption .whole templateId)]

def Payload.json (payload : Payload) : Json :=
  .object (("kind", .text payload.kind.name) :: ("label", .text payload.label) :: payload.details)

def NodeKind.choices : List (String × NodeKind) :=
  NodeKind.all.map fun kind => (kind.name, kind)

/-- A node whose payload goes with its kind; `value` is what it was read from. -/
def Node.assemble {α : Type} (value : Json) (id : String) (kind : NodeKind)
    (position : Position α) (payload : Payload) : Checked (Node α) :=
  if fits : payload.kind = kind.payloadKind then .ok ⟨id, kind, position, payload, fits⟩
  else .fault (.refused (misfit id kind payload.kind)) value

def Node.check (setting : Setting) (value : Json) : Checked (Node Float) :=
  record setting "WorkflowNode" value fun members =>
    Checked.andThen
      (Prod.mk <$> (Prod.mk <$> required members ["id"] text
          <*> required members ["type"] (member NodeKind.choices))
        <*> (Prod.mk <$> optional members ["position"] ⟨0, 0⟩ (Position.check setting)
          <*> required members ["payload"] Payload.check))
      fun ((id, kind), (position, payload)) => Node.assemble value id kind position payload

def Node.json (node : Node Float) : Json :=
  .object [("id", .text node.id), ("type", .text node.kind.name),
    ("position", node.position.json), ("payload", node.payload.json)]

def Edge.check (setting : Setting) (value : Json) : Checked Edge :=
  record setting "WorkflowEdge" value fun members =>
    Edge.mk <$> required members ["id"] text <*> required members ["from", "source"] text
      <*> required members ["to", "target"] text
      <*> optional members ["label"] none (nullable text)

def Edge.json (edge : Edge) : Json :=
  .object [("id", .text edge.id), ("from", .text edge.source), ("to", .text edge.target),
    ("label", .ofOption .text edge.label)]

def Graph.check (setting : Setting) (value : Json) : Checked (Graph Float) :=
  record setting "WorkflowGraph" value fun members =>
    Graph.mk <$> optional members ["nodes"] [] (list (Node.check setting))
      <*> optional members ["edges"] [] (list (Edge.check setting))

def Graph.json (graph : Graph Float) : Json :=
  .object [("nodes", .ofList Node.json graph.nodes), ("edges", .ofList Edge.json graph.edges)]

end ReplyFlow
