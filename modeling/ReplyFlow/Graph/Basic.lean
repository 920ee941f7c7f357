/-! Workflow graphs: steps with a place on the canvas, and directed edges between them.

`α` is the type of coordinates.
-/

set_option autoImplicit false

namespace ReplyFlow

inductive NodeKind where
  | start
  | message
  | condition
  | delay
  | finish
  deriving Repr, DecidableEq

inductive PayloadKind where
  | message
  | condition
  | delay
  | marker
  deriving Repr, DecidableEq

def NodeKind.name : NodeKind → String
  | .start => "start"
  | .message => "message"
  | .condition => "condition"
  | .delay => "delay"
  | .finish => "end"

def NodeKind.all : List NodeKind :=
  [.start, .message, .condition, .delay, .finish]

def NodeKind.ofName? (name : String) : Option NodeKind :=
  NodeKind.all.find? (·.name == name)

def PayloadKind.name : PayloadKind → String
  | .message => "message"
  | .condition => "condition"
  | .delay => "delay"
  | .marker => "marker"

/-- The kind of payload that a node of this kind carries. -/
def NodeKind.payloadKind : NodeKind → PayloadKind
  | .start | .finish => .marker
  | .message => .message
  | .condition => .condition
  | .delay => .delay

/-- The recipient of a message for which no other one is set. -/
def defaultRecipient : String := "\x7b\x7bcandidatePhone\x7d\x7d"

/-- What a step does. A marker with `continuation` stands for a branch that was cut off before the
template it names. -/
inductive Payload where
  | message (label : String) (templateId : Int) (body recipient : String)
  | condition (label field operator expected : String)
  | delay (label : String) (duration : Nat) (unit : String)
  | marker (label : String) (continuation : Bool) (templateId : Option Int)
  deriving Repr, DecidableEq

def Payload.kind : Payload → PayloadKind
  | .message .. => .message
  | .condition .. => .condition
  | .delay .. => .delay
  | .marker .. => .marker

def Payload.label : Payload → String
  | .message label .. => label
  | .condition label .. => label
  | .delay label .. => label
  | .marker label .. => label

structure Position (α : Type) where
  x : α
  y : α
  deriving Repr, DecidableEq

structure Node (α : Type) where
  id : String
  kind : NodeKind
  position : Position α
  payload : Payload
  fits : payload.kind = kind.payloadKind
  deriving Repr, DecidableEq

structure Edge where
  id : String
  source : String
  target : String
  label : Option String
  deriving Repr, DecidableEq

structure Graph (α : Type) where
  nodes : List (Node α)
  edges : List Edge
  deriving Repr, DecidableEq

variable {α : Type}

def Graph.empty : Graph α := ⟨[], []⟩

def Node.label (node : Node α) : String :=
  node.payload.label

def Node.isContinuation (node : Node α) : Bool :=
  match node.payload with
  | .marker _ continuation _ => continuation
  | _ => false

/-- The template of a message. -/
def Node.templateId? (node : Node α) : Option Int :=
  match node.payload with
  | .message _ templateId _ _ => some templateId
  | _ => none

/-- Why a payload does not go with a kind of node. -/
def misfit (id : String) (kind : NodeKind) (payload : PayloadKind) : String :=
  s!"Node '{id}' of type {kind.name} cannot carry a {payload.name} payload"

/-- A label that is absent or empty is not drawn. -/
def Edge.shownLabel? (edge : Edge) : Option String :=
  edge.label.filter (!·.isEmpty)

end ReplyFlow
