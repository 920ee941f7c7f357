/-! The names of the steps of a compiled conversation.

Every step is named by the template that it belongs to and, within a template, by the number of
its branch.
-/

set_option autoImplicit false

namespace ReplyFlow

inductive StepName where
  | start
  | finish
  | message (template : Int)
  | condition (template index : Int)
  | delay (template index : Int)
  | continuation (template index : Int)
  deriving Repr, DecidableEq

def StepName.text : StepName → String
  | .start => "start"
  | .finish => "end"
  | .message template => s!"message-{template}"
  | .condition template index => s!"condition-{template}-{index}"
  | .delay template index => s!"delay-{template}-{index}"
  | .continuation template index => s!"continuation-{template}-{index}"

/-- The name of the edge between two nodes. -/
def edgeName (source target : String) : String :=
  s!"conn-{source}-{target}"

end ReplyFlow
