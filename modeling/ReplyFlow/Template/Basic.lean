import ReplyFlow.Text.Words

/-! Message templates: a message to send, and the replies that it offers. -/

set_option autoImplicit false

namespace ReplyFlow

/-- A reply that a recipient may give, and the template it leads to, if any. Replies are compared
with the key as it stands, so the key has a visible character. -/
structure Response where
  key : String
  action : String
  next : Option Int
  visible : Text.isBlankText key = false
  deriving Repr, DecidableEq

structure Template where
  id : Int
  name : String
  trigger : String
  message : String
  responses : List Response
  active : Bool
  sentCount : Nat
  deriving Repr, DecidableEq

/-- The templates that the replies lead to, in the order of the replies. -/
def Template.linkedIds (template : Template) : List Int :=
  template.responses.filterMap Response.next

end ReplyFlow
