import ReplyFlow.Schema.Fields
import ReplyFlow.Template.Basic

/-! Templates as JSON. -/

set_option autoImplicit false

namespace ReplyFlow

open Schema

def Response.checkKey (value : Json) : Checked { key : String // Text.isBlankText key = false } :=
  (text value).andThen fun key =>
    if visible : Text.isBlankText key = false then .ok ⟨key, visible⟩
    else .fault (.refused "Response option must not be blank") value

/-- The first of these names that is present leads to the next template. -/
def Response.nextNames : List String :=
  ["next_template_id", "nextTemplateId", "nextMessageId"]

def Response.check (setting : Setting) (value : Json) : Checked Response :=
  record setting "TemplateResponse" value fun members =>
    (fun key action next => ⟨key.val, action, next, key.property⟩)
      <$> required members ["option"] checkKey
      <*> optional members ["action"] "" text
      <*> optional members nextNames none (nullable whole)

def Response.json (response : Response) : Json :=
  .object [("option", .text response.key), ("action", .text response.action),
    ("nextTemplateId", .ofOption .whole response.next)]

def Template.check (setting : Setting) (value : Json) : Checked Template :=
  record setting "MessageTemplate" value fun members =>
    Template.mk
      <$> required members ["id"] whole
      <*> required members ["name"] text
      <*> optional members ["trigger"] "" text
      <*> optional members ["message"] "" text
      <*> optional members ["responses"] [] (list (Response.check setting))
      <*> optional members ["active"] true flag
      <*> optional members ["sent_count", "sentCount"] 0 count

def Template.json (template : Template) : Json :=
  .object [("id", .whole template.id), ("name", .text template.name),
    ("trigger", .text template.trigger), ("message", .text template.message),
    ("responses", .ofList Response.json template.responses), ("active", .bool template.active),
    ("sentCount", .whole template.sentCount)]

end ReplyFlow
