import ReplyFlow.Proofs.Graph.Encoding
import ReplyFlow.Template.Codec

/-! A template is read back from its JSON, whichever names its fields are written under. -/

set_option autoImplicit false

namespace ReplyFlow

open Schema

/-- Two fields are written under their own names, or under those that are used outside. -/
inductive Template.Spelling where
  | own
  | outside
  deriving Repr, DecidableEq

namespace Template.Spelling

def next : Spelling → String
  | own => "next_template_id"
  | outside => "nextTemplateId"

def sentCount : Spelling → String
  | own => "sent_count"
  | outside => "sentCount"

end Template.Spelling

def Response.jsonAs (spelling : Template.Spelling) (response : Response) : Json :=
  .object [("option", .text response.key), ("action", .text response.action),
    (spelling.next, .ofOption .whole response.next)]

def Template.jsonAs (spelling : Spelling) (template : Template) : Json :=
  .object [("id", .whole template.id), ("name", .text template.name),
    ("trigger", .text template.trigger), ("message", .text template.message),
    ("responses", .ofList (Response.jsonAs spelling) template.responses),
    ("active", .bool template.active), (spelling.sentCount, .whole template.sentCount)]

theorem Template.jsonAs_outside (template : Template) :
    template.jsonAs .outside = template.json := rfl

variable (setting : Setting) (spelling : Template.Spelling)

theorem Response.checkKey_text (response : Response) :
    checkKey (.text response.key) = .ok ⟨response.key, response.visible⟩ :=
  dif_pos response.visible

theorem Schema.nullable_ofOption {α : Type} {check : Json → Checked α} {encode : α → Json}
    (value : Option α) (shown : ∀ item, encode item ≠ .null)
    (reads : ∀ item ∈ value, check (encode item) = .ok item) :
    nullable check (.ofOption encode value) = .ok value := by
  cases value with
  | none => rfl
  | some item =>
    have read := reads item rfl
    rw [Json.ofOption, nullable]
    · rw [read]
      rfl
    · exact shown item

theorem Response.check_jsonAs (response : Response) :
    Response.check setting (response.jsonAs spelling) = .ok response := by
  have next : nullable whole (.ofOption .whole response.next) = .ok response.next :=
    nullable_ofOption response.next nofun fun _ _ => rfl
  cases spelling <;>
  · rw [Response.check, jsonAs, record, required_eq_ok ["option"] rfl response.checkKey_text,
      optional_eq_ok nextNames rfl next]
    rfl

theorem Template.check_jsonAs (template : Template) :
    Template.check setting (template.jsonAs spelling) = .ok template := by
  have responses := list_ofList template.responses
    fun response _ => response.check_jsonAs setting spelling
  have sent := count_whole template.sentCount
  cases spelling <;>
  · rw [Template.check, jsonAs, record, optional_eq_ok ["responses"] rfl responses,
      optional_eq_ok ["sent_count", "sentCount"] rfl sent]
    rfl

end ReplyFlow
