import ReplyFlow.Json.Encoding
import ReplyFlow.Json.Parser
import ReplyFlow.Schema.Fields
import ReplyFlow.Store.Session

/-! Requests and the answers to them.

A text that holds half of a surrogate pair cannot be sent, so an answer with one is a crash. Numbers
that are not finite are sent as `null` in the place of a result, but not among the issues of a
body, where each issue comes with its input.
-/

set_option autoImplicit false

namespace ReplyFlow

open Schema

structure Request where
  method : String
  address : String
  contentType : String
  body : String
  deriving Repr, DecidableEq

/-- What an answer holds: a JSON value or plain text. -/
inductive Content where
  | json (value : Json)
  | text (content : String)

structure Answer where
  status : Nat
  content : Content

/-- Why a request is not carried out; `crash` stands for a failure that nothing provides for, and
`silence` for work without end. -/
inductive Refusal where
  | detail (status : Nat) (detail : Json)
  | crash
  | silence

def Answer.ofDetail (status : Nat) (detail : Json) : Answer :=
  ⟨status, .json (.object [("detail", detail)])⟩

def Answer.crash : Answer :=
  ⟨500, .text "Internal Server Error"⟩

/-- Status 0 stands for no answer at all. -/
def Answer.silence : Answer :=
  ⟨0, .text ""⟩

def Refusal.answer : Refusal → Answer
  | .detail status value => .ofDetail status value
  | .crash => .crash
  | .silence => .silence

/-- The answer as it can be sent. -/
def Answer.sent (answer : Answer) : Answer :=
  match answer.content with
  | .json value => if value.every (fun _ => true) Text.isWhole then answer else .crash
  | .text _ => answer

/-- Work on a request. -/
abbrev Work (α : Type) := Action Refusal α

variable {α : Type}

/-- Goes on with `recover` where work on the store fails. -/
def Work.ofAction (work : Action StoreFault α) (recover : StoreFault → Work α) : Work α :=
  ExceptT.mk do
    match ← work.run with
    | .ok value => return .ok value
    | .error fault => (recover fault).run

/-- Work for whose failure nothing provides. -/
def Work.certain (work : Action StoreFault α) : Work α :=
  .ofAction work fun _ => throw .crash

def Refusal.ofIssues (issues : List Issue) : Refusal :=
  if issues.all fun issue => issue.input.every Float.isFinite Text.isWhole then
    .detail 422 (.ofList Issue.json issues)
  else .crash

/-- What stands in the body of a request. -/
inductive Body where
  | absent
  | json (value : Json)
  | octets (content : String)

/-- A body is read as JSON if its type is JSON or ends in `+json`. -/
def isJsonType (contentType : String) : Bool :=
  let s := Text.trim Text.isBlank (contentType.toLower.toList.takeWhile (· != ';'))
  match (s.splitOn '/').map String.ofList with
  | ["application", kind] => kind == "json" || kind.endsWith "+json"
  | _ => false

def unreadableBody : Refusal :=
  .detail 400 (.text "There was an error parsing the body")

def unreadable (error : Json.ParseError) : Refusal :=
  if error.reason.isLimit then unreadableBody
  else .ofIssues [⟨[.field "body", .index error.position], .unreadableBody, .object []⟩]

def Request.readBody (request : Request) : Except Refusal Body :=
  if request.body.isEmpty then .ok .absent
  else if isJsonType request.contentType then
    match Json.decode? request.body.toUTF8 with
    | none => .error unreadableBody
    | some text =>
      match Json.parse text with
      | .ok value => .ok (.json value)
      | .error error => .error (unreadable error)
  else .ok (.octets request.body)

def Body.check (body : Body) (check : Setting → Json → Checked α) : Checked α :=
  let result := match body with
    | .absent => Checked.fault .missing .null
    | .json value => check .body value
    | .octets content => Checked.fault .noAttributes (.text content)
  result.under (.field "body")

/-- The value that a body stands for. -/
def Work.accept (body : Body) (check : Setting → Json → Checked α) : Work α :=
  match body.check check with
  | .ok value => return value
  | .bad issues => throw (.ofIssues issues)

end ReplyFlow
