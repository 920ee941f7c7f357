import ReplyFlow.Compile.Report
import ReplyFlow.Compile.Rules
import ReplyFlow.Template.Basic

/-! Which templates and which replies take part in a compilation.

Of several templates with one id the first counts. A reply takes part if it leads to a template
that does, or if it leads nowhere and such replies are kept.
-/

set_option autoImplicit false

namespace ReplyFlow

/-- A template that was passed over, and the one that has its id. -/
structure Duplicate where
  kept : Template
  ignored : Template
  deriving Repr, DecidableEq

/-- The templates that take part, in order, and those passed over for their id. -/
structure Selection where
  templates : List Template
  duplicates : List Duplicate
  deriving Repr, DecidableEq

def Selection.find? (templates : List Template) (id : Int) : Option Template :=
  templates.find? (·.id == id)

def Selection.add (selection : Selection) (template : Template) : Selection :=
  match Selection.find? selection.templates template.id with
  | some kept => { selection with duplicates := selection.duplicates ++ [⟨kept, template⟩] }
  | none => { selection with templates := selection.templates ++ [template] }

def Rules.admits (rules : Rules) (template : Template) : Bool :=
  template.active || rules.includeInactive

def Rules.select (rules : Rules) (templates : List Template) : Selection :=
  (templates.filter rules.admits).foldl Selection.add ⟨[], []⟩

/-- What is known of a reply: it leads nowhere, to a template, or to none that exists. -/
inductive Lead where
  | nowhere
  | template (child : Template)
  | missing (target : Int)
  deriving Repr, DecidableEq

def Response.lead (response : Response) (templates : List Template) : Lead :=
  match response.next with
  | none => .nowhere
  | some target =>
    match Selection.find? templates target with
    | some child => .template child
    | none => .missing target

/-- A reply that makes a branch, and the template it leads to, if any. -/
structure Branch where
  response : Response
  next : Option Template
  deriving Repr, DecidableEq

def Rules.branch? (rules : Rules) (templates : List Template) (response : Response) :
    Option Branch :=
  match response.lead templates with
  | .nowhere => if rules.policy = .finish then some ⟨response, none⟩ else none
  | .template child => some ⟨response, some child⟩
  | .missing _ => none

/-- The branches of a template, in the order of its replies. -/
def Rules.branches (rules : Rules) (templates : List Template) (template : Template) :
    List Branch :=
  template.responses.filterMap (rules.branch? templates)

def Response.ref (response : Response) (template : Template) : ReplyRef :=
  ⟨template.id, response.key⟩

/-- Replies that lead nowhere, whether they are kept or not. -/
def Template.terminalReplies (template : Template) : List ReplyRef :=
  (template.responses.filter (·.next.isNone)).map (·.ref template)

def Template.danglingReplies (template : Template) (templates : List Template) : List Dangling :=
  template.responses.filterMap fun response =>
    match response.lead templates with
    | .missing target => some ⟨response.ref template, target⟩
    | _ => none

end ReplyFlow
