import ReplyFlow.Canvas.Plan
import ReplyFlow.Outline.Printer
import ReplyFlow.Settings.Basic
import ReplyFlow.Template.Codec
import ReplyFlow.Workflow.Codec

/-! The bodies of requests. -/

set_option autoImplicit false

namespace ReplyFlow

open Schema

/-- Settings that hold for one request. -/
structure Overrides where
  maxDepth : Option Int
  policy : Option TerminalPolicy
  levelSpacing : Option Float
  branchSpacing : Option Float
  includeInactive : Option Bool
  deriving Repr, DecidableEq

structure CompileBody where
  templates : List Template
  overrides : Option Overrides
  deriving Repr, DecidableEq

structure RenderBody extends CompileBody where
  size : BoxSize Float
  deriving Repr, DecidableEq

structure SaveTemplatesBody extends CompileBody where
  name : String
  description : String
  status : Status
  creator : Option String
  deriving Repr, DecidableEq

namespace Overrides

def apply (overrides : Overrides) (settings : Settings) : Settings :=
  { settings with
    maxDepth := overrides.maxDepth.getD settings.maxDepth
    policy := overrides.policy.getD settings.policy
    levelSpacing := overrides.levelSpacing.getD settings.levelSpacing
    branchSpacing := overrides.branchSpacing.getD settings.branchSpacing
    includeInactive := overrides.includeInactive.getD settings.includeInactive }

def check (setting : Setting) (value : Json) : Checked Overrides :=
  record setting "CompileOptions" value fun members =>
    Overrides.mk <$> optional members ["max_depth"] none (nullable (wholeWithin 0 100))
      <*> optional members ["terminal_response_policy"] none
        (nullable (literal TerminalPolicy.choices))
      <*> optional members ["level_spacing"] none (nullable positiveNumber)
      <*> optional members ["branch_spacing"] none (nullable positiveNumber)
      <*> optional members ["include_inactive_templates"] none (nullable flag)

def json (overrides : Overrides) : Json :=
  .object [("max_depth", .ofOption .whole overrides.maxDepth),
    ("terminal_response_policy", .ofOption (fun policy => .text policy.name) overrides.policy),
    ("level_spacing", .ofOption .number overrides.levelSpacing),
    ("branch_spacing", .ofOption .number overrides.branchSpacing),
    ("include_inactive_templates", .ofOption .bool overrides.includeInactive)]

end Overrides

namespace CompileBody

def checkMembers (setting : Setting) (members : Json.Members) : Checked CompileBody :=
  CompileBody.mk <$> required members ["templates"] (list (Template.check setting))
    <*> optional members ["options"] none (nullable (Overrides.check setting))

def check (setting : Setting) (value : Json) : Checked CompileBody :=
  record setting "CompileRequest" value (checkMembers setting)

def members (body : CompileBody) : Json.Members :=
  [("templates", .ofList Template.json body.templates),
    ("options", .ofOption Overrides.json body.overrides)]

end CompileBody

namespace RenderBody

def check (setting : Setting) (value : Json) : Checked RenderBody :=
  record setting "RenderRequest" value fun members =>
    (fun body width height length => ⟨body, ⟨width, height, length⟩⟩)
      <$> CompileBody.checkMembers setting members
      <*> optional members ["box_width"] BoxSize.default.width positiveNumber
      <*> optional members ["box_height"] BoxSize.default.height positiveNumber
      <*> optional members ["preview_length"] (BoxSize.default : BoxSize Float).previewLength
        (wholeWithin 1 500)

def json (body : RenderBody) : Json :=
  .object (body.toCompileBody.members ++ [("box_width", .number body.size.width),
    ("box_height", .number body.size.height),
    ("preview_length", .whole body.size.previewLength)])

end RenderBody

/-- The name of a workflow has 1 to 200 characters. -/
def checkName : Json → Checked String :=
  textWithin 1 200

namespace SaveTemplatesBody

def check (setting : Setting) (value : Json) : Checked SaveTemplatesBody :=
  record setting "SaveTemplatesRequest" value fun members =>
    SaveTemplatesBody.mk <$> CompileBody.checkMembers setting members
      <*> optional members ["name"] Graph.defaultName checkName
      <*> optional members ["description"] "Automated workflow based on message templates" text
      <*> optional members ["status"] .active (member Status.choices)
      <*> optional members ["created_by"] none (nullable text)

def json (body : SaveTemplatesBody) : Json :=
  .object (body.toCompileBody.members ++ [("name", .text body.name),
    ("description", .text body.description), ("status", .text body.status.name),
    ("created_by", .ofOption .text body.creator)])

def entry (body : SaveTemplatesBody) (graph : Graph Float) : Entry :=
  ⟨body.name, body.description, graph, body.status, body.creator⟩

end SaveTemplatesBody

/-- An entry whose graph is given. -/
def Entry.check (setting : Setting) (value : Json) : Checked Entry :=
  record setting "SaveWorkflowRequest" value fun members =>
    Entry.mk <$> required members ["name"] checkName
      <*> optional members ["description"] "" text
      <*> required members ["graph"] (Graph.check setting)
      <*> optional members ["status"] .draft (member Status.choices)
      <*> optional members ["created_by"] none (nullable text)

def Entry.json (entry : Entry) : Json :=
  .object [("name", .text entry.name), ("description", .text entry.description),
    ("graph", entry.graph.json), ("status", .text entry.status.name),
    ("created_by", .ofOption .text entry.creator)]

def Changes.check (setting : Setting) (value : Json) : Checked Changes :=
  record setting "UpdateWorkflowRequest" value fun members =>
    Changes.mk <$> optional members ["name"] none (nullable checkName)
      <*> optional members ["description"] none (nullable text)
      <*> optional members ["graph"] none (nullable (Graph.check setting))
      <*> optional members ["status"] none (nullable (member Status.choices))

def Changes.json (changes : Changes) : Json :=
  .object [("name", .ofOption .text changes.name),
    ("description", .ofOption .text changes.description),
    ("graph", .ofOption Graph.json changes.graph),
    ("status", .ofOption (fun status => .text status.name) changes.status)]

end ReplyFlow
