import ReplyFlow.Graph.Codec
import ReplyFlow.Workflow.Basic

/-! Workflows as JSON. -/

set_option autoImplicit false

namespace ReplyFlow

open Schema

def Status.choices : List (String × Status) :=
  Status.all.map fun status => (status.name, status)

def Workflow.check (setting : Setting) (value : Json) : Checked Workflow :=
  record setting "WorkflowRecord" value fun members =>
    (fun id name description nodes edges status createdAt updatedAt createdBy lastRun =>
      Workflow.mk id name description ⟨nodes, edges⟩ status createdAt updatedAt createdBy lastRun)
      <$> required members ["id"] text
      <*> required members ["name"] text
      <*> optional members ["description"] "" text
      <*> optional members ["nodes"] [] (list (Node.check setting))
      <*> optional members ["edges"] [] (list (Edge.check setting))
      <*> optional members ["status"] .draft (member Status.choices)
      <*> required members ["createdAt", "created_at"] moment
      <*> required members ["updatedAt", "updated_at"] moment
      <*> required members ["createdBy", "created_by"] text
      <*> optional members ["lastRun", "last_run"] none (nullable moment)

def Workflow.json (workflow : Workflow) : Json :=
  .object [("id", .text workflow.id), ("name", .text workflow.name),
    ("description", .text workflow.description),
    ("nodes", .ofList Node.json workflow.graph.nodes),
    ("edges", .ofList Edge.json workflow.graph.edges), ("status", .text workflow.status.name),
    ("createdAt", .text workflow.createdAt.text), ("updatedAt", .text workflow.updatedAt.text),
    ("createdBy", .text workflow.createdBy),
    ("lastRun", .ofOption (fun moment => .text moment.text) workflow.lastRun)]

end ReplyFlow
