import ReplyFlow.Compile.Draft
import ReplyFlow.Compile.Expansion
import ReplyFlow.Journal.Event

/-! What a compilation reports and logs about a conversation. -/

set_option autoImplicit false

namespace ReplyFlow

/-- The edges that go back to a message which is already there, from branch `index` on. -/
def Branches.backEdges (owner : Template) : Nat → Branches → List (String × String)
  | _, .done => []
  | index, .stop _ (.back target) rest =>
    ((StepName.delay owner.id index).text, (StepName.message target).text)
      :: rest.backEdges owner (index + 1)
  | index, .stop _ _ rest => rest.backEdges owner (index + 1)
  | index, .into _ child inside rest =>
    inside.backEdges child 0 ++ rest.backEdges owner (index + 1)

/-- Counts of what was drawn, and every reply that was left out, merged or cut off. -/
def Selection.report {α : Type} (selection : Selection) (expansion : Expansion)
    (draft : Draft α) : Report where
  templateCount := selection.templates.length
  nodeCount := draft.nodes.length
  edgeCount := draft.edges.length
  duplicates := selection.duplicates.map (·.ignored.id)
  dangling := expansion.entered.flatMap (·.danglingReplies selection.templates)
  terminal := expansion.entered.flatMap Template.terminalReplies
  truncated := expansion.branches.cuts expansion.first
  backEdges := expansion.branches.backEdges expansion.first 0
  emptyInput := false

/-- The report of a compilation in which no template takes part. -/
def Selection.emptyReport {α : Type} (selection : Selection) (draft : Draft α) : Report :=
  { draft.report with
    duplicates := selection.duplicates.map (·.ignored.id)
    emptyInput := true }

def Report.event (report : Report) : Event :=
  .compileFinished report.nodeCount report.edgeCount report.backEdges.length
    report.dangling.length

def Duplicate.event (duplicate : Duplicate) : Event :=
  .duplicateIgnored duplicate.kept.id duplicate.kept.name duplicate.ignored.name

/-- The event of a reply that makes no branch. -/
def Rules.replyEvent? (rules : Rules) (templates : List Template) (template : Template)
    (response : Response) : Option Event :=
  match response.lead templates with
  | .nowhere =>
    if rules.policy = .drop then some (.terminalDropped (response.ref template)) else none
  | .template _ => none
  | .missing target => some (.danglingPruned ⟨response.ref template, target⟩)

def Rules.entryEvents (rules : Rules) (templates : List Template) (template : Template) : Journal :=
  template.responses.filterMap (rules.replyEvent? templates template)

/-- The events of the branches of one message, each with all that follows it. -/
def Rules.branchEvents (rules : Rules) (templates : List Template) (owner : Template) :
    Branches → Journal
  | .done => []
  | .stop response (.cut target) rest =>
    .depthReached (response.ref owner) target rules.maxDepth
      :: rules.branchEvents templates owner rest
  | .stop _ _ rest => rules.branchEvents templates owner rest
  | .into _ child inside rest =>
    rules.entryEvents templates child ++ rules.branchEvents templates child inside
      ++ rules.branchEvents templates owner rest

end ReplyFlow
