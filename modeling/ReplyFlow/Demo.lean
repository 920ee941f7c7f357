import ReplyFlow.Canvas.Codec
import ReplyFlow.Compile.Compiler
import ReplyFlow.Graph.Integrity
import ReplyFlow.Outline.Printer
import ReplyFlow.Store.Operations
import ReplyFlow.Template.Samples

/-! A tour of the application: the sample conversation is compiled, printed, written to two files
and stored. -/

set_option autoImplicit false

namespace ReplyFlow.Demo

inductive Fault where
  | setup (fault : Compiler.SetupFault)
  | compile (failure : Compiler.Failure)
  | store (fault : StoreFault)

/-- The lines that are printed, and the files with their contents. -/
structure Outcome where
  lines : List String
  files : List (String × String)

def banner : List String :=
  [Outline.rule 60 '=', "Template Workflow Compiler - Seed Demo", "Candidate Outreach Workflow",
    Outline.rule 60 '=', ""]

def templateLine (template : Template) : String :=
  let targets := match template.linkedIds with
    | [] => "end"
    | ids => ", ".intercalate (ids.map toString)
  s!"  - [{template.id}] {template.name} → {targets}"

def templateLines (templates : List Template) : List String :=
  s!"📝 Templates: {templates.length}" :: templates.map templateLine ++ [""]

def problemLines (graph : Graph Float) : List String :=
  match graph.problemTexts with
  | [] => ["✅ Graph is structurally valid"]
  | problems => "❌ Integrity problems:" :: problems.map ("  - " ++ ·)

def compilationLines (compilation : Compilation Float) : Except Fault (List String) := do
  let report := compilation.report
  let outline ← (compilation.graph.outline Limits.usual.calls "Candidate Outreach" false).mapError
    fun excess => .compile (.excess excess)
  return [outline, "", s!"Back-edges: {report.backEdges.length}",
    s!"Pruned references: {report.dangling.length}",
    s!"Truncated branches: {report.truncated.length}"] ++ problemLines compilation.graph

def graphFile : String := "candidate_outreach_graph.json"

def planFile : String := "candidate_outreach_render.json"

def files (graph : Graph Float) : List (String × String) :=
  [(graphFile, graph.json.renderIndented),
    (planFile, (graph.plan BoxSize.default).json.renderIndented)]

def fileLines (folder : String) : List String :=
  ["", "💾 Graph saved to: " ++ folder ++ "/" ++ graphFile,
    "💾 Render plan saved to: " ++ folder ++ "/" ++ planFile]

def entry (graph : Graph Float) : Entry :=
  ⟨Graph.defaultName, "Automated workflow based on message templates", graph, .active, none⟩

def storeWork (graph : Graph Float) : Action StoreFault Workflow := do
  (← Action.store).save (entry graph)

/-- Stores the graph, and says what came of it. -/
def storeLines (graph : Graph Float) : Action Fault (List String) :=
  ExceptT.mk do
    match ← (storeWork graph).run with
    | .ok workflow => return .ok ["💾 Workflow stored with id: " ++ workflow.id]
    | .error fault =>
      match fault.message? with
      | some message => return .ok ["❌ Could not store workflow: " ++ message]
      | none => return .error (.store fault)

def run (folder : String) : Action Fault Outcome := do
  let settings ← ExceptT.adapt Fault.store Action.settings
  let compiler ← ExceptT.adapt Fault.setup (liftM (Compiler.ofSettings settings))
  let outcome := compiler.run .usual Samples.templates
  modify (·.log outcome.journal)
  let compilation ← ExceptT.adapt Fault.compile (liftM outcome.result)
  let compiled ← liftM (compilationLines compilation)
  let stored ← storeLines compilation.graph
  return {
    lines := banner ++ templateLines Samples.templates ++ compiled ++ fileLines folder ++ stored
    files := files compilation.graph }

end ReplyFlow.Demo
