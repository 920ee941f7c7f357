import Mathlib.Data.List.Basic
import ReplyFlow.Proofs.Graph.Encoding
import ReplyFlow.Proofs.Json.Equality
import ReplyFlow.Store.Row

/-! Rows that show a workflow, and what they are read as.

Only what is found under the names of the columns counts, not their order. The texts of graphs and
of moments are assumed to be read back.
-/

set_option autoImplicit false

namespace ReplyFlow

open Schema Time

instance {α : Type} [DecidableEq α] (checked : Checked α) (value : α) :
    Decidable (checked = .ok value) :=
  match checked with
  | .ok other => decidable_of_iff (other = value) (by simp)
  | .bad _ => isFalse nofun

/-- The texts of the nodes and of the edges are read back. -/
structure Graph.Legible (graph : Graph Float) : Prop where
  nodes : Json.parse (Json.ofList Node.json graph.nodes).render =
    .ok (.ofList Node.json graph.nodes)
  edges : Json.parse (Json.ofList Edge.json graph.edges).render =
    .ok (.ofList Edge.json graph.edges)

instance (graph : Graph Float) : Decidable graph.Legible :=
  decidable_of_iff (_ ∧ _)
    ⟨fun ⟨nodes, edges⟩ => ⟨nodes, edges⟩, fun legible => ⟨legible.nodes, legible.edges⟩⟩

/-- The text of a moment, as it stands in rows, is read back. -/
def Time.Timestamp.Legible (moment : Timestamp) : Prop :=
  Schema.moment (.text moment.rowText) = .ok moment

instance (moment : Timestamp) : Decidable moment.Legible :=
  inferInstanceAs (Decidable (Schema.moment _ = .ok _))

structure Workflow.Legible (workflow : Workflow) : Prop where
  graph : workflow.graph.Legible
  createdAt : workflow.createdAt.Legible
  updatedAt : workflow.updatedAt.Legible
  lastRun : ∀ moment, workflow.lastRun = some moment → moment.Legible

namespace Row

/-- The columns of a row hold the parts of a workflow. -/
structure Shows (row : Json.Members) (workflow : Workflow) : Prop where
  id : row.lookup "id" = some (.text workflow.id)
  name : row.lookup "name" = some (.text workflow.name)
  description : row.lookup "description" = some (.text workflow.description)
  nodes : row.lookup "nodes" = some (nodesText workflow.graph)
  edges : row.lookup "connections" = some (edgesText workflow.graph)
  status : row.lookup "status" = some (.text workflow.status.name)
  createdBy : row.lookup "created_by" = some (.text workflow.createdBy)
  createdAt : row.lookup "created_at" = some (.text workflow.createdAt.rowText)
  updatedAt : row.lookup "updated_at" = some (.text workflow.updatedAt.rowText)
  lastRun : (row.lookup "last_run").getD .null =
    .ofOption (fun moment => .text moment.rowText) workflow.lastRun

variable {row : Json.Members} {workflow : Workflow}

theorem column_of_lookup {name : String} {value : Json} (found : row.lookup name = some value) :
    column row name = .ok value := by
  rw [column, found]

/-- An empty text stands for a missing one, and a missing one for the default. -/
theorem filled?_text {name content : String} (found : row.lookup name = some (.text content)) :
    filled? row name = if content.isEmpty then none else some (.text content) := by
  rw [filled?, found, Option.filter_some, Json.isVacant]
  cases content.isEmpty <;> rfl

theorem items_of_parse {content : String} {value : Json} (reads : Json.parse content = .ok value) :
    items (.text content) = .ok value := by
  have filled : content.isEmpty = false := by
    rw [Bool.eq_false_iff]
    intro empty
    rw [String.isEmpty_iff.mp empty] at reads
    cases reads
  simp [items, filled, reads]

theorem rowText_filled {moment : Timestamp} (legible : moment.Legible) :
    moment.rowText.isEmpty = false := by
  rw [Bool.eq_false_iff]
  intro empty
  rw [Timestamp.Legible, String.isEmpty_iff.mp empty] at legible
  cases legible

/-- What a row that shows a workflow stands for in JSON. -/
def shown (workflow : Workflow) : Json.Members :=
  [("id", .text workflow.id), ("name", .text workflow.name),
    ("description", .text workflow.description),
    ("nodes", .ofList Node.json workflow.graph.nodes),
    ("edges", .ofList Edge.json workflow.graph.edges), ("status", .text workflow.status.name),
    ("created_at", .text workflow.createdAt.rowText),
    ("updated_at", .text workflow.updatedAt.rowText), ("created_by", .text workflow.createdBy),
    ("last_run", .ofOption (fun moment => .text moment.rowText) workflow.lastRun)]

variable {settings : Checked Settings}

theorem Shows.values_eq (shows : Shows row workflow) (legible : workflow.Legible)
    (named : creator settings row = .ok (.text workflow.createdBy)) :
    values settings row = .ok (.object (shown workflow)) := by
  have nodes : items ((row.lookup "nodes").getD .null) =
      .ok (.ofList Node.json workflow.graph.nodes) := by
    rw [shows.nodes]
    exact items_of_parse legible.graph.nodes
  have edges : items ((row.lookup "connections").getD .null) =
      .ok (.ofList Edge.json workflow.graph.edges) := by
    rw [shows.edges]
    exact items_of_parse legible.graph.edges
  have description : (filled? row "description").getD (.text "") = .text workflow.description := by
    rw [filled?_text shows.description]
    split
    · next empty => rw [String.isEmpty_iff.mp empty, Option.getD_none]
    · rfl
  have status : (filled? row "status").getD (.text Status.draft.name) =
      .text workflow.status.name := by
    rw [filled?_text shows.status]
    cases workflow.status <;> rfl
  have updatedAt : (filled? row "updated_at").getD (.text workflow.createdAt.rowText) =
      .text workflow.updatedAt.rowText := by
    rw [filled?_text shows.updatedAt, rowText_filled legible.updatedAt]
    rfl
  rw [values, column_of_lookup shows.id, column_of_lookup shows.name, nodes, edges,
    column_of_lookup shows.createdAt, named]
  -- No column has failed; what is left are the columns that may be vacant.
  change Except.ok (Json.object [_, _, ("description", (filled? row "description").getD _), _, _,
    ("status", (filled? row "status").getD _), _, ("updated_at", (filled? row "updated_at").getD _),
    _, ("last_run", (row.lookup "last_run").getD _)]) = _
  rw [description, status, updatedAt, shows.lastRun]
  rfl

theorem check_shown (legible : workflow.Legible) :
    Workflow.check .direct (.object (shown workflow)) = .ok workflow := by
  have status : member Status.choices (.text workflow.status.name) = .ok workflow.status := by
    cases workflow.status <;> rfl
  have lastRun : nullable moment (.ofOption (fun moment => .text moment.rowText) workflow.lastRun) =
      .ok workflow.lastRun := by
    cases ran : workflow.lastRun with
    | none => rfl
    | some time =>
      change (moment (.text time.rowText)).map some = _
      rw [legible.lastRun time ran]
      rfl
  rw [Workflow.check, record, shown,
    optional_eq_ok ["nodes"] rfl
      (list_ofList workflow.graph.nodes fun node _ => Node.check_json .direct node),
    optional_eq_ok ["edges"] rfl
      (list_ofList workflow.graph.edges fun edge _ => Edge.check_json .direct edge),
    optional_eq_ok ["status"] rfl status,
    required_eq_ok ["createdAt", "created_at"] rfl legible.createdAt,
    required_eq_ok ["updatedAt", "updated_at"] rfl legible.updatedAt,
    optional_eq_ok ["lastRun", "last_run"] rfl lastRun]
  rfl

/-- A row that shows a workflow is read as this workflow. -/
theorem Shows.read_eq (shows : Shows row workflow) (legible : workflow.Legible)
    (named : creator settings row = .ok (.text workflow.createdBy)) :
    read settings (.object row) = .ok workflow := by
  rw [read, shows.values_eq legible named]
  dsimp only [bind, Except.bind]
  rw [check_shown legible]
  rfl

end Row

end ReplyFlow
