import ReplyFlow.Proofs.Store.Agreement
import ReplyFlow.Proofs.Store.Legible

/-! What a save writes into a table, and what it is read as.

A table gives the row an id of its own kind. It may also give the nodes and the edges back as lists
where their texts were written, and nothing or an empty text may stand where there are none.
-/

set_option autoImplicit false

namespace ReplyFlow

open Schema Time

namespace Row

/-- The items that stand in a column, where it does not hold them as a list. -/
inductive Denotes : Json → List Json → Prop where
  | null : Denotes .null []
  | empty : Denotes (.text "") []
  | text {content : String} {items : List Json} :
    Json.parse content = .ok (.list items) → Denotes (.text content) items

theorem Denotes.items_eq {column : Json} {items : List Json} (denotes : Denotes column items) :
    Row.items column = .ok (.list items) := by
  cases denotes with
  | null | empty => rfl
  | text reads => exact items_of_parse reads

/-- A column is kept, or replaced by the list of its items. A missing column holds nothing. -/
def Unfolds (row other : Json.Members) (column : String) : Prop :=
  other.lookup column = row.lookup column ∨
    ∃ items, Denotes ((row.lookup column).getD .null) items ∧
      other.lookup column = some (.list items)

theorem Unfolds.items_eq {row other : Json.Members} {column : String}
    (unfolds : Unfolds row other column) :
    Row.items ((other.lookup column).getD .null) = Row.items ((row.lookup column).getD .null) := by
  rcases unfolds with same | ⟨items, denotes, found⟩
  · rw [same]
  · rw [found, denotes.items_eq]
    rfl

/-- The row with the nodes or the edges decoded. -/
structure Decoded (row other : Json.Members) : Prop where
  nodes : Unfolds row other "nodes"
  edges : Unfolds row other "connections"
  others : ∀ column, column ≠ "nodes" → column ≠ "connections" →
    other.lookup column = row.lookup column

/-- The row with an id; columns that were not given hold nothing. -/
structure Identified (id : Json) (row other : Json.Members) : Prop where
  id : other.lookup "id" = some id
  others : ∀ column, column ≠ "id" →
    (other.lookup column).getD .null = (row.lookup column).getD .null

/-- Both rows are read from the same parts, though their columns may differ. -/
structure Alike (row other : Json.Members) : Prop where
  id : (other.lookup "id").map Json.display = (row.lookup "id").map Json.display
  nodes : items ((other.lookup "nodes").getD .null) = items ((row.lookup "nodes").getD .null)
  edges : items ((other.lookup "connections").getD .null) =
    items ((row.lookup "connections").getD .null)
  others : ∀ column ∈ ["name", "description", "status", "created_by", "created_at", "updated_at",
    "last_run"], other.lookup column = row.lookup column

variable {row other : Json.Members}

theorem Alike.values_eq (alike : Alike row other) (settings : Checked Settings) :
    values settings other = values settings row := by
  have name := alike.others "name" (by decide)
  have description := alike.others "description" (by decide)
  have status := alike.others "status" (by decide)
  have createdBy := alike.others "created_by" (by decide)
  have createdAt := alike.others "created_at" (by decide)
  have updatedAt := alike.others "updated_at" (by decide)
  have lastRun := alike.others "last_run" (by decide)
  have creator : creator settings other = creator settings row := by
    simp only [Row.creator, filled?, createdBy]
  have id := alike.id
  simp only [values, column, filled?, name, description, status, createdAt, updatedAt, lastRun,
    alike.nodes, alike.edges, creator]
  -- Only the id is left, of which no more is read than how it is shown.
  cases new : other.lookup "id" with
  | none =>
    rw [new, Option.map_none] at id
    rw [Option.map_eq_none_iff.mp id.symm]
  | some found =>
    rw [new, Option.map_some] at id
    obtain ⟨shown, old, same⟩ := Option.map_eq_some_iff.mp id.symm
    rw [old]
    dsimp only [bind, Except.bind]
    rw [same]

theorem Alike.read_eq (alike : Alike row other) (settings : Checked Settings) :
    read settings (.object other) = read settings (.object row) := by
  rw [read, read, alike.values_eq]

/-- Whether the nodes and the edges come back as they were written or decoded makes no
difference. -/
theorem Decoded.alike (decoded : Decoded row other) : Alike row other where
  id := by rw [decoded.others "id" (by decide) (by decide)]
  nodes := decoded.nodes.items_eq
  edges := decoded.edges.items_eq
  others column member := by
    refine decoded.others column ?_ ?_
    · rintro rfl
      exact absurd member (by decide)
    · rintro rfl
      exact absurd member (by decide)

/-- A column in which something was written stands in the row that is stored. -/
theorem Identified.lookup_text {id : Json} (identified : Identified id row other) {column : String}
    (apart : column ≠ "id") {content : String}
    (written : row.lookup column = some (.text content)) :
    other.lookup column = some (.text content) := by
  have same := identified.others column apart
  rw [written, Option.getD_some] at same
  cases found : other.lookup column with
  | none =>
    rw [found, Option.getD_none] at same
    cases same
  | some value =>
    rw [found, Option.getD_some] at same
    rw [same]

/-- A row under the text by which its id is shown. -/
def shownId (id : Json) (row : Json.Members) : Json.Members :=
  ("id", .text id.display) :: row

theorem lookup_shownId {column : String} (apart : column ≠ "id") (id : Json)
    (row : Json.Members) : (shownId id row).lookup column = row.lookup column := by
  rw [shownId, List.lookup_cons, beq_false_of_ne apart]

theorem Identified.alike {id : Json} (identified : Identified id row other) :
    Alike (shownId id other) other where
  id := by
    rw [identified.id]
    rfl
  nodes := by rw [lookup_shownId (by decide)]
  edges := by rw [lookup_shownId (by decide)]
  others column member := by
    refine (lookup_shownId ?_ id other).symm
    rintro rfl
    exact absurd member (by decide)

variable {now : Timestamp} {creator : String} {entry : Entry}

theorem Identified.shows {id : Json}
    (identified : Identified id (ofEntry now creator entry) other) :
    Shows (shownId id other) (.ofEntry id.display now creator entry) where
  id := rfl
  name := identified.lookup_text (by decide) rfl
  description := identified.lookup_text (by decide) rfl
  nodes := identified.lookup_text (by decide) rfl
  edges := identified.lookup_text (by decide) rfl
  status := identified.lookup_text (by decide) rfl
  createdBy := identified.lookup_text (by decide) rfl
  createdAt := identified.lookup_text (by decide) rfl
  updatedAt := identified.lookup_text (by decide) rfl
  lastRun := identified.others "last_run" (by decide)

/-- An empty name of the creator is only kept where the settings name nobody either. -/
theorem Identified.read_eq {settings : Checked Settings} {id : Json}
    (identified : Identified id (ofEntry now creator entry) other)
    (storable : (Workflow.ofEntry id.display now creator entry).Storable settings) :
    read settings (.object other) = .ok (.ofEntry id.display now creator entry) := by
  rw [identified.alike.read_eq settings]
  exact identified.shows.read_eq storable.legible (identified.shows.creator_eq storable)

end Row

/-- What a save writes is read as what was saved, whatever id it got. -/
structure Entry.ReadsBack (entry : Entry) (session : Session) (creator : String) : Prop where
  asked : ∀ table, (Call.mk (.save entry) session).asked table =
    [.insert table (.object (Row.ofEntry session.time creator entry))]
  read : ∀ id row, Row.Identified id (Row.ofEntry session.time creator entry) row →
    Row.read session.settings (.object row) = .ok (.ofEntry id.display session.time creator entry)

/-- A row gives back what was written into it, and its nodes and edges may be decoded before.
`Graph.legible_iff` tells which graphs are legible. -/
theorem Row.reads_back {session : Session} (inRange : session.time.InRange) {entry : Entry}
    (legible : entry.graph.Legible) {creator : String}
    (named : session.creator entry = .ok creator) :
    entry.ReadsBack session creator ∧
      ∀ settings row other, Row.Decoded row other →
        Row.read settings (.object other) = Row.read settings (.object row) := by
  have written : (Call.mk (.save entry) session).Legible :=
    ⟨inRange.legible, by rintro _ ⟨⟩; exact legible⟩
  refine ⟨⟨fun table => ?_, fun id row identified => ?_⟩, fun settings _ _ decoded =>
    decoded.alike.read_eq settings⟩
  · rw [Call.asked_eq, Operation.query, named]
    rfl
  · exact identified.read_eq (.ofEntry written named)

namespace Samples

/-- A question to a candidate, saved without a name. -/
def errand : Entry where
  name := ""
  description := "Say \"hi\""
  graph := ⟨[⟨"m", .message, ⟨0, -1.5⟩, .message "" (-7) "☎\n" "x", rfl⟩],
    [⟨"e", "m", "m", some ""⟩]⟩
  status := .inactive
  creator := some "HR"

/-- The row of the errand under an id of its own. -/
def errandRow : Json.Members :=
  ("id", .whole 42) :: Row.ofEntry (.universal 50) "HR" errand

theorem identified_errandRow :
    Row.Identified (.whole 42) (Row.ofEntry (.universal 50) "HR" errand) errandRow where
  id := rfl
  others column apart := by rw [errandRow, List.lookup_cons, beq_false_of_ne apart]

/-- The same row with its nodes and edges decoded. -/
def decodedRow : Json.Members :=
  [("nodes", .ofList Node.json errand.graph.nodes),
    ("connections", .ofList Edge.json errand.graph.edges)] ++ errandRow

theorem decoded_errandRow (legible : errand.graph.Legible) : Row.Decoded errandRow decodedRow where
  nodes := .inr ⟨_, .text legible.nodes, rfl⟩
  edges := .inr ⟨_, .text legible.edges, rfl⟩
  others column nodes edges := by
    simp [decodedRow, List.lookup_cons, beq_false_of_ne nodes, beq_false_of_ne edges]

end Samples

theorem Row.reads_back_errand :
    (Samples.sessionAt 50 0).time.InRange ∧ Samples.errand.graph.Legible ∧
      (Samples.sessionAt 50 0).creator Samples.errand = .ok "HR" ∧
      Row.read (Samples.sessionAt 50 0).settings (.object Samples.errandRow) =
        .ok (.ofEntry "42" ⟨50, some 0⟩ "HR" Samples.errand) ∧
      Row.read (Samples.sessionAt 50 0).settings (.object Samples.decodedRow) =
        .ok (.ofEntry "42" ⟨50, some 0⟩ "HR" Samples.errand) := by
  have inRange : (Samples.sessionAt 50 0).time.InRange :=
    ⟨⟨by decide, by rintro _ ⟨⟩; decide⟩, by decide⟩
  have legible : Samples.errand.graph.Legible := Graph.legible_iff.mpr (by decide)
  have named : (Samples.sessionAt 50 0).creator Samples.errand = .ok "HR" := rfl
  obtain ⟨saved, decoded⟩ := Row.reads_back inRange legible named
  have read := saved.read _ _ Samples.identified_errandRow
  have shown : (Json.whole 42).display = "42" := by decide +kernel
  rw [shown] at read
  exact ⟨inRange, legible, named, read,
    (decoded _ _ _ (Samples.decoded_errandRow legible)).trans read⟩

end ReplyFlow
