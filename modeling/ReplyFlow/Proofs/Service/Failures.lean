import ReplyFlow.Proofs.Service.Stages
import ReplyFlow.Proofs.Store.Tables

/-! How failures of a table are told.

Whatever a table answers, an operation fails with a store error, for which there is a message, as
long as the rows that it reads stand for workflows. A row that does not is no store error, and the
request ends in a crash.
-/

set_option autoImplicit false

namespace ReplyFlow

open Schema

theorem exists_of_bind_ok {ε α β : Type} {first : Except ε α} {next : α → Except ε β} {result : β}
    (known : first >>= next = .ok result) :
    ∃ value, first = .ok value ∧ next value = .ok result := by
  cases first with
  | ok value => exact ⟨value, rfl, known⟩
  | error fault => cases known

/-! ### Rows that stand for a workflow -/

namespace Row

def Readable (settings : Checked Settings) (row : Json) : Prop :=
  ∃ workflow, read settings row = .ok workflow

instance (settings : Checked Settings) (row : Json) : Decidable (Readable settings row) :=
  match known : read settings row with
  | .ok workflow => isTrue ⟨workflow, known⟩
  | .error _ => isFalse fun ⟨_, readable⟩ => by simp [known] at readable

/-- What a row must have to stand for a workflow. -/
structure Complete (settings : Checked Settings) (row : Json.Members) : Prop where
  columns : ∀ name ∈ ["id", "name", "created_at"], (row.lookup name).isSome
  items : ∀ name ∈ ["nodes", "connections"],
    ∃ value, items ((row.lookup name).getD .null) = .ok value
  creator : ∃ value, creator settings row = .ok value

variable {settings : Checked Settings} {row : Json.Members}

theorem isSome_of_column {name : String} {value : Json} (known : column row name = .ok value) :
    (row.lookup name).isSome := by
  rw [column] at known
  cases found : row.lookup name with
  | some => rfl
  | none =>
    rw [found] at known
    cases known

theorem complete_of_values {value : Json} (known : values settings row = .ok value) :
    Complete settings row := by
  obtain ⟨id, hasId, known⟩ := exists_of_bind_ok known
  obtain ⟨name, hasName, known⟩ := exists_of_bind_ok known
  obtain ⟨nodes, hasNodes, known⟩ := exists_of_bind_ok known
  obtain ⟨edges, hasEdges, known⟩ := exists_of_bind_ok known
  obtain ⟨createdAt, hasTime, known⟩ := exists_of_bind_ok known
  obtain ⟨creator, hasCreator, _⟩ := exists_of_bind_ok known
  exact {
    columns := by
      simp only [List.forall_mem_cons]
      exact ⟨isSome_of_column hasId, isSome_of_column hasName, isSome_of_column hasTime, nofun⟩
    items := by
      simp only [List.forall_mem_cons]
      exact ⟨⟨nodes, hasNodes⟩, ⟨edges, hasEdges⟩, nofun⟩
    creator := ⟨creator, hasCreator⟩ }

theorem Readable.complete (readable : Readable settings (.object row)) :
    Complete settings row := by
  obtain ⟨workflow, known⟩ := readable
  rw [read] at known
  cases found : values settings row with
  | ok value => exact complete_of_values found
  | error fault =>
    rw [found] at known
    cases known

end Row

/-! ### Failures of operations -/

/-- What fails, fails with a store error. -/
def Surfaces {α : Type} (result : Except StoreFault α) : Prop :=
  ∀ fault, result = .error fault → fault.message?.isSome

section

variable {α β : Type} {settings : Checked Settings}

theorem surfaces_map {result : Except StoreFault α} {f : α → β} :
    Surfaces (result.map f) ↔ Surfaces result := by
  cases result <;> simp [Surfaces, Except.map]

theorem surfaces_readRow {row : Json} :
    Surfaces (Table.readRow settings row) ↔ Row.Readable settings row := by
  rw [Table.readRow, Row.Readable]
  cases Row.read settings row <;> simp [Surfaces, Except.mapError, StoreFault.message?]

theorem not_surfaces_row (fault : RowFault) : ¬ Surfaces (.error (.row fault) : Except _ α) :=
  fun surfaces => nomatch surfaces _ rfl

theorem surfaces_ok (value : α) : Surfaces (.ok value) :=
  nofun

theorem surfaces_failed (action : StoreAction) (cause : String) :
    Surfaces (.error (.failed action cause) : Except StoreFault α) := by
  rintro _ ⟨⟩
  cases action <;> rfl

theorem surfaces_listed {rows : List Json} :
    Surfaces (Table.listed settings (.rows rows)) ↔ ∀ row ∈ rows, Row.Readable settings row := by
  change Surfaces (rows.mapM (Table.readRow settings)) ↔ _
  induction rows with
  | nil => exact iff_of_true (surfaces_ok []) (by simp)
  | cons first rest ih =>
    rw [List.mapM_cons, List.forall_mem_cons, ← ih, ← surfaces_readRow, Table.readRow]
    cases Row.read settings first with
    | error fault =>
      exact iff_of_false (not_surfaces_row fault) fun both => not_surfaces_row fault both.1
    | ok workflow =>
      refine Iff.trans ?_ (and_iff_right (surfaces_ok workflow)).symm
      exact surfaces_map

theorem surfaces_found {id : String} {rows : List Json} :
    Surfaces (Table.found settings id rows) ↔ ∀ row ∈ rows.take 1, Row.Readable settings row := by
  cases rows with
  | nil => simp [Surfaces, Table.found, StoreFault.message?]
  | cons first rest => simp [Table.found, surfaces_readRow]

theorem surfaces_saved {rows : List Json} :
    Surfaces (Table.saved settings (.rows rows)) ↔
      ∀ row ∈ (rows.take 1).filter (!·.isVacant), Row.Readable settings row := by
  cases rows with
  | nil =>
    refine iff_of_true ?_ (by simp)
    rintro _ ⟨⟩
    rfl
  | cons first rest =>
    change Surfaces (if first.isVacant then throw .nothingReturned
      else Table.readRow settings first) ↔ _
    rw [List.take_succ_cons, List.take_zero, List.filter_cons]
    cases first.isVacant with
    | true =>
      refine iff_of_true ?_ (by simp)
      rintro _ ⟨⟩
      rfl
    | false => simp [surfaces_readRow]

end

namespace Operation

/-- The rows of an answer that an operation takes for workflows. -/
def reads : Operation → Reply → List Json
  | _, .failed _ => []
  | save _, .rows rows => (rows.take 1).filter (!·.isVacant)
  | list, .rows rows => rows
  | fetch _, .rows rows | update .., .rows rows | markRun _, .rows rows => rows.take 1
  | delete _, .rows _ => []

theorem surfaces_outcome {operation : Operation} {settings : Checked Settings} {reply : Reply} :
    Surfaces (operation.outcome settings reply) ↔
      ∀ row ∈ operation.reads reply, Row.Readable settings row := by
  cases reply with
  | failed cause =>
    refine iff_of_true ?_ (by simp [reads])
    cases operation <;> exact surfaces_failed _ cause
  | rows rows =>
    cases operation with
    | save => exact surfaces_map.trans surfaces_saved
    | list => exact surfaces_map.trans surfaces_listed
    | fetch | update | markRun => exact surfaces_map.trans surfaces_found
    | delete id =>
      refine iff_of_true ?_ (by simp [reads])
      cases rows with
      | nil =>
        rintro _ ⟨⟩
        rfl
      | cons => exact surfaces_ok _

/-- Somebody can be named as the creator, and the rows that are read stand for workflows. -/
def Served (operation : Operation) (table : String) (session : Session) : Prop :=
  (∃ query, operation.query table session = .ok query) ∧
    ∀ row ∈ operation.reads session.reply, Row.Readable session.settings row

/-- What an operation on a table gives back. -/
def result (operation : Operation) (table : String) (session : Session) :
    Except StoreFault Outcome :=
  ((operation.on (.table table)).run.run session).1

variable (operation : Operation) (table : String) (session : Session)

theorem result_eq :
    operation.result table session =
      match operation.query table session with
      | .ok _ => operation.outcome session.settings session.reply
      | .error issues => .error (.settings issues) := by
  refine (congrArg Prod.fst (operation.run_on_table table session)).trans ?_
  cases operation.query table session <;> rfl

theorem surfaces_result :
    Surfaces (operation.result table session) ↔ operation.Served table session := by
  rw [result_eq, Served]
  cases operation.query table session with
  | ok query => simp [surfaces_outcome]
  | error issues =>
    refine iff_of_false (fun surfaces => nomatch surfaces _ rfl) ?_
    simp

theorem outcome_failed (settings : Checked Settings) (cause : String) :
    operation.outcome settings (.failed cause) = .error (.failed operation.action cause) := by
  cases operation <;> rfl

end Operation

/-! ### Answers -/

namespace Endpoint

variable {endpoint : Endpoint} {operation : Operation} {fault : StoreFault}

theorem status_refusal (told : fault.message?.isSome) :
    (endpoint.refusal operation fault).answer.status ∈ [404, 502] := by
  cases fault with
  | notFound =>
    cases endpoint with
    | saveTemplates => exact .tail _ (.head _)
    | _ => exact .head _
  | failed action => cases endpoint <;> cases action <;> exact .tail _ (.head _)
  | nothingReturned => cases endpoint <;> exact .tail _ (.head _)
  | row | settings => cases told

theorem refusal_eq_crash (silent : fault.message? = none) :
    endpoint.refusal operation fault = .crash := by
  unfold refusal
  rw [silent]

theorem status_refusal_mem (endpoint : Endpoint) (operation : Operation) (fault : StoreFault) :
    (endpoint.refusal operation fault).answer.status ∈ [500, 404, 502] := by
  cases told : fault.message? with
  | none =>
    rw [refusal_eq_crash told]
    exact .head _
  | some message => exact .tail _ (status_refusal (Option.isSome_of_eq_some told))

variable {table : String} {request : Request} {before session : Session}
  (prepared : (endpoint.prepare request).run.run before =
    (.ok (.asks (.table table) operation), session))

include prepared

theorem answer_on_table : (endpoint.answer request before).1 =
    match operation.result table session with
    | .ok outcome => .ofJson (endpoint.told outcome)
    | .error fault => (endpoint.refusal operation fault).answer := by
  rw [answer_of_asks prepared, Operation.result]
  rcases (operation.on (.table table)).run.run session with ⟨_ | _, _⟩ <;> rfl

theorem status_of_served (served : operation.Served table session) :
    (endpoint.answer request before).1.status ∈ [200, 404, 502] := by
  have surfaces := (operation.surfaces_result table session).mpr served
  rw [answer_on_table prepared]
  cases known : operation.result table session with
  | ok => exact .head _
  | error fault => exact .tail _ (status_refusal (surfaces fault known))

theorem crash_of_not_served (unserved : ¬ operation.Served table session) :
    (endpoint.answer request before).1 = .crash := by
  rw [← operation.surfaces_result table session, Surfaces] at unserved
  push Not at unserved
  obtain ⟨fault, known, silent⟩ := unserved
  rw [answer_on_table prepared, known]
  dsimp only
  rw [refusal_eq_crash (by simpa using silent)]
  rfl

end Endpoint

/-- How an operation on a table may fail, and how a request for it is then answered. -/
structure Operation.Fails (operation : Operation) (table : String) (session : Session) : Prop where
  surfaces : Surfaces (operation.result table session) ↔ operation.Served table session
  refused : ∀ cause query, session.reply = .failed cause →
    operation.query table session = .ok query →
    operation.result table session = .error (.failed operation.action cause)
  incomplete : ∀ row, .object row ∈ operation.reads session.reply →
    ¬ Row.Complete session.settings row → ¬ operation.Served table session
  answered : ∀ (endpoint : Endpoint) (request : Request) (before : Session),
    (endpoint.prepare request).run.run before = (.ok (.asks (.table table) operation), session) →
      (operation.Served table session →
        (endpoint.answer request before).1.status ∈ [200, 404, 502]) ∧
      (¬ operation.Served table session → (endpoint.answer request before).1 = .crash)

/-- All that a table can answer is told as a store error, other than rows that are read and do not
stand for a workflow. -/
theorem Operation.fails (operation : Operation) (table : String) (session : Session) :
    operation.Fails table session where
  surfaces := operation.surfaces_result table session
  refused cause query failed asked := by
    rw [result_eq, asked, failed]
    exact operation.outcome_failed session.settings cause
  incomplete row read lacking served := lacking (served.2 _ read).complete
  answered endpoint request before prepared :=
    ⟨Endpoint.status_of_served prepared, Endpoint.crash_of_not_served prepared⟩

namespace Samples

/-- A session with a store in a table that will answer with this row. -/
def tableSession (row : Json.Members) : Session :=
  { Session.opening [] 0 none with
    store := some (.table "workflows"), reply := .rows [.object row] }

/-- The id, the name and the time of creation are all that a row needs. -/
def minimal : Json.Members :=
  [("id", .whole 7), ("name", .text "Outreach"), ("created_at", .whole 0), ("status", .null),
    ("nodes", .null), ("connections", .text "")]

def withoutId : Json.Members :=
  minimal.tail

def fetching : Request :=
  ⟨"GET", "/api/workflows/7", "", ""⟩

example : (Operation.fetch "7").Served "workflows" (tableSession minimal) :=
  ⟨⟨_, rfl⟩, by decide +kernel⟩

end Samples

/-- A row without an id is no store error. -/
theorem Operation.not_surfaces_withoutId :
    ¬ Surfaces ((Operation.fetch "7").result "workflows" (Samples.tableSession Samples.withoutId)) ∧
      (Samples.fetching.answer (Samples.tableSession Samples.withoutId)).1.status = 500 := by
  constructor
  · intro surfaces
    rw [surfaces_result] at surfaces
    have complete := (surfaces.2 _ (.head _)).complete
    have known := complete.columns "id" (.head _)
    cases known
  · decide +kernel

end ReplyFlow
