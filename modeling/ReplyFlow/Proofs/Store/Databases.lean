import ReplyFlow.Proofs.Store.History
import ReplyFlow.Proofs.Store.Tables
import ReplyFlow.Store.Row

/-! Databases, and calls of a store that is kept in one.

A database is known by its answers alone. It is faithful to a table if it does with the rows what it
is asked to do. The order of the columns of a row, and that of rows that are not asked for in an
order, are left to it.
-/

set_option autoImplicit false

namespace ReplyFlow

open Schema Time

/-- What becomes of a database that is asked a query, and the rows of its tables in the order in
which they were inserted. The text is the id that a new row would get. -/
structure Database (σ : Type) where
  answer : σ → String → Query → Reply × σ
  rows : String → σ → List Json.Members

namespace Row

def hasId (id : String) (row : Json.Members) : Bool :=
  match row.lookup "id" with
  | some (.text other) => other == id
  | _ => false

/-- The moment in microseconds, whatever clock shows it. -/
def instant (moment : Timestamp) : Int :=
  moment.micros - moment.offset.getD 0 * 60 * microsPerSecond

def createdAt? (row : Json.Members) : Option Int :=
  match row.lookup "created_at" with
  | some value => (Schema.moment value).toOption.map instant
  | none => none

/-- Rows without a time of creation come last. -/
def notOlder (a b : Json.Members) : Bool :=
  match createdAt? a, createdAt? b with
  | some first, some second => second ≤ first
  | some _, none => true
  | none, some _ => false
  | none, none => true

/-- The row as it is stored: with an id, and with nothing in the columns that were not given. -/
structure Stored (id : String) (row stored : Json.Members) : Prop where
  id : stored.lookup "id" = some (.text id)
  given : ∀ column value, column ≠ "id" → row.lookup column = some value →
    stored.lookup column = some value
  others : ∀ column, column ≠ "id" → row.lookup column = none →
    (stored.lookup column).getD .null = .null

/-- Every column holds what it was changed to, and what it held before if it was not changed. -/
def Merged (changes row merged : Json.Members) : Prop :=
  ∀ column, merged.lookup column = (changes.lookup column).or (row.lookup column)

end Row

namespace Database

variable {σ : Type} (database : Database σ) (table : String)

/-- The answer to a query lists these rows, and then the table holds those. -/
def Gives (state : σ) (id : String) (query : Query) (listed kept : List Json.Members) : Prop :=
  (database.answer state id query).1 = .rows (listed.map .object) ∧
    database.rows table (database.answer state id query).2 = kept

/-- The database does with the rows of a table what it is asked to do. -/
structure Faithful : Prop where
  insert : ∀ state id row, (∀ kept ∈ database.rows table state, Row.hasId id kept = false) →
    ∃ stored, Row.Stored id row stored ∧
      database.Gives table state id (.insert table (.object row)) [stored]
        (database.rows table state ++ [stored])
  list : ∀ state id, database.Gives table state id (Table.listQuery table)
    ((database.rows table state).mergeSort Row.notOlder) (database.rows table state)
  fetch : ∀ state id key, ∃ found,
    found.Perm ((database.rows table state).filter (Row.hasId key)) ∧
      database.Gives table state id (Table.getQuery table key) found (database.rows table state)
  update : ∀ state id key changes, ∃ merge, (∀ row, Row.Merged changes row (merge row)) ∧
    ∃ changed, changed.Perm (((database.rows table state).filter (Row.hasId key)).map merge) ∧
      database.Gives table state id (.update table (.object changes) (Table.idFilter key)) changed
        ((database.rows table state).map fun row => if Row.hasId key row then merge row else row)
  delete : ∀ state id key, ∃ removed,
    removed.Perm ((database.rows table state).filter (Row.hasId key)) ∧
      database.Gives table state id (Table.deleteQuery table key) removed
        ((database.rows table state).filter (!Row.hasId key ·))

end Database

/-! ### Calls of a store in a database -/

namespace Call

/-- What a call asks of a table. -/
def asked (call : Call) (table : String) : List Query :=
  ((call.operation.on (.table table)).run.run { call.session with queries := [] }).2.queries

theorem asked_eq (call : Call) (table : String) :
    call.asked table =
      match call.operation.query table call.session with
      | .ok query => [query]
      | .error _ => [] := by
  have observed :=
    call.operation.run_on_table table { call.session with queries := [] }
  have same : call.operation.query table { call.session with queries := [] } =
      call.operation.query table call.session := by
    cases call.operation <;> rfl
  rw [same] at observed
  have queries := congrArg Prod.snd observed
  refine queries.trans ?_
  cases call.operation.query table call.session <;> rfl

variable {σ : Type} (database : Database σ) (table : String)

/-- What a call gives back if the database answers what it asks, and what becomes of the
database. -/
def exchange (call : Call) (state : σ) : Except StoreFault Outcome × σ :=
  match call.asked table with
  | [] => (((call.operation.on (.table table)).run.run call.session).1, state)
  | query :: _ =>
    let (reply, after) := database.answer state call.session.nextId query
    (((call.operation.on (.table table)).run.run { call.session with reply := reply }).1, after)

theorem exchange_eq (call : Call) (state : σ) :
    call.exchange database table state =
      match call.operation.query table call.session with
      | .ok query =>
        let (reply, after) := database.answer state call.session.nextId query
        (call.operation.outcome call.session.settings reply, after)
      | .error issues => (.error (.settings issues), state) := by
  have result (session : Session) := congrArg Prod.fst
    (call.operation.run_on_table table session)
  have same (reply : Reply) : call.operation.query table { call.session with reply := reply } =
      call.operation.query table call.session := by
    cases call.operation <;> rfl
  rw [exchange, asked_eq]
  cases asked : call.operation.query table call.session with
  | ok query =>
    refine Prod.ext ((result _).trans ?_) rfl
    rw [same, asked]
    rfl
  | error issues =>
    refine Prod.ext ((result _).trans ?_) rfl
    rw [asked]

variable {database table}

theorem exchange_of_gives (call : Call) {state : σ} {query : Query}
    {listed kept : List Json.Members} (asks : call.operation.query table call.session = .ok query)
    (gives : database.Gives table state call.session.nextId query listed kept) :
    (call.exchange database table state).1 =
        call.operation.outcome call.session.settings (.rows (listed.map .object)) ∧
      database.rows table (call.exchange database table state).2 = kept := by
  rw [exchange_eq, asks]
  dsimp only
  rw [gives.1]
  exact ⟨rfl, gives.2⟩

end Call

/-- What becomes of a database by a series of calls, and what they gave back. -/
structure Database.Run (σ : Type) where
  state : σ
  trace : Trace

namespace Database

variable {σ : Type} (database : Database σ) (table : String)

def next (run : Database.Run σ) (call : Call) : Database.Run σ :=
  ⟨(call.exchange database table run.state).2,
    ⟨call.operation, (call.exchange database table run.state).1⟩ :: run.trace⟩

/-- What a series of calls comes to, if a table is used as their store. -/
def after (start : σ) (calls : List Call) : Database.Run σ :=
  calls.foldl (database.next table) ⟨start, []⟩

end Database

namespace Samples

theorem lookup_filter {column : String} (keeps : String → Bool) (kept : keeps column = true)
    (row : Json.Members) : (row.filter (keeps ·.1)).lookup column = row.lookup column := by
  induction row with
  | nil => rfl
  | cons first rest ih =>
    obtain ⟨name, value⟩ := first
    rw [List.filter_cons]
    by_cases same : column = name
    · subst same
      simp [kept]
    · have other : (column == name) = false := beq_false_of_ne same
      split <;> simp [List.lookup_cons, other, ih]

/-- The columns that are set come first. -/
def merge (changes row : Json.Members) : Json.Members :=
  changes ++ row.filter fun column => (changes.lookup column.1).isNone

theorem merged_merge (changes row : Json.Members) : Row.Merged changes row (merge changes row) := by
  intro column
  rw [merge, List.lookup_append]
  cases set : changes.lookup column with
  | some value => rfl
  | none =>
    rw [Option.none_or, Option.none_or]
    exact lookup_filter (fun name => (changes.lookup name).isNone) (by simp [set]) row

/-- A row passes filters for columns of text. -/
def passes (filters row : Json.Members) : Bool :=
  filters.all fun (column, wanted) =>
    match row.lookup column, wanted with
    | some (.text held), .text content => held == content
    | _, _ => false

theorem passes_idFilter (id : String) : passes (Table.idFilter id) = Row.hasId id := by
  funext row
  simp only [passes, Table.idFilter, List.all_cons, List.all_nil, Bool.and_true, Row.hasId]
  cases row.lookup "id" with
  | none => rfl
  | some value => cases value <;> rfl

/-- Tables that are lists of rows. -/
def tables : Database (String → List Json.Members) where
  rows table state := state table
  answer state id query :=
    match query with
    | .insert table (.object row) =>
      let stored := ("id", .text id) :: row.filter (·.1 != "id")
      (.rows [.object stored], Function.update state table (state table ++ [stored]))
    | .select table filters order =>
      let found := (state table).filter (passes filters)
      let listed := if order = some Table.newestFirst then found.mergeSort Row.notOlder else found
      (.rows (listed.map .object), state)
    | .update table (.object changes) filters =>
      let changed := ((state table).filter (passes filters)).map (merge changes)
      (.rows (changed.map .object), Function.update state table ((state table).map fun row =>
        if passes filters row then merge changes row else row))
    | .delete table filters =>
      let removed := (state table).filter (passes filters)
      (.rows (removed.map .object),
        Function.update state table ((state table).filter (!passes filters ·)))
    | .insert .. | .update .. => (.failed "no row", state)

theorem faithful_tables (table : String) : tables.Faithful table where
  insert state id row _ := by
    have rest (column : String) (other : column ≠ "id") :
        List.lookup column (("id", .text id) :: row.filter (·.1 != "id")) = row.lookup column := by
      rw [List.lookup_cons, beq_false_of_ne other]
      exact lookup_filter (· != "id") (bne_iff_ne.mpr other) row
    refine ⟨("id", .text id) :: row.filter (·.1 != "id"), ⟨rfl, ?_, ?_⟩, rfl,
      Function.update_self ..⟩
    · exact fun column value other given => (rest column other).trans given
    · intro column other absent
      rw [rest column other, absent]
      rfl
  list state id := by
    have all : (state table).filter (passes []) = state table :=
      List.filter_eq_self.mpr fun _ _ => rfl
    refine ⟨?_, rfl⟩
    change Reply.rows ((((state table).filter (passes [])).mergeSort Row.notOlder).map .object) = _
    rw [all]
    rfl
  fetch state id key := by
    refine ⟨_, .refl _, ?_, rfl⟩
    rw [← passes_idFilter]
    rfl
  update state id key changes := by
    refine ⟨merge changes, merged_merge changes, _, .refl _, ?_⟩
    rw [← passes_idFilter]
    exact ⟨rfl, Function.update_self ..⟩
  delete state id key := by
    refine ⟨_, .refl _, ?_⟩
    rw [← passes_idFilter]
    exact ⟨rfl, Function.update_self ..⟩

end Samples

end ReplyFlow
