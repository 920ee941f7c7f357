import ReplyFlow.Journal.Event

/-! What is asked of a table, and what it answers. -/

set_option autoImplicit false

namespace ReplyFlow

/-- An order by one column. -/
structure ColumnOrder where
  column : String
  descending : Bool
  deriving Repr, DecidableEq

inductive Query where
  | insert (table : String) (row : Json)
  | select (table : String) (filters : Json.Members) (order : Option ColumnOrder)
  | update (table : String) (changes : Json) (filters : Json.Members)
  | delete (table : String) (filters : Json.Members)

/-- The rows concerned, or the text of a failure. -/
inductive Reply where
  | rows (rows : List Json)
  | failed (error : String)

namespace Query

def action : Query → TableAction
  | .insert .. => .insert
  | .select .. => .select
  | .update .. => .update
  | .delete .. => .delete

def table : Query → String
  | .insert table .. => table
  | .select table .. => table
  | .update table .. => table
  | .delete table .. => table

/-- One link of the chain of calls by which a query is put together: a method, its arguments and
its options. -/
structure Call where
  method : String
  arguments : List Json
  options : Json.Members

def Call.json (call : Call) : Json :=
  .list [.text call.method, .list call.arguments, .object call.options]

/-- Only rows that are equal in every one of these columns. -/
def filterCalls (filters : Json.Members) : List Call :=
  filters.map fun (column, value) => ⟨"eq", [.text column, value], []⟩

def orderCalls : Option ColumnOrder → List Call
  | none => []
  | some order => [⟨"order", [.text order.column], [("desc", .bool order.descending)]⟩]

def calls (query : Query) : List Call :=
  ⟨"table", [.text query.table], []⟩ :: (match query with
    | .insert _ row => [⟨"insert", [row], []⟩]
    | .select _ filters order =>
      ⟨"select", [.text "*"], []⟩ :: filterCalls filters ++ orderCalls order
    | .update _ changes filters => ⟨"update", [changes], []⟩ :: filterCalls filters
    | .delete _ filters => ⟨"delete", [], []⟩ :: filterCalls filters)
    ++ [⟨"execute", [], []⟩]

/-- What a query gives back: the stored row where one was inserted, else all rows concerned. -/
def result (query : Query) (rows : List Json) : Json :=
  match query with
  | .insert .. => rows.headD (.object [])
  | _ => .list rows

/-- What is logged about an answer. -/
def events (query : Query) : Reply → Journal
  | .rows _ => []
  | .failed error => [.tableFailed query.action query.table error]

end Query

end ReplyFlow
