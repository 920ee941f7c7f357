import ReplyFlow.Proofs.Store.Calls

/-! Operations of a store that is kept in a table.

An operation asks one query, which does not depend on the answer, and what it gives back is read
from the answer alone. Only a save may ask nothing, where nobody can be named as the creator.
-/

set_option autoImplicit false

namespace ReplyFlow

open Schema

namespace Action

variable {ε α : Type} (session : Session)

theorem run_ask (query : Query) : (Action.ask query : Action ε Reply).run.run session =
    (.ok session.reply, { session with queries := session.queries ++ [query] }.log
      (query.events session.reply)) := rfl

theorem run_expect (result : Except StoreFault α) :
    (Action.expect result).run.run session = (result, session) := by
  cases result <;> rfl

end Action

namespace Operation

/-- What is asked of a table, or what is wrong with the settings that should name a creator. -/
def query (table : String) (session : Session) : Operation → Except (List Issue) Query
  | save entry =>
    (session.creator entry).map fun creator => Table.saveQuery table session.time creator entry
  | list => .ok (Table.listQuery table)
  | fetch id => .ok (Table.getQuery table id)
  | update id changes => .ok (Table.updateQuery table id session.time changes)
  | markRun id => .ok (Table.markRunQuery table id session.time)
  | delete id => .ok (Table.deleteQuery table id)

/-- What is read from the answer of a table. -/
def outcome (settings : Checked Settings) (reply : Reply) : Operation → Except StoreFault Outcome
  | save _ => (Table.saved settings reply).map .workflow
  | list => (Table.listed settings reply).map .workflows
  | fetch id => (Table.fetched settings id reply).map .workflow
  | update id _ => (Table.updated settings id reply).map .workflow
  | markRun id => (Table.updated settings id reply).map .workflow
  | delete id => (Table.deleted id reply).map fun _ => .done

variable (table : String) (session : Session)

/-- What is given back and what is asked, if the operation is done on a table. -/
theorem run_on_table (operation : Operation) :
    let (result, after) := (operation.on (.table table)).run.run session
    (result, after.queries) =
      match operation.query table session with
      | .ok query => (operation.outcome session.settings session.reply, session.queries ++ [query])
      | .error issues => (.error (.settings issues), session.queries) := by
  cases operation with
  | save entry =>
    simp only [on, Store.save, query, outcome, run_bind, Action.run_now, Action.run_creator,
      Session.creator_congr { session with clock := session.clock.advance } session rfl]
    cases session.creator entry with
    | error => rfl
    | ok creator =>
      simp only [Action.run_ask, Action.run_get, Action.run_expect, Session.log, Session.settings]
      cases Table.saved (Settings.ofEnvironment session.environment) session.reply <;> rfl
  | list =>
    simp only [on, Store.list, query, outcome, run_bind, Action.run_ask, Action.run_get,
      Action.run_expect, Session.log, Session.settings]
    cases Table.listed (Settings.ofEnvironment session.environment) session.reply <;> rfl
  | fetch id =>
    simp only [on, Store.fetch, query, outcome, run_bind, Action.run_ask, Action.run_get,
      Action.run_expect, Session.log, Session.settings]
    cases Table.fetched (Settings.ofEnvironment session.environment) id session.reply <;> rfl
  | update id changes =>
    simp only [on, Store.update, query, outcome, run_bind, Action.run_now, Action.run_ask,
      Action.run_get, Action.run_expect, Session.log, Session.settings]
    cases Table.updated (Settings.ofEnvironment session.environment) id session.reply <;> rfl
  | markRun id =>
    simp only [on, Store.markRun, query, outcome, run_bind, Action.run_now, Action.run_ask,
      Action.run_get, Action.run_expect, Session.log, Session.settings]
    cases Table.updated (Settings.ofEnvironment session.environment) id session.reply <;> rfl
  | delete id =>
    simp only [on, Store.delete, query, outcome, run_bind, Action.run_ask, Action.run_expect]
    cases Table.deleted id session.reply <;> rfl

end Operation

end ReplyFlow
