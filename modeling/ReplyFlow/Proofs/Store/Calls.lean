import ReplyFlow.Proofs.Sequence
import ReplyFlow.Proofs.Store.Records
import ReplyFlow.Store.Operations

/-! Calls of a store that is kept in memory.

Each call has a session of its own, so nothing is assumed of the clock, of the environment and of
the ids that are given out from one call to the next. Only the memory is carried over.
-/

set_option autoImplicit false

namespace ReplyFlow

open Schema Time

inductive Operation where
  | save (entry : Entry)
  | list
  | fetch (id : String)
  | update (id : String) (changes : Changes)
  | markRun (id : String)
  | delete (id : String)
  deriving Repr, DecidableEq

/-- What a successful operation gives back. -/
inductive Outcome where
  | workflow (workflow : Workflow)
  | workflows (workflows : List Workflow)
  | done
  deriving Repr, DecidableEq

namespace Operation

/-- The id of the workflow that must be there. -/
def target? : Operation → Option String
  | save _ | list => none
  | fetch id | update id _ | markRun id | delete id => some id

/-- The operation, done on a store. -/
def on (store : Store) : Operation → Action StoreFault Outcome
  | save entry => return .workflow (← store.save entry)
  | list => return .workflows (← store.list)
  | fetch id => return .workflow (← store.fetch id)
  | update id changes => return .workflow (← store.update id changes)
  | markRun id => return .workflow (← store.markRun id)
  | delete id => do
    store.delete id
    return .done

end Operation

namespace Session

def time (session : Session) : Timestamp :=
  .universal session.clock.micros

def nextId (session : Session) : String :=
  idOf (session.issued + 1)

/-- Who creates the workflow of an entry, or what is wrong with the settings that should say so. -/
def creator (session : Session) (entry : Entry) : Except (List Issue) String :=
  match entry.namedCreator?, session.settings with
  | some creator, _ => .ok creator
  | none, .ok settings => .ok settings.creator
  | none, .bad issues => .error issues

theorem creator_congr (later session : Session) (same : later.environment = session.environment)
    (entry : Entry) : later.creator entry = session.creator entry := by
  simp only [creator, settings, same]

def memory? (session : Session) : Option Memory :=
  match session.store with
  | some (.memory memory) => some memory
  | _ => none

end Session

/-! ### What actions come to -/

namespace Action

variable {ε : Type} (session : Session)

theorem run_get : (get : Action ε Session).run.run session = (.ok session, session) := rfl

theorem run_now : (Action.now : Action ε Timestamp).run.run session =
    (.ok session.time, { session with clock := session.clock.advance }) := rfl

theorem run_newId : (Action.newId : Action ε String).run.run session =
    (.ok session.nextId, { session with issued := session.issued + 1 }) := rfl

theorem run_settings :
    Action.settings.run.run session =
      match session.settings with
      | .ok settings => (.ok settings, session)
      | .bad issues => (.error (.settings issues), session) := by
  rw [Action.settings, run_bind]
  change StateT.run (ExceptT.run (match session.settings with
    | .ok settings => (pure settings : Action StoreFault Settings)
    | .bad issues => throw (.settings issues))) session = _
  cases session.settings <;> rfl

theorem run_creator (entry : Entry) :
    (Action.creator entry).run.run session =
      match session.creator entry with
      | .ok creator => (.ok creator, session)
      | .error issues => (.error (.settings issues), session) := by
  rw [Session.creator, Action.creator]
  cases entry.namedCreator? with
  | some creator => rfl
  | none =>
    rw [run_bind, run_settings]
    cases session.settings <;> rfl

end Action

structure Call where
  operation : Operation
  session : Session

namespace Call

/-- What a call gives back, and the memory that it leaves. -/
def perform (call : Call) (memory : Memory) : Except StoreFault Outcome × Memory :=
  let (result, session) :=
    (call.operation.on (.memory memory)).run.run (call.session.keep (.memory memory))
  (result, session.memory?.getD memory)

variable (session : Session) (memory : Memory)

theorem perform_save (entry : Entry) :
    (Call.mk (.save entry) session).perform memory =
      match session.creator entry with
      | .ok creator =>
        let workflow := Workflow.ofEntry session.nextId session.time creator entry
        (.ok (.workflow workflow), memory.put workflow)
      | .error issues => (.error (.settings issues), memory) := by
  have kept (later : Session) (same : later.environment = session.environment) :=
    later.creator_congr session same entry
  simp only [perform, Operation.on, Store.save, run_bind, Action.run_now, Action.run_newId,
    Action.run_creator, Session.keep, kept]
  cases session.creator entry <;> rfl

theorem perform_list :
    (Call.mk .list session).perform memory = (.ok (.workflows memory.list), memory) := rfl

theorem perform_fetch (id : String) :
    (Call.mk (.fetch id) session).perform memory =
      match memory.get? id with
      | some workflow => (.ok (.workflow workflow), memory)
      | none => (.error (.notFound id), memory) := by
  simp only [perform, Operation.on, Store.fetch]
  cases memory.get? id <;> rfl

theorem perform_update (id : String) (changes : Changes) :
    (Call.mk (.update id changes) session).perform memory =
      match memory.get? id with
      | some workflow =>
        let changed := workflow.update session.time changes
        (.ok (.workflow changed), memory.put changed)
      | none => (.error (.notFound id), memory) := by
  simp only [perform, Operation.on, Store.update, Memory.update?, Memory.modify?]
  cases memory.get? id <;> rfl

theorem perform_markRun (id : String) :
    (Call.mk (.markRun id) session).perform memory =
      match memory.get? id with
      | some workflow =>
        let marked := workflow.markRun session.time
        (.ok (.workflow marked), memory.put marked)
      | none => (.error (.notFound id), memory) := by
  simp only [perform, Operation.on, Store.markRun, Memory.markRun?, Memory.modify?]
  cases memory.get? id <;> rfl

theorem perform_delete (id : String) :
    (Call.mk (.delete id) session).perform memory =
      match memory.get? id with
      | some _ => (.ok .done, memory.erase id)
      | none => (.error (.notFound id), memory) := by
  simp only [perform, Operation.on, Store.delete, Memory.delete?]
  cases memory.get? id <;> rfl

/-- A store in memory remains one. -/
theorem exists_memory (operation : Operation) (held : session.store = some (.memory memory)) :
    ∃ next, ((operation.on (.memory memory)).run.run session).2.store = some (.memory next) := by
  cases operation with
  | save entry =>
    have kept (later : Session) (same : later.environment = session.environment) :=
      later.creator_congr session same entry
    simp only [Operation.on, Store.save, run_bind, Action.run_now, Action.run_newId,
      Action.run_creator, kept]
    cases session.creator entry with
    | error => exact ⟨memory, held⟩
    | ok creator => exact ⟨_, rfl⟩
  | list => exact ⟨memory, held⟩
  | fetch id =>
    simp only [Operation.on, Store.fetch]
    cases memory.get? id <;> exact ⟨memory, held⟩
  | update id changes =>
    simp only [Operation.on, Store.update, Memory.update?, Memory.modify?]
    cases memory.get? id with
    | none => exact ⟨memory, held⟩
    | some workflow => exact ⟨_, rfl⟩
  | markRun id =>
    simp only [Operation.on, Store.markRun, Memory.markRun?, Memory.modify?]
    cases memory.get? id with
    | none => exact ⟨memory, held⟩
    | some workflow => exact ⟨_, rfl⟩
  | delete id =>
    simp only [Operation.on, Store.delete, Memory.delete?]
    cases memory.get? id with
    | none => exact ⟨memory, held⟩
    | some workflow => exact ⟨_, rfl⟩

/-- A call of the store that a session holds leaves in the session what it leaves in the memory. -/
theorem run_on_memory (operation : Operation) (held : session.store = some (.memory memory)) :
    ((operation.on (.memory memory)).run.run session).1 =
        ((Call.mk operation session).perform memory).1 ∧
      ((operation.on (.memory memory)).run.run session).2.store =
        some (.memory ((Call.mk operation session).perform memory).2) := by
  have kept : session.keep (.memory memory) = session := by
    rw [Session.keep, ← held]
  have later := exists_memory session memory operation held
  rw [perform, kept]
  generalize (operation.on (.memory memory)).run.run session = done at later ⊢
  obtain ⟨result, after⟩ := done
  obtain ⟨next, known⟩ := later
  dsimp only at known ⊢
  have found : after.memory? = some next := by simp [Session.memory?, known]
  rw [found]
  exact ⟨rfl, known⟩

end Call

/-! ### What a map from ids to workflows prescribes -/

abbrev Records := String → Option Workflow

/-- What an operation may give back and leave behind in the session of its call. -/
inductive Operation.Does (session : Session) (before : Records) :
    Operation → Except StoreFault Outcome → Records → Prop where
  | saved {entry : Entry} {creator : String} {new : Workflow} :
    session.creator entry = .ok creator → before session.nextId = none →
    new = ⟨session.nextId, entry.name, entry.description, entry.graph, entry.status, session.time,
      session.time, creator, none⟩ →
    Does session before (.save entry) (.ok (.workflow new))
      (Function.update before session.nextId (some new))
  | unsaved {entry : Entry} {issues : List Issue} :
    session.creator entry = .error issues →
    Does session before (.save entry) (.error (.settings issues)) before
  | listed {workflows : List Workflow} :
    (∀ workflow, workflow ∈ workflows ↔ before workflow.id = some workflow) →
    Does session before .list (.ok (.workflows workflows)) before
  | fetched {id : String} {workflow : Workflow} :
    before id = some workflow →
    Does session before (.fetch id) (.ok (.workflow workflow)) before
  | updated {id : String} {changes : Changes} {old new : Workflow} :
    before id = some old →
    new = { old with
      name := changes.name.getD old.name
      description := changes.description.getD old.description
      graph := changes.graph.getD old.graph
      status := changes.status.getD old.status
      updatedAt := session.time } →
    Does session before (.update id changes) (.ok (.workflow new))
      (Function.update before id (some new))
  | marked {id : String} {old new : Workflow} :
    before id = some old → new = { old with lastRun := some session.time } →
    Does session before (.markRun id) (.ok (.workflow new)) (Function.update before id (some new))
  | deleted {id : String} {old : Workflow} :
    before id = some old →
    Does session before (.delete id) (.ok .done) (Function.update before id none)
  | missing {operation : Operation} {id : String} :
    operation.target? = some id → before id = none →
    Does session before operation (.error (.notFound id)) before

theorem Workflow.id_update (workflow : Workflow) (now : Timestamp) (changes : Changes) :
    (workflow.update now changes).id = workflow.id := rfl

theorem Workflow.id_markRun (workflow : Workflow) (now : Timestamp) :
    (workflow.markRun now).id = workflow.id := rfl

namespace Call

variable {memory : Memory} (call : Call)

/-- The id that a call gives out. -/
def issued? (call : Call) : Option String :=
  match call.operation with
  | .save _ => some call.session.nextId
  | _ => none

/-- What is kept stays as it is, or success has set or removed one workflow. -/
theorem perform_cases (call : Call) (memory : Memory) :
    (call.perform memory).2 = memory ∨ ∃ outcome, (call.perform memory).1 = .ok outcome ∧
      ((∃ workflow, (call.perform memory).2 = memory.put workflow) ∨
        ∃ id, (call.perform memory).2 = memory.erase id) := by
  obtain ⟨operation, session⟩ := call
  cases operation with
  | save entry =>
    rw [perform_save]
    split
    · exact .inr ⟨_, rfl, .inl ⟨_, rfl⟩⟩
    · exact .inl rfl
  | list => exact .inl rfl
  | fetch id =>
    rw [perform_fetch]
    split <;> exact .inl rfl
  | update id changes =>
    rw [perform_update]
    split
    · exact .inr ⟨_, rfl, .inl ⟨_, rfl⟩⟩
    · exact .inl rfl
  | markRun id =>
    rw [perform_markRun]
    split
    · exact .inr ⟨_, rfl, .inl ⟨_, rfl⟩⟩
    · exact .inl rfl
  | delete id =>
    rw [perform_delete]
    split
    · exact .inr ⟨_, rfl, .inr ⟨_, rfl⟩⟩
    · exact .inl rfl

theorem distinct_perform (distinct : memory.Distinct) : (call.perform memory).2.Distinct := by
  rcases call.perform_cases memory with same | ⟨_, _, ⟨workflow, put⟩ | ⟨id, erased⟩⟩
  · rw [same]
    exact distinct
  · rw [put]
    exact distinct.put workflow
  · rw [erased]
    exact distinct.erase id

/-- A call that fails leaves everything as it was, the order of the workflows included. -/
theorem perform_of_error {fault : StoreFault} (failed : (call.perform memory).1 = .error fault) :
    (call.perform memory).2 = memory := by
  rcases call.perform_cases memory with same | ⟨outcome, done, _⟩
  · exact same
  · rw [failed] at done
    cases done

theorem does_perform (distinct : memory.Distinct)
    (fresh : ∀ id, call.issued? = some id → memory.get? id = none) :
    call.operation.Does call.session memory.get? (call.perform memory).1
      (call.perform memory).2.get? := by
  obtain ⟨operation, session⟩ := call
  cases operation with
  | save entry =>
    rw [perform_save]
    split
    · next creator named =>
      dsimp only
      rw [Memory.get?_put]
      exact .saved named (fresh _ rfl) rfl
    · next named => exact .unsaved named
  | list =>
    rw [perform_list]
    refine .listed fun workflow => ?_
    rw [Memory.mem_list, distinct.get?_eq_some_iff]
    simp
  | fetch id =>
    rw [perform_fetch]
    split
    · next found => exact .fetched found
    · next absent => exact .missing rfl absent
  | update id changes =>
    rw [perform_update]
    split
    · next old found =>
      have key : old.id = id := Memory.id_of_get? found
      dsimp only
      rw [Memory.get?_put, Workflow.id_update, key]
      exact .updated found rfl
    · next absent => exact .missing rfl absent
  | markRun id =>
    rw [perform_markRun]
    split
    · next old found =>
      have key : old.id = id := Memory.id_of_get? found
      dsimp only
      rw [Memory.get?_put, Workflow.id_markRun, key]
      exact .marked found rfl
    · next absent => exact .missing rfl absent
  | delete id =>
    rw [perform_delete]
    split
    · next old found =>
      dsimp only
      rw [Memory.get?_erase]
      exact .deleted found
    · next absent => exact .missing rfl absent

end Call

end ReplyFlow
