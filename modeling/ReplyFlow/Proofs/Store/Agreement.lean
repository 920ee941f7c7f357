import ReplyFlow.Proofs.Store.Mirrored

/-! Stores in a faithful database and stores in memory give back the same, call by call.

After every call the rows of the table hold what is then in memory.
-/

set_option autoImplicit false

namespace ReplyFlow

open Schema Time

/-- The graph that an operation hands over. -/
def Operation.graph? : Operation → Option (Graph Float)
  | save entry => some entry.graph
  | update _ changes => changes.graph
  | list | fetch _ | markRun _ | delete _ => none

/-- What a call writes down is read back. -/
structure Call.Legible (call : Call) : Prop where
  time : call.session.time.Legible
  graph : ∀ graph, call.operation.graph? = some graph → graph.Legible

instance (call : Call) : Decidable call.Legible :=
  decidable_of_iff (call.session.time.Legible ∧ ∀ graph ∈ call.operation.graph?, graph.Legible)
    ⟨fun ⟨time, graph⟩ => ⟨time, graph⟩, fun legible => ⟨legible.time, legible.graph⟩⟩

namespace Workflow.Storable

variable {session : Session} {workflow : Workflow}

theorem ofEntry {entry : Entry} {creator id : String}
    (legible : (Call.mk (.save entry) session).Legible)
    (named : session.creator entry = .ok creator) :
    (Workflow.ofEntry id session.time creator entry).Storable session.settings where
  legible := ⟨legible.graph _ rfl, legible.time, legible.time, nofun⟩
  universal := rfl
  creator := by
    rintro (rfl : creator = "")
    rw [Session.creator] at named
    cases given : entry.namedCreator? with
    | some creator =>
      rw [given] at named
      cases named
      rw [Entry.namedCreator?, Option.filter_eq_some_iff] at given
      exact absurd given.2 (by decide)
    | none =>
      rw [given] at named
      cases valid : session.settings with
      | bad => simp [valid] at named
      | ok settings =>
        rw [valid] at named
        exact ⟨settings, rfl, Except.ok.inj named⟩

theorem update {settings : Checked Settings} (storable : workflow.Storable settings) {id : String}
    {changes : Changes} (legible : (Call.mk (.update id changes) session).Legible) :
    (workflow.update session.time changes).Storable settings where
  legible := {
    graph := by
      change (changes.graph.getD workflow.graph).Legible
      cases given : changes.graph with
      | none => exact storable.legible.graph
      | some graph => exact legible.graph graph given
    createdAt := storable.legible.createdAt
    updatedAt := legible.time
    lastRun := storable.legible.lastRun }
  universal := storable.universal
  creator := storable.creator

theorem markRun {settings : Checked Settings} (storable : workflow.Storable settings)
    {now : Timestamp} (legible : now.Legible) : (workflow.markRun now).Storable settings where
  legible := { storable.legible with
    lastRun := by
      rintro moment ⟨⟩
      exact legible }
  universal := storable.universal
  creator := storable.creator

end Workflow.Storable

namespace Call

variable {σ : Type} {database : Database σ} {table : String} {call : Call} {state : σ}
  {memory : Memory}

/-- A call gives back the same on both sides, and the rows show what is then in memory. -/
structure Agrees (database : Database σ) (table : String) (call : Call) (state : σ)
    (memory : Memory) : Prop where
  result : (call.exchange database table state).1 = (call.perform memory).1
  mirrored : (call.perform memory).2.MirroredBy call.session.settings
    (database.rows table (call.exchange database table state).2)

section

variable (faithful : database.Faithful table)
  {session : Session} (mirrored : memory.MirroredBy session.settings (database.rows table state))

include faithful mirrored

theorem agrees_save {entry : Entry} (legible : (Call.mk (.save entry) session).Legible)
    (unused : memory.get? session.nextId = none) :
    Agrees database table ⟨.save entry, session⟩ state memory := by
  cases named : session.creator entry with
  | error issues =>
    -- Nobody can be named as the creator, so nothing is asked and both fail with the settings.
    have asks : (Operation.save entry).query table session = .error issues := by
      rw [Operation.query, named]
      rfl
    constructor
    · rw [exchange_eq, perform_save, asks, named]
    · rw [exchange_eq, perform_save, asks, named]
      exact mirrored
  | ok creator =>
    have asks : (Operation.save entry).query table session =
        .ok (Table.saveQuery table session.time creator entry) := by
      rw [Operation.query, named]
      rfl
    obtain ⟨row, stored, gives⟩ := faithful.insert state session.nextId
      (Row.ofEntry session.time creator entry) (mirrored.absent unused)
    obtain ⟨result, rows⟩ := exchange_of_gives ⟨.save entry, session⟩ asks gives
    have holds : Row.Holds session.settings row
        (.ofEntry session.nextId session.time creator entry) :=
      ⟨Row.shows_stored stored, .ofEntry legible named⟩
    constructor
    · rw [result, perform_save, named]
      exact congrArg (Except.map Outcome.workflow) (Table.saved_eq holds)
    · rw [rows, perform_save, named]
      exact mirrored.append holds unused

theorem agrees_list : Agrees database table ⟨.list, session⟩ state memory := by
  obtain ⟨result, rows⟩ := exchange_of_gives ⟨.list, session⟩ rfl
    (faithful.list state session.nextId)
  constructor
  · rw [result, perform_list]
    exact congrArg (Except.map Outcome.workflows) (Table.listed_eq mirrored.list)
  · rw [rows]
    exact mirrored

theorem agrees_fetch (id : String) :
    Agrees database table ⟨.fetch id, session⟩ state memory := by
  obtain ⟨found, same, gives⟩ := faithful.fetch state session.nextId id
  obtain ⟨result, rows⟩ := exchange_of_gives ⟨.fetch id, session⟩ rfl gives
  have read := Table.found_eq id (forall₂_toList_of_perm (mirrored.filter id) same)
  constructor
  · rw [result, perform_fetch]
    refine (congrArg (Except.map Outcome.workflow) read).trans ?_
    cases memory.get? id <;> rfl
  · rw [rows, perform_fetch]
    cases memory.get? id <;> exact mirrored

theorem agrees_delete (id : String) :
    Agrees database table ⟨.delete id, session⟩ state memory := by
  obtain ⟨removed, same, gives⟩ := faithful.delete state session.nextId id
  obtain ⟨result, rows⟩ := exchange_of_gives ⟨.delete id, session⟩ rfl gives
  have gone := forall₂_toList_of_perm (mirrored.filter id) same
  cases stored : memory.get? id with
  | none =>
    rw [stored] at gone
    cases gone
    constructor
    · rw [result, perform_delete, stored]
      rfl
    · have unused (row : Json.Members) (member : row ∈ database.rows table state) :
          (!Row.hasId id row) = true := by
        rw [mirrored.absent stored row member]
        rfl
      rw [rows, perform_delete, stored, List.filter_eq_self.mpr unused]
      exact mirrored
  | some workflow =>
    rw [stored] at gone
    obtain _ | ⟨_, none⟩ := gone
    cases none
    constructor
    · rw [result, perform_delete, stored]
      rfl
    · rw [rows, perform_delete, stored]
      exact mirrored.erase

/-- An operation that changes one workflow, if the columns that it sets show the change. -/
theorem agrees_change {operation : Operation} {id : String} {changes : Json.Members}
    {change : Workflow → Workflow}
    (asks : operation.query table session =
      .ok (.update table (.object changes) (Table.idFilter id)))
    (reads : ∀ reply, operation.outcome session.settings reply =
      (Table.updated session.settings id reply).map .workflow)
    (performs : (Call.mk operation session).perform memory =
      match memory.get? id with
      | some workflow => (.ok (.workflow (change workflow)), memory.put (change workflow))
      | none => (.error (.notFound id), memory))
    (kept : ∀ workflow, (change workflow).id = workflow.id)
    (holds : ∀ row merged workflow, Row.Merged changes row merged →
      Row.Holds session.settings row workflow →
        Row.Holds session.settings merged (change workflow)) :
    Agrees database table ⟨operation, session⟩ state memory := by
  obtain ⟨merge, merges, changed, same, gives⟩ :=
    faithful.update state session.nextId id changes
  obtain ⟨result, rows⟩ := exchange_of_gives ⟨operation, session⟩ asks gives
  have merged (row : Json.Members) (workflow : Workflow)
      (old : Row.Holds session.settings row workflow) :
      Row.Holds session.settings (merge row) (change workflow) :=
    holds row (merge row) workflow (merges row) old
  have read := Table.found_eq id
    (forall₂_toList_of_perm (mirrored.map_filter merged) same)
  constructor
  · rw [result, reads, performs]
    refine (congrArg (Except.map Outcome.workflow) read).trans ?_
    cases memory.get? id <;> rfl
  · have after : ((Call.mk operation session).perform memory).2 = memory.changed id change := by
      rw [performs, Memory.changed]
      cases memory.get? id <;> rfl
    rw [rows, after]
    exact mirrored.changed kept merged

theorem agrees_update {id : String} {changes : Changes}
    (legible : (Call.mk (.update id changes) session).Legible) :
    Agrees database table ⟨.update id changes, session⟩ state memory :=
  agrees_change faithful mirrored rfl (fun _ => rfl) (perform_update session memory id changes)
    (fun workflow => workflow.id_update session.time changes)
    fun _ _ _ merged old => ⟨old.shows.update merged, old.storable.update legible⟩

theorem agrees_markRun {id : String} (legible : (Call.mk (.markRun id) session).Legible) :
    Agrees database table ⟨.markRun id, session⟩ state memory :=
  agrees_change faithful mirrored rfl (fun _ => rfl) (perform_markRun session memory id)
    (fun workflow => workflow.id_markRun session.time)
    fun _ _ _ merged old => ⟨old.shows.markRun merged, old.storable.markRun legible.time⟩

end

theorem agrees (faithful : database.Faithful table) (legible : call.Legible)
    (fresh : ∀ id, call.issued? = some id → memory.get? id = none)
    (mirrored : memory.MirroredBy call.session.settings (database.rows table state)) :
    Agrees database table call state memory := by
  obtain ⟨operation, session⟩ := call
  cases operation with
  | save entry => exact agrees_save faithful mirrored legible (fresh _ rfl)
  | list => exact agrees_list faithful mirrored
  | fetch id => exact agrees_fetch faithful mirrored id
  | update id changes => exact agrees_update faithful mirrored legible
  | markRun id => exact agrees_markRun faithful mirrored legible
  | delete id => exact agrees_delete faithful mirrored id

end Call

/-! ### Series of calls -/

namespace Database

variable {σ : Type} {database : Database σ} {table : String} {start : σ}
  {environment : Environment}

theorem after_append (calls : List Call) (call : Call) :
    database.after table start (calls ++ [call]) =
      database.next table (database.after table start calls) call :=
  List.foldl_append

variable (faithful : database.Faithful table) (empty : database.rows table start = [])
  {calls : List Call} (fresh : Call.Fresh calls) (legible : ∀ call ∈ calls, call.Legible)
  (same : ∀ call ∈ calls, call.session.environment = environment)

include faithful empty fresh legible same

theorem mirrored_after :
    (database.after table start calls).trace = (ReplyFlow.Run.after calls).trace ∧
      (ReplyFlow.Run.after calls).memory.MirroredBy (Settings.ofEnvironment environment)
        (database.rows table (database.after table start calls).state) := by
  -- The newest call is the last one, so the series is taken apart at its end.
  induction calls using List.reverseRecOn with
  | nil =>
    refine ⟨rfl, ?_⟩
    change Memory.empty.MirroredBy _ (database.rows table start)
    rw [empty]
    exact .empty
  | append_singleton calls call ih =>
    obtain ⟨traces, mirrored⟩ := ih fresh.of_append
      (fun other member => legible other (List.mem_append_left _ member))
      (fun other member => same other (List.mem_append_left _ member))
    have last : call ∈ calls ++ [call] := List.mem_append_right _ (List.mem_singleton_self call)
    have settings : call.session.settings = Settings.ofEnvironment environment := by
      rw [Session.settings, same call last]
    have unused := (ReplyFlow.Run.sound_after fresh.of_append).unused fresh.last
    rw [← settings] at mirrored ⊢
    have agrees := Call.agrees faithful (legible call last) unused mirrored
    rw [after_append, ReplyFlow.Run.after_append]
    refine ⟨?_, agrees.mirrored⟩
    rw [next, agrees.result, traces]
    rfl

/-- A store in a faithful database gives back what a store in memory gives back, call by call: the
same workflows, and the same ids that are not found. -/
theorem trace_after :
    (database.after table start calls).trace = (ReplyFlow.Run.after calls).trace :=
  (mirrored_after faithful empty fresh legible same).1

end Database

namespace Samples

def lone : Graph Float :=
  ⟨[⟨"", .start, ⟨250, 0.5⟩, .marker "" false none, rfl⟩], []⟩

/-- After the visits a graph is saved in nobody's name, and replaced by an empty one. -/
def rounds : List Call :=
  visits ++ [⟨.save ⟨"Lone", "", lone, .active, none⟩, sessionAt 50 2⟩, ⟨.list, sessionAt 0 3⟩,
    ⟨.update (idOf 3) ⟨none, some "", some Graph.empty, none⟩, sessionAt 60 3⟩,
    ⟨.fetch (idOf 2), sessionAt 0 3⟩]

end Samples

theorem Database.trace_after_rounds :
    Samples.tables.Faithful "workflows" ∧ Samples.tables.rows "workflows" (fun _ => []) = [] ∧
      Call.Fresh Samples.rounds ∧ (∀ call ∈ Samples.rounds, call.Legible) ∧
      (∀ call ∈ Samples.rounds, call.session.environment = []) ∧
      (Samples.tables.after "workflows" (fun _ => []) Samples.rounds).trace =
        (Run.after Samples.rounds).trace := by
  have fresh : Call.Fresh Samples.rounds := by decide +kernel
  have legible : ∀ call ∈ Samples.rounds, call.Legible := by decide +kernel
  have same : ∀ call ∈ Samples.rounds, call.session.environment = [] := by decide +kernel
  exact ⟨Samples.faithful_tables _, rfl, fresh, legible, same,
    Database.trace_after (Samples.faithful_tables _) rfl fresh legible same⟩

end ReplyFlow
