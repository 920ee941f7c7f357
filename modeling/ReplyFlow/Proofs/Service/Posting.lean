import ReplyFlow.Proofs.Service.Requests
import ReplyFlow.Proofs.Store.Decoding

/-! Compiling templates and posting the graph that was answered stores what saving the templates
stores.

The graph comes back out of a memory under the id of its workflow, and out of the row of a table. It
has been read from JSON text once, so its parts are read from their texts again.
-/

set_option autoImplicit false

namespace ReplyFlow

open Schema

/-! ### Opening a store -/

/-- The session with a store in use. -/
def Session.ready (session : Session) : Session :=
  (Work.openStore.run.run session).2

namespace Action

variable {session : Session} {settings : Settings}

theorem run_connect (valid : session.settings = .ok settings) :
    ∃ connected after, Action.connect.run.run session = (.ok connected, after) ∧
      after.environment = session.environment := by
  rw [Action.connect, run_bind, run_get]
  dsimp only
  cases session.connected with
  | true => exact ⟨_, _, rfl, rfl⟩
  | false =>
    rw [if_neg Bool.false_ne_true, run_bind, run_settings, valid]
    dsimp only
    split
    · exact ⟨_, _, rfl, rfl⟩
    · rw [run_bind, run_get]
      dsimp only
      cases session.refusal <;> exact ⟨_, _, rfl, rfl⟩

/-- With valid settings there is always a store to use. -/
theorem run_store (valid : session.settings = .ok settings) :
    ∃ store after, Action.store.run.run session = (.ok store, after) ∧
      after.store = some store ∧ after.environment = session.environment := by
  rw [Action.store, run_bind, run_get]
  dsimp only
  cases held : session.store with
  | some store => exact ⟨store, session, rfl, held, rfl⟩
  | none =>
    obtain ⟨connected, after, connects, same⟩ := run_connect valid
    -- Connecting leaves the variables as they are, so the settings stay valid.
    have still : after.settings = .ok settings := by
      rw [Session.settings, same]
      exact valid
    dsimp only
    rw [run_bind, connects]
    cases connected with
    | true =>
      dsimp only
      rw [if_pos rfl, openTable, Option.filter_none]
      dsimp only
      rw [run_bind, run_settings, still]
      exact ⟨_, _, rfl, rfl, same⟩
    | false => exact ⟨_, _, rfl, rfl, same⟩

end Action

theorem Work.run_openStore_of_settings {session : Session} {settings : Settings}
    (valid : session.settings = .ok settings) :
    ∃ store, Work.openStore.run.run session = (.ok store, session.ready) ∧
      session.ready.store = some store ∧ session.ready.settings = .ok settings := by
  obtain ⟨store, after, opens, held, same⟩ := Action.run_store valid
  have opened : Work.openStore.run.run session = (.ok store, after) := by
    rw [Work.openStore, run_certain, opens]
  have ready : session.ready = after := congrArg Prod.snd opened
  refine ⟨store, ready ▸ opened, ready ▸ held, ?_⟩
  rw [ready, Session.settings, same]
  exact valid

theorem Session.settings_ready {session : Session} {settings : Settings}
    (valid : session.settings = .ok settings) : session.ready.settings = .ok settings := by
  obtain ⟨_, _, _, still⟩ := Work.run_openStore_of_settings valid
  exact still

theorem Session.exists_creator {session : Session} {settings : Settings}
    (valid : session.settings = .ok settings) (entry : Entry) :
    ∃ creator, session.creator entry = .ok creator := by
  rw [Session.creator, valid]
  cases entry.namedCreator? with
  | some creator => exact ⟨creator, rfl⟩
  | none => exact ⟨settings.creator, rfl⟩

/-! ### Storing a graph -/

/-- A row with which a graph is written in a session. Two columns hold the texts of its nodes and of
its edges, and these are read as what was written. Whatever id the row gets, a workflow with the
graph is read from it, if the time can be shown by the clocks of the world. -/
structure Row.Carries (session : Session) (row : Json.Members) (graph : Graph Float) : Prop where
  nodes : row.lookup "nodes" = some (nodesText graph)
  edges : row.lookup "connections" = some (edgesText graph)
  nodesItems : items (nodesText graph) = .ok (.ofList Node.json graph.nodes)
  edgesItems : items (edgesText graph) = .ok (.ofList Edge.json graph.edges)
  read : session.time.InRange → ∀ id stored, Identified id row stored →
    ∃ workflow, Row.read session.settings (.object stored) = .ok workflow ∧ workflow.graph = graph

theorem Row.carries_ofEntry {session : Session} {entry : Entry} {creator : String}
    (legible : entry.graph.Legible) (named : session.creator entry = .ok creator) :
    Carries session (ofEntry session.time creator entry) entry.graph where
  nodes := rfl
  edges := rfl
  nodesItems := items_of_parse legible.nodes
  edgesItems := items_of_parse legible.edges
  read inRange id stored identified := by
    have written : (Call.mk (.save entry) session).Legible :=
      ⟨inRange.legible, by rintro _ ⟨⟩; exact legible⟩
    exact ⟨_, identified.read_eq (.ofEntry written named), rfl⟩

/-- A new workflow with this graph is kept in memory, where it is found under its id, or a table is
asked to insert a row from which the graph is read. -/
inductive Session.Stores (graph : Graph Float) (before after : Session) : Prop where
  | memory {held : Memory} {workflow : Workflow} : before.store = some (.memory held) →
    workflow.graph = graph → held.Takes workflow (held.put workflow) →
    after.store = some (.memory (held.put workflow)) → Stores graph before after
  | table {name : String} {row : Json.Members} : before.store = some (.table name) →
    Row.Carries before row graph →
    after.queries = before.queries ++ [.insert name (.object row)] → Stores graph before after

theorem Session.Stores.of_log {graph : Graph Float} {before after : Session} {journal : Journal}
    (stores : (before.log journal).Stores graph after) : before.Stores graph after := by
  cases stores with
  | memory held drawn takes kept => exact .memory held drawn takes kept
  | table held carries asked =>
    exact .table held ⟨carries.nodes, carries.edges, carries.nodesItems, carries.edgesItems,
      carries.read⟩ asked

theorem Session.Stores.log {graph : Graph Float} {before after : Session}
    (stores : before.Stores graph after) (journal : Journal) :
    before.Stores graph (after.log journal) := by
  cases stores with
  | memory held drawn takes kept => exact .memory held drawn takes kept
  | table held carries asked => exact .table held carries asked

theorem Operation.stores_save {session : Session} {settings : Settings} {store : Store}
    (valid : session.settings = .ok settings) (held : session.store = some store) {entry : Entry}
    (legible : entry.graph.Legible) :
    session.Stores entry.graph (((Operation.save entry).on store).run.run session).2 := by
  obtain ⟨creator, named⟩ := session.exists_creator valid entry
  cases store with
  | memory memory =>
    obtain ⟨_, after⟩ := Call.run_on_memory session memory (.save entry) held
    rw [Call.perform_save, named] at after
    exact .memory held rfl (memory.takes_put _) after
  | table name =>
    have queries := congrArg Prod.snd ((Operation.save entry).run_on_table name session)
    rw [Operation.query, named] at queries
    exact .table held (Row.carries_ofEntry legible named) queries

/-! ### Reading what was sent -/

/-- The octets of a text that begins like an object are taken for UTF-8. -/
theorem Json.decode?_toUTF8 {text : String} {rest : List Char}
    (begins : text.toList = '\x7b' :: '"' :: rest) : decode? text.toUTF8 = some text := by
  have octets : text.toUTF8.data.toList = 0x7B :: 0x22 :: rest.flatMap String.utf8EncodeChar := by
    have same : text = String.ofList ('\x7b' :: '"' :: rest) := by
      rw [← begins, String.ofList_toList]
    rw [same, String.toUTF8, String.toByteArray_ofList, List.utf8Encode, List.data_toByteArray]
    rfl
  have plain : Encoding.ofOctets (text.toUTF8.data.toList.map UInt8.toNat) = .utf8 := by
    rw [octets]
    rcases rest.flatMap String.utf8EncodeChar with _ | ⟨a, _ | ⟨b, more⟩⟩ <;> rfl
  have valid : String.fromUTF8? text.toUTF8 = some text := dif_pos text.isValidUTF8
  have unmarked : withoutMark text.toList = text.toList := by
    rw [begins]
    rfl
  rw [decode?, plain, valid]
  dsimp only [Option.map_some]
  rw [unmarked, String.ofList_toList]

theorem Request.readBody_of_json {request : Request} {rest : List Char} {value : Json}
    (typed : isJsonType request.contentType = true)
    (begins : request.body.toList = '\x7b' :: '"' :: rest)
    (parsed : Json.parseList request.body.toList = .ok value) :
    request.readBody = .ok (.json value) := by
  have filled : request.body.isEmpty = false := by
    cases empty : request.body.isEmpty with
    | false => rfl
    | true =>
      rw [String.isEmpty_iff.mp empty] at begins
      cases begins
  rw [Request.readBody, filled, typed, Json.decode?_toUTF8 begins]
  dsimp only
  rw [Json.parse, parsed]
  rfl

/-- What a body holds was read from some text. -/
theorem Request.exists_of_readBody {request : Request} {value : Json}
    (read : request.readBody = .ok (.json value)) : ∃ text, Json.parse text = .ok value := by
  rw [readBody] at read
  split at read
  · cases read
  · split at read
    · split at read
      · cases read
      · next text _ =>
        split at read
        · next parsed =>
          cases read
          exact ⟨text, parsed⟩
        · cases read
    · cases read

/-! ### What the requests ask for -/

/-- The body of a request is accepted as this value. -/
def Request.Gives {α : Type} (request : Request) (check : Setting → Json → Checked α) (value : α) :
    Prop :=
  ∃ body, request.readBody = .ok body ∧ body.check check = .ok value

theorem Request.gives_of_json {α : Type} {request : Request} {rest : List Char} {value : Json}
    {check : Setting → Json → Checked α} {result : α}
    (typed : isJsonType request.contentType = true)
    (begins : request.body.toList = '\x7b' :: '"' :: rest)
    (parsed : Json.parseList request.body.toList = .ok value)
    (accepted : check .body value = .ok result) : request.Gives check result := by
  refine ⟨.json value, readBody_of_json typed begins parsed, ?_⟩
  rw [Body.check, accepted]
  rfl

/-- A request to save a workflow with a graph of this JSON. The other members are as they have to
be. -/
structure Request.Posts (request : Request) (graph : Json) (members : Json.Members) : Prop where
  reads : request.readBody = .ok (.json (.object members))
  graph : members.lookup "graph" = some graph
  name : ∃ name, required members ["name"] checkName = .ok name
  description : ∃ description, optional members ["description"] "" text = .ok description
  status : ∃ status, optional members ["status"] .draft (member Status.choices) = .ok status
  creator : ∃ creator, optional members ["created_by"] none (nullable text) = .ok creator

theorem Request.Posts.gives {request : Request} {graph : Graph Float} {members : Json.Members}
    (posts : request.Posts graph.json members) :
    ∃ entry : Entry, entry.graph = graph ∧ request.Gives Entry.check entry := by
  obtain ⟨name, named⟩ := posts.name
  obtain ⟨description, described⟩ := posts.description
  obtain ⟨status, set⟩ := posts.status
  obtain ⟨creator, created⟩ := posts.creator
  have found : members.find? ["graph"] = some ("graph", graph.json) := by
    rw [Json.Members.find?, posts.graph]
  have drawn := required_eq_ok ["graph"] found (Graph.check_json .body graph)
  refine ⟨⟨name, description, graph, status, creator⟩, rfl, _, posts.reads, ?_⟩
  rw [Body.check, Entry.check, record, named, described, drawn, set, created]
  rfl

/-- The parts of a graph that is posted can be written and read once more. -/
theorem Request.Posts.legible {request : Request} {graph : Graph Float} {members : Json.Members}
    (posts : request.Posts graph.json members) : graph.Legible := by
  obtain ⟨text, parsed⟩ := exists_of_readBody posts.reads
  have plain := Json.plain_of_parse parsed
  rw [Json.nestingLimit, Json.plain_object_iff] at plain
  obtain ⟨before, after, whole, _⟩ := List.lookup_eq_some_iff.mp posts.graph
  refine Graph.legible_of_plain (plain.2 ("graph", graph.json) ?_)
  rw [whole]
  exact List.mem_append_right before List.mem_cons_self

/-! ### Compiling -/

/-- A member of an answer, if the answer is an object. -/
def Answer.member? (answer : Answer) (name : String) : Option Json :=
  match answer.content with
  | .json (.object members) => members.lookup name
  | _ => none

theorem Compiler.Failure.member?_refusal (failure : Compiler.Failure) :
    failure.refusal.answer.member? "graph" = none := by
  rw [refusal]
  cases failure.message? <;> rfl

theorem CompileBody.member?_of_refused {body : CompileBody} {settings : Checked Settings}
    {refusal : Refusal} (refused : body.compiled settings = .error refusal) :
    refusal.answer.member? "graph" = none := by
  rcases cases_of_refused refused with rfl | ⟨failure, rfl⟩
  · rfl
  · exact failure.member?_refusal

namespace Endpoint

variable {request : Request} {session : Session}

theorem answer_compile {body : CompileBody} (given : request.Gives CompileBody.check body) :
    (Endpoint.compile.answer request session).1 =
      match body.compiled session.settings with
      | .ok compilation => .ofJson compilation.json
      | .error refusal => refusal.answer := by
  obtain ⟨content, read, accepted⟩ := given
  obtain ⟨journal, done⟩ :=
    Work.run_compileBody (session.log [.compileRequested body.templates.length]) body
  have asked : (Endpoint.compile.work request).run.run session =
      (Work.compileTemplates body).run.run session := by
    simp only [work, run_bind, Work.run_read, read, Work.run_accept, accepted]
  have same : (session.log [.compileRequested body.templates.length]).settings =
    session.settings := rfl
  have logged : (Work.compileTemplates body).run.run session =
      (do return (← Work.compileBody body).json : Work Json).run.run
        (session.log [.compileRequested body.templates.length]) := rfl
  rw [answer, asked, logged, run_bind, done, same]
  cases body.compiled session.settings <;> rfl

/-- Nothing is lost when a compiled graph with finite coordinates is sent. -/
theorem exists_compiled {body : CompileBody} {value : Json}
    (given : request.Gives CompileBody.check body)
    (finite : ∀ compilation, body.compiled session.settings = .ok compilation →
      compilation.graph.Finite)
    (drawn : (Endpoint.compile.answer request session).1.member? "graph" = some value) :
    ∃ compilation, body.compiled session.settings = .ok compilation ∧
      value = compilation.graph.json := by
  rw [answer_compile given] at drawn
  cases compiled : body.compiled session.settings with
  | error refusal =>
    -- No refusal has a graph.
    rw [compiled] at drawn
    cases (CompileBody.member?_of_refused compiled).symm.trans drawn
  | ok compilation =>
    rw [compiled] at drawn
    refine ⟨compilation, rfl, ?_⟩
    rw [← (finite compilation compiled).finite_json]
    exact (Option.some.inj drawn).symm

variable {settings : Settings}

theorem prepare_saveWorkflow {entry : Entry} (valid : session.settings = .ok settings)
    (given : request.Gives Entry.check entry) (sound : entry.graph.problems = []) :
    ∃ store, session.ready.store = some store ∧
      (Endpoint.saveWorkflow.prepare request).run.run session =
        (.ok (.asks store (.save entry)), session.ready) := by
  obtain ⟨body, read, accepted⟩ := given
  obtain ⟨store, opens, held, _⟩ := Work.run_openStore_of_settings valid
  refine ⟨store, held, ?_⟩
  simp only [prepare, run_bind, Work.run_read, read, opens, Work.run_accept, accepted,
    Work.run_requireSound, sound]
  rfl

theorem prepare_saveTemplates {body : SaveTemplatesBody} {compilation : Compilation Float}
    (valid : session.settings = .ok settings) (given : request.Gives SaveTemplatesBody.check body)
    (compiled : body.toCompileBody.compiled session.settings = .ok compilation) :
    ∃ store journal, session.ready.store = some store ∧
      (Endpoint.saveTemplates.prepare request).run.run session =
        (.ok (.asks store (.save (body.entry compilation.graph))), session.ready.log journal) := by
  obtain ⟨content, read, accepted⟩ := given
  obtain ⟨store, opens, held, still⟩ := Work.run_openStore_of_settings valid
  obtain ⟨journal, done⟩ := Work.run_compileBody session.ready body.toCompileBody
  rw [still, ← valid, compiled] at done
  refine ⟨store, journal, held, ?_⟩
  simp only [prepare, run_bind, Work.run_read, read, opens, Work.run_accept, accepted, done]
  rfl

theorem status_refusal_ne (endpoint : Endpoint) (operation : Operation) (fault : StoreFault) :
    (endpoint.refusal operation fault).answer.status ≠ 422 := by
  intro refused
  have among := endpoint.status_refusal_mem operation fault
  rw [refused] at among
  exact absurd among (by decide)

theorem stores_saveWorkflow {entry : Entry} (valid : session.settings = .ok settings)
    (given : request.Gives Entry.check entry) (sound : entry.graph.problems = [])
    (legible : entry.graph.Legible) :
    (Endpoint.saveWorkflow.answer request session).1.status ≠ 422 ∧
      session.ready.Stores entry.graph (Endpoint.saveWorkflow.answer request session).2 := by
  obtain ⟨store, held, prepared⟩ := prepare_saveWorkflow valid given sound
  have stores := Operation.stores_save (Session.settings_ready valid) held legible
  rw [answer_of_asks prepared]
  generalize ((Operation.save entry).on store).run.run session.ready = done at stores
  obtain ⟨fault | _, after⟩ := done
  · exact ⟨status_refusal_ne _ _ fault, stores.log _⟩
  · exact ⟨nofun, stores.log _⟩

theorem stores_saveTemplates {body : SaveTemplatesBody} {compilation : Compilation Float}
    (valid : session.settings = .ok settings) (given : request.Gives SaveTemplatesBody.check body)
    (compiled : body.toCompileBody.compiled session.settings = .ok compilation)
    (legible : compilation.graph.Legible) :
    session.ready.Stores compilation.graph (Endpoint.saveTemplates.answer request session).2 := by
  obtain ⟨store, journal, held, prepared⟩ := prepare_saveTemplates valid given compiled
  have known : (session.ready.log journal).settings = .ok settings := Session.settings_ready valid
  have kept : (session.ready.log journal).store = some store := held
  have drawn : (body.entry compilation.graph).graph.Legible := legible
  have stores := Operation.stores_save known kept drawn
  rw [answer_of_asks prepared]
  generalize ((Operation.save (body.entry compilation.graph)).on store).run.run
    (session.ready.log journal) = done at stores
  obtain ⟨_ | _, after⟩ := done <;> exact (stores.of_log).log _

end Endpoint

/-! ### Sending the answers -/

namespace Answer

variable {answer : Answer}

theorem member?_of_sent {name : String} {value : Json}
    (sent : answer.sent.member? name = some value) : answer.member? name = some value := by
  rw [Answer.sent] at sent
  split at sent
  · split at sent
    · exact sent
    · cases sent
  · exact sent

/-- What cannot be sent is a crash. -/
theorem status_sent_ne (accepted : answer.status ≠ 422) : answer.sent.status ≠ 422 := by
  rw [Answer.sent]
  split
  · split
    · exact accepted
    · decide
  · exact accepted

end Answer

namespace Request

variable {request : Request} {session : Session} {endpoint : Endpoint}

theorem member?_due {name : String} {value : Json}
    (given : (request.answer session).1.member? name = some value) :
    (request.due session).member? name = some value := by
  rw [answer_eq] at given
  dsimp only at given
  generalize request.due session = answer at given ⊢
  cases headOnly : request.method.toUpper == "HEAD" with
  | true =>
    rw [headOnly, if_pos rfl] at given
    cases given
  | false =>
    rw [headOnly, if_neg Bool.false_ne_true] at given
    exact Answer.member?_of_sent given

theorem due_of_route (routed : request.route = .endpoint endpoint) :
    request.due session = (endpoint.answer request session).1 := by
  rw [due, routed, Route.answer]

theorem answer_of_route (routed : request.route = .endpoint endpoint)
    (whole : (request.method.toUpper == "HEAD") = false) :
    (request.answer session).1 = (endpoint.answer request session).1.sent := by
  rw [answer_eq]
  dsimp only
  rw [whole, if_neg Bool.false_ne_true, due_of_route routed]

theorem snd_of_route (routed : request.route = .endpoint endpoint) :
    (request.answer session).2 = (endpoint.answer request session).2 := by
  rw [answer_snd, routed, Route.answer]

theorem status_answer_ne (accepted : (request.due session).status ≠ 422) :
    (request.answer session).1.status ≠ 422 := by
  rw [answer_eq]
  dsimp only
  generalize request.due session = answer at accepted ⊢
  split
  · exact accepted
  · exact Answer.status_sent_ne accepted

end Request

/-- Templates are compiled, and the graph that is answered is posted. This stores what is stored if
the templates are saved at once. -/
theorem Session.stores_compiled {first second third : Session}
    (alike : second.settings = first.settings) (still : third.settings = first.settings)
    {compiling saving posting : Request} {body : SaveTemplatesBody} {value : Json}
    {posted : Json.Members} (compiles : compiling.route = .endpoint .compile)
    (saves : saving.route = .endpoint .saveTemplates)
    (posts : posting.route = .endpoint .saveWorkflow)
    (given : compiling.Gives CompileBody.check body.toCompileBody)
    (same : saving.Gives SaveTemplatesBody.check body)
    (finite : ∀ compilation, body.toCompileBody.compiled first.settings = .ok compilation →
      compilation.graph.Finite)
    (drawn : (compiling.answer first).1.member? "graph" = some value)
    (back : posting.Posts value posted) :
    (posting.answer third).1.status ≠ 422 ∧
      ∃ graph : Graph Float, value = graph.json ∧
        second.ready.Stores graph (saving.answer second).2 ∧
        third.ready.Stores graph (posting.answer third).2 := by
  have due := Request.member?_due drawn
  rw [Request.due_of_route compiles] at due
  obtain ⟨compilation, compiled, rfl⟩ := Endpoint.exists_compiled given finite due
  -- Where something was compiled the settings are valid, so both stores can be opened.
  obtain ⟨settings, _, valid, _⟩ := CompileBody.exists_of_compiled compiled
  have sound := CompileBody.sound_of_compiled compiled
  -- The graph was read from the text of a body, so its parts can be written and read again.
  have legible := back.legible
  obtain ⟨entry, graph, entered⟩ := back.gives
  have saved := Endpoint.stores_saveTemplates (alike.trans valid) same
    ((congrArg _ alike).trans compiled) legible
  rw [← graph] at sound legible
  obtain ⟨accepted, stored⟩ :=
    Endpoint.stores_saveWorkflow (still.trans valid) entered sound legible
  rw [← Request.due_of_route posts] at accepted
  rw [← Request.snd_of_route posts, graph] at stored
  rw [← Request.snd_of_route saves] at saved
  exact ⟨Request.status_answer_ne accepted, compilation.graph, rfl, saved, stored⟩

namespace Samples

/-- A template whose only reply leads back to it. -/
def loopText : String :=
  "\x7b\"templates\":[\x7b\"id\":1,\"name\":\"Intro\",\"message\":\"Hello\",
    \"responses\":[\x7b\"option\":\"A\",\"nextTemplateId\":1\x7d]\x7d]\x7d"

def loop : SaveTemplatesBody :=
  ⟨⟨[⟨1, "Intro", "", "Hello", [⟨"A", "", some 1, @rfl _ false⟩], true, 0⟩], none⟩,
    Graph.defaultName, "Automated workflow based on message templates", .active, none⟩

def loopGraph : Graph Float where
  nodes := [⟨"start", .start, ⟨100, 300⟩, .marker "Start" false none, rfl⟩,
    ⟨"message-1", .message, ⟨300, 300⟩,
      .message "Intro" 1 "Hello" "\x7b\x7bcandidatePhone\x7d\x7d", rfl⟩,
    ⟨"condition-1-0", .condition, ⟨500, 300⟩,
      .condition "If response is \"A\"" "lastResponse" "equals" "A", rfl⟩,
    ⟨"delay-1-0", .delay, ⟨700, 300⟩, .delay "Wait 1 minute" 1 "minutes", rfl⟩,
    ⟨"end", .finish, ⟨900, 300⟩, .marker "End" false none, rfl⟩]
  edges := [⟨"conn-start-message-1", "start", "message-1", none⟩,
    ⟨"conn-message-1-condition-1-0", "message-1", "condition-1-0", some "A"⟩,
    ⟨"conn-condition-1-0-delay-1-0", "condition-1-0", "delay-1-0", none⟩,
    ⟨"conn-delay-1-0-message-1", "delay-1-0", "message-1", none⟩]

def copyText : String :=
  "\x7b\"name\":\"Copy\",\"graph\":\x7b\"nodes\":[
    \x7b\"id\":\"start\",\"type\":\"start\",\"position\":\x7b\"x\":100.0,\"y\":300.0\x7d,
     \"payload\":\x7b\"kind\":\"marker\",\"label\":\"Start\",
      \"continuation\":false,\"template_id\":null\x7d\x7d,
    \x7b\"id\":\"message-1\",\"type\":\"message\",\"position\":\x7b\"x\":300.0,\"y\":300.0\x7d,
     \"payload\":\x7b\"kind\":\"message\",\"label\":\"Intro\",\"template_id\":1,
      \"body_preview\":\"Hello\",\"recipient\":\"\x7b\x7bcandidatePhone\x7d\x7d\"\x7d\x7d,
    \x7b\"id\":\"condition-1-0\",\"type\":\"condition\",
     \"position\":\x7b\"x\":500.0,\"y\":300.0\x7d,
     \"payload\":\x7b\"kind\":\"condition\",\"label\":\"If response is \\\"A\\\"\",
      \"field\":\"lastResponse\",\"operator\":\"equals\",\"expected_value\":\"A\"\x7d\x7d,
    \x7b\"id\":\"delay-1-0\",\"type\":\"delay\",\"position\":\x7b\"x\":700.0,\"y\":300.0\x7d,
     \"payload\":\x7b\"kind\":\"delay\",\"label\":\"Wait 1 minute\",
      \"duration\":1,\"unit\":\"minutes\"\x7d\x7d,
    \x7b\"id\":\"end\",\"type\":\"end\",\"position\":\x7b\"x\":900.0,\"y\":300.0\x7d,
     \"payload\":\x7b\"kind\":\"marker\",\"label\":\"End\",
      \"continuation\":false,\"template_id\":null\x7d\x7d],\"edges\":[
    \x7b\"id\":\"conn-start-message-1\",\"from\":\"start\",
     \"to\":\"message-1\",\"label\":null\x7d,
    \x7b\"id\":\"conn-message-1-condition-1-0\",\"from\":\"message-1\",
     \"to\":\"condition-1-0\",\"label\":\"A\"\x7d,
    \x7b\"id\":\"conn-condition-1-0-delay-1-0\",\"from\":\"condition-1-0\",
     \"to\":\"delay-1-0\",\"label\":null\x7d,
    \x7b\"id\":\"conn-delay-1-0-message-1\",\"from\":\"delay-1-0\",
     \"to\":\"message-1\",\"label\":null\x7d]\x7d\x7d"

def copy : Json.Members :=
  [("name", .text "Copy"), ("graph", loopGraph.json)]

def compiling : Request :=
  ⟨"POST", "/api/templates/compile", "application/json", loopText⟩

def saving : Request :=
  ⟨"POST", "/api/templates/workflow", "application/json", loopText⟩

def posting : Request :=
  ⟨"POST", "/api/workflows", "application/json", copyText⟩

set_option maxRecDepth 4000 in
theorem exists_value_loopText : ∃ rest value,
    loopText.toList = '\x7b' :: '"' :: rest ∧
      Json.parseList ('\x7b' :: '"' :: rest) = .ok value ∧
      CompileBody.check .body value = .ok loop.toCompileBody ∧
      SaveTemplatesBody.check .body value = .ok loop := by
  unfold loopText
  -- The literal is taken for its list of characters; its octets are never computed.
  exact ⟨_, .object [("templates", .list [.object [("id", .whole 1), ("name", .text "Intro"),
    ("message", .text "Hello"), ("responses", .list [.object [("option", .text "A"),
      ("nextTemplateId", .whole 1)]])]])], String.toList_ofList, by decide +kernel,
    by decide +kernel, by decide +kernel⟩

set_option maxRecDepth 20000 in
theorem parse_copyText : ∃ rest, copyText.toList = '\x7b' :: '"' :: rest ∧
    Json.parseList ('\x7b' :: '"' :: rest) = .ok (.object copy) := by
  unfold copyText
  exact ⟨_, String.toList_ofList, by decide +kernel⟩

theorem gives_compiling : compiling.Gives CompileBody.check loop.toCompileBody := by
  obtain ⟨rest, value, begins, parsed, accepted, _⟩ := exists_value_loopText
  rw [← begins] at parsed
  exact Request.gives_of_json (by decide +kernel) begins parsed accepted

theorem gives_saving : saving.Gives SaveTemplatesBody.check loop := by
  obtain ⟨rest, value, begins, parsed, _, accepted⟩ := exists_value_loopText
  rw [← begins] at parsed
  exact Request.gives_of_json (by decide +kernel) begins parsed accepted

theorem posts_copy : posting.Posts loopGraph.json copy := by
  obtain ⟨rest, begins, parsed⟩ := parse_copyText
  rw [← begins] at parsed
  exact {
    reads := Request.readBody_of_json (by decide +kernel) begins parsed
    graph := rfl
    name := ⟨"Copy", by decide +kernel⟩
    description := ⟨"", rfl⟩
    status := ⟨.draft, rfl⟩
    creator := ⟨none, rfl⟩ }

theorem compiled_loop : (loop.toCompileBody.compiled memorySession.settings).toOption.map
    Compilation.graph = some loopGraph := by
  decide +kernel

theorem route_compiling : compiling.route = .endpoint .compile := by
  decide +kernel

theorem member?_compiling :
    (compiling.answer memorySession).1.member? "graph" = some loopGraph.json := by
  rw [Request.answer_of_route route_compiling (by decide +kernel),
    Endpoint.answer_compile gives_compiling]
  decide +kernel

theorem finite_loop (compilation : Compilation Float)
    (compiled : loop.toCompileBody.compiled memorySession.settings = .ok compilation) :
    compilation.graph.Finite := by
  have drawn := compiled_loop
  rw [compiled] at drawn
  rw [Option.some.inj drawn]
  decide +kernel

end Samples

theorem Session.stores_compiled_loop :
    (Samples.compiling.answer Samples.memorySession).1.member? "graph" =
        some Samples.loopGraph.json ∧
      Samples.posting.Posts Samples.loopGraph.json Samples.copy ∧
      (Samples.posting.answer Samples.memorySession).1.status ≠ 422 ∧
      ∃ graph : Graph Float, Samples.loopGraph.json = graph.json ∧
        Samples.memorySession.ready.Stores graph
          (Samples.saving.answer Samples.memorySession).2 ∧
        Samples.memorySession.ready.Stores graph
          (Samples.posting.answer Samples.memorySession).2 :=
  ⟨Samples.member?_compiling, Samples.posts_copy,
    Session.stores_compiled rfl rfl Samples.route_compiling (by decide +kernel)
      (by decide +kernel) Samples.gives_compiling Samples.gives_saving Samples.finite_loop
      Samples.member?_compiling Samples.posts_copy⟩

end ReplyFlow
