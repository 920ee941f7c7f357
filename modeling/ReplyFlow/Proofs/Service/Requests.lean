import ReplyFlow.Proofs.Compile.Bounded
import ReplyFlow.Proofs.Compile.Integrity
import ReplyFlow.Proofs.Schema.Accepted
import ReplyFlow.Proofs.Service.Failures

/-! What requests leave in a memory.

Every workflow there has a sound graph and a name of proper length. A request that is refused
leaves the workflows as they were, in their order. So does every other one that fails, save for a
request that has stored a workflow of which it cannot tell: there the memory has taken it.
-/

set_option autoImplicit false

namespace ReplyFlow

open Schema

/-! ### Workflows that may be kept -/

/-- A name of a length that is allowed. -/
def ProperName (name : String) : Prop :=
  1 ≤ name.length ∧ name.length ≤ 200

structure Workflow.Fit (workflow : Workflow) : Prop where
  sound : workflow.graph.problems = []
  named : ProperName workflow.name
  sendable : Text.isWhole workflow.id

theorem isHalf_of_mem_toDigits {n : Nat} {c : Char} (member : c ∈ Nat.toDigits 16 n) :
    Text.isHalf c = false := by
  have digit : ∀ d < 16, Text.isHalf (Nat.digitChar d) = false := by decide
  -- the last digit, and then those of the quotient
  induction n using Nat.strongRecOn with
  | _ n ih =>
    by_cases small : n < 16
    · rw [Nat.toDigits_of_lt_base small, List.mem_singleton] at member
      exact member ▸ digit n small
    · rw [Nat.toDigits_of_base_le (by decide) (Nat.le_of_not_lt small)] at member
      rcases List.mem_append.mp member with front | last
      · exact ih (n / 16) (by omega) front
      · rw [List.mem_singleton.mp last]
        exact digit _ (Nat.mod_lt _ (by decide))

/-- The ids that are given out can be sent. -/
theorem isWhole_idOf (number : Nat) : Text.isWhole (idOf number) := by
  have front : Text.isWhole "workflow-" := by decide +kernel
  rw [Text.isWhole, idOf, String.toList_append, List.all_append, Bool.and_eq_true]
  refine ⟨front, List.all_eq_true.mpr fun c member => ?_⟩
  rw [String.toList_ofList, Text.paddedDigits, List.mem_append] at member
  rcases member with zero | digit
  · rw [List.eq_of_mem_replicate zero]
    rfl
  · rw [isHalf_of_mem_toDigits digit]
    rfl

/-- The operation saves no other workflows than fit ones, and keeps fit ones fit. -/
def Operation.Fit : Operation → Prop
  | save entry => entry.graph.problems = [] ∧ ProperName entry.name
  | update _ changes =>
    (∀ graph, changes.graph = some graph → graph.problems = []) ∧
      ∀ name, changes.name = some name → ProperName name
  | list | fetch _ | markRun _ | delete _ => True

namespace Memory

def Fit (memory : Memory) : Prop :=
  ∀ workflow ∈ memory.workflows, workflow.Fit

variable {memory : Memory}

theorem fit_empty : empty.Fit :=
  fun _ member => absurd member List.not_mem_nil

theorem Fit.put (fit : memory.Fit) {workflow : Workflow} (new : workflow.Fit) :
    (memory.put workflow).Fit := by
  intro kept member
  rcases mem_put member with old | rfl
  · exact fit kept old
  · exact new

theorem Fit.erase (fit : memory.Fit) (id : String) : (memory.erase id).Fit :=
  fun workflow member => fit workflow (List.mem_of_mem_filter member)

end Memory

namespace Workflow.Fit

variable {workflow : Workflow} {now : Time.Timestamp}

theorem update (fit : workflow.Fit) {id : String} {changes : Changes}
    (proper : (Operation.update id changes).Fit) : (workflow.update now changes).Fit where
  sound := by
    rw [Workflow.update]
    cases given : changes.graph with
    | none => exact fit.sound
    | some graph => exact proper.1 graph given
  named := by
    rw [Workflow.update]
    cases given : changes.name with
    | none => exact fit.named
    | some name => exact proper.2 name given
  sendable := fit.sendable

theorem markRun (fit : workflow.Fit) : (workflow.markRun now).Fit :=
  ⟨fit.sound, fit.named, fit.sendable⟩

end Workflow.Fit

theorem Call.fit_perform {call : Call} {memory : Memory} (fit : memory.Fit)
    (proper : call.operation.Fit) : (call.perform memory).2.Fit := by
  obtain ⟨operation, session⟩ := call
  cases operation with
  | save entry =>
    rw [perform_save]
    split
    · exact fit.put ⟨proper.1, proper.2, isWhole_idOf _⟩
    · exact fit
  | list => exact fit
  | fetch id =>
    rw [perform_fetch]
    split <;> exact fit
  | update id changes =>
    rw [perform_update]
    split
    · next old found => exact fit.put ((fit old (Memory.mem_of_get? found)).update proper)
    · exact fit
  | markRun id =>
    rw [perform_markRun]
    split
    · next old found => exact fit.put (fit old (Memory.mem_of_get? found)).markRun
    · exact fit
  | delete id =>
    rw [perform_delete]
    split
    · exact fit.erase id
    · exact fit

/-! ### What bodies hold -/

theorem properName_of_check {value : Json} {name : String} (accepted : checkName value = .ok name) :
    ProperName name := by
  rw [checkName, textWithin] at accepted
  cases read : text value with
  | bad =>
    rw [read] at accepted
    cases accepted
  | ok content =>
    rw [read, Checked.andThen_ok] at accepted
    split at accepted
    · cases accepted
    · split at accepted
      · cases accepted
      · split at accepted
        · cases accepted
        · cases accepted
          exact ⟨by omega, by omega⟩

theorem properName_default : ProperName Graph.defaultName :=
  ⟨by decide, by decide⟩

theorem SaveTemplatesBody.properName {setting : Setting} {value : Json} {body : SaveTemplatesBody}
    (accepted : SaveTemplatesBody.check setting value = .ok body) : ProperName body.name := by
  obtain ⟨members, rfl, fields⟩ := exists_of_record accepted
  obtain ⟨_, creator, four, _, rfl⟩ := Checked.exists_of_seq fields
  obtain ⟨_, status, three, _, rfl⟩ := Checked.exists_of_seq four
  obtain ⟨_, description, two, _, rfl⟩ := Checked.exists_of_seq three
  obtain ⟨_, name, one, named, rfl⟩ := Checked.exists_of_seq two
  obtain ⟨compile, _, rfl⟩ := Checked.exists_of_map one
  rcases cases_of_optional named with ⟨_, rfl⟩ | ⟨_, _, _, known⟩
  · exact properName_default
  · exact properName_of_check known

theorem Entry.properName {setting : Setting} {value : Json} {entry : Entry}
    (accepted : Entry.check setting value = .ok entry) : ProperName entry.name := by
  obtain ⟨members, rfl, fields⟩ := exists_of_record accepted
  obtain ⟨_, creator, four, _, rfl⟩ := Checked.exists_of_seq fields
  obtain ⟨_, status, three, _, rfl⟩ := Checked.exists_of_seq four
  obtain ⟨_, graph, two, _, rfl⟩ := Checked.exists_of_seq three
  obtain ⟨_, description, one, _, rfl⟩ := Checked.exists_of_seq two
  obtain ⟨name, named, rfl⟩ := Checked.exists_of_map one
  obtain ⟨_, _, _, known⟩ := exists_of_required named
  exact properName_of_check known

theorem Changes.properName {setting : Setting} {value : Json} {changes : Changes}
    (accepted : Changes.check setting value = .ok changes) (name : String)
    (given : changes.name = some name) : ProperName name := by
  obtain ⟨members, rfl, fields⟩ := exists_of_record accepted
  obtain ⟨_, status, three, _, rfl⟩ := Checked.exists_of_seq fields
  obtain ⟨_, graph, two, _, rfl⟩ := Checked.exists_of_seq three
  obtain ⟨_, description, one, _, rfl⟩ := Checked.exists_of_seq two
  obtain ⟨own, named, rfl⟩ := Checked.exists_of_map one
  obtain rfl : own = some name := given
  obtain ⟨_, known⟩ := exists_of_optional_nullable named
  exact properName_of_check known

theorem Body.exists_of_check {α : Type} {body : Body} {check : Setting → Json → Checked α}
    {result : α} (accepted : body.check check = .ok result) :
    ∃ value, body = .json value ∧ check .body value = .ok result := by
  have inner := Checked.ok_of_under accepted
  cases body with
  | absent => cases inner
  | json value => exact ⟨value, rfl, inner⟩
  | octets => cases inner

theorem CompileBody.sound_of_compiled {body : CompileBody} {settings : Checked Settings}
    {compilation : Compilation Float} (compiled : body.compiled settings = .ok compilation) :
    compilation.graph.problems = [] := by
  obtain ⟨_, compiler, _, done⟩ := exists_of_compiled compiled
  exact Graph.problems_eq_nil.mpr
    (Compiler.sound_of_compile (Compiler.compile_of_compileWithin done))

/-! ### Refusals -/

/-- No refusal is told as a success. -/
def Refusal.Fails (refusal : Refusal) : Prop :=
  refusal.answer.status ≠ 200

theorem Refusal.fails_detail {status : Nat} (failed : status ≠ 200) (detail : Json) :
    (Refusal.detail status detail).Fails :=
  failed

theorem Refusal.fails_crash : crash.Fails :=
  (by decide : (500 : Nat) ≠ 200)

theorem Compiler.Failure.fails_refusal (failure : Compiler.Failure) : failure.refusal.Fails := by
  rw [refusal]
  cases failure.message? with
  | some message => exact Refusal.fails_detail (by decide) _
  | none => exact (by decide : (0 : Nat) ≠ 200)

theorem Endpoint.fails_refusal (endpoint : Endpoint) (operation : Operation) (fault : StoreFault) :
    (endpoint.refusal operation fault).Fails := by
  intro success
  have among := endpoint.status_refusal_mem operation fault
  rw [success] at among
  exact absurd among (by decide)

namespace Refusal

theorem fails_ofIssues (issues : List Issue) : (ofIssues issues).Fails := by
  rw [ofIssues]
  split
  · exact fails_detail (by decide) _
  · exact fails_crash

theorem fails_unreadable (error : Json.ParseError) : (unreadable error).Fails := by
  rw [unreadable]
  split
  · exact fails_detail (by decide) _
  · exact fails_ofIssues _

theorem fails_of_readBody {request : Request} {refusal : Refusal}
    (refused : request.readBody = .error refusal) : refusal.Fails := by
  rw [Request.readBody] at refused
  split at refused
  · cases refused
  · split at refused
    · split at refused
      · cases refused
        exact fails_detail (by decide) _
      · split at refused
        · cases refused
        · cases refused
          exact fails_unreadable _
    · cases refused

theorem fails_of_compiled {body : CompileBody} {settings : Checked Settings} {refusal : Refusal}
    (refused : body.compiled settings = .error refusal) : refusal.Fails := by
  rcases CompileBody.cases_of_refused refused with rfl | ⟨failure, rfl⟩
  · exact fails_crash
  · exact failure.fails_refusal

end Refusal

/-! ### Making out a request -/

/-- What may come of work by which a store stays as it is: a refusal, or a value that `holds`. -/
inductive Work.Kept {α : Type} (store : Store) (holds : α → Prop) :
    Except Refusal α × Session → Prop where
  | refused {refusal : Refusal} {after : Session} : after.store = some store → refusal.Fails →
    Kept store holds (.error refusal, after)
  | done {value : α} {after : Session} : after.store = some store → holds value →
    Kept store holds (.ok value, after)

/-- Work that leaves the store of a session as it is, and comes to a value only if it `holds`. -/
def Work.Keeps {α : Type} (store : Store) (work : Work α) (holds : α → Prop) : Prop :=
  ∀ session : Session, session.store = some store → Kept store holds (work.run.run session)

namespace Work

variable {α β : Type} {store : Store} {holds : α → Prop}

theorem keeps_pure {value : α} (known : holds value) : Keeps store (pure value) holds :=
  fun _ held => .done held known

theorem Keeps.bind {work : Work α} {next : α → Work β} {more : β → Prop}
    (first : Keeps store work holds)
    (second : ∀ value, holds value → Keeps store (next value) more) :
    Keeps store (work >>= next) more := by
  intro session held
  have kept := first session held
  rw [run_bind]
  generalize work.run.run session = result at kept ⊢
  cases kept with
  | refused held fails => exact .refused held fails
  | done held known => exact second _ known _ held

theorem keeps_read (request : Request) : Keeps store (Work.read request) fun _ => True := by
  intro session held
  rw [run_read]
  cases read : request.readBody with
  | error => exact .refused held (Refusal.fails_of_readBody read)
  | ok => exact .done held trivial

theorem keeps_openStore : Keeps store Work.openStore (· = store) := by
  intro session held
  rw [run_openStore session held]
  exact .done held rfl

theorem keeps_accept (body : Body) (check : Setting → Json → Checked α) :
    Keeps store (Work.accept body check) fun result =>
      ∃ value, check .body value = .ok result := by
  intro session held
  rw [run_accept]
  cases accepted : body.check check with
  | bad issues => exact .refused held (Refusal.fails_ofIssues issues)
  | ok result =>
    obtain ⟨value, _, known⟩ := Body.exists_of_check accepted
    exact .done held ⟨value, known⟩

theorem keeps_compileBody (body : CompileBody) :
    Keeps store (Work.compileBody body) fun compilation => compilation.graph.problems = [] := by
  intro session held
  obtain ⟨journal, done⟩ := run_compileBody session body
  rw [done]
  cases compiled : body.compiled session.settings with
  | error => exact .refused held (Refusal.fails_of_compiled compiled)
  | ok => exact .done held (CompileBody.sound_of_compiled compiled)

theorem keeps_compileTemplates (body : CompileBody) :
    Keeps store (Work.compileTemplates body) fun _ => True := by
  have logged : Keeps store (Action.log (.compileRequested body.templates.length)) fun _ => True :=
    fun session held => .done held trivial
  exact logged.bind fun _ _ => (keeps_compileBody body).bind fun _ _ => keeps_pure trivial

theorem keeps_renderTemplates (body : RenderBody) :
    Keeps store (Work.renderTemplates body) fun _ => True :=
  (keeps_compileBody body.toCompileBody).bind fun _ _ => keeps_pure trivial

theorem keeps_requireSound (graph : Graph Float) :
    Keeps store (Work.requireSound graph) fun _ => graph.problems = [] := by
  intro session held
  rw [run_requireSound]
  split
  · next sound => exact .done held sound
  · exact .refused held (Refusal.fails_detail (by decide) _)

end Work

namespace Endpoint

/-- What a store is asked to do at an endpoint. -/
inductive Asks : Endpoint → Operation → Prop where
  | saveTemplates (entry : Entry) : Asks .saveTemplates (.save entry)
  | saveWorkflow (entry : Entry) : Asks .saveWorkflow (.save entry)
  | listWorkflows : Asks .listWorkflows .list
  | fetchWorkflow (id : String) : Asks (.fetchWorkflow id) (.fetch id)
  | updateWorkflow (id : String) (changes : Changes) :
    Asks (.updateWorkflow id) (.update id changes)
  | deleteWorkflow (id : String) : Asks (.deleteWorkflow id) (.delete id)
  | markWorkflowRun (id : String) : Asks (.markWorkflowRun id) (.markRun id)

/-- A workflow is stored at the endpoint, and is then told. -/
def writes : Endpoint → Bool
  | .saveTemplates | .saveWorkflow | .updateWorkflow _ | .markWorkflowRun _ => true
  | .sampleTemplates | .compile | .render | .listWorkflows | .fetchWorkflow _ | .deleteWorkflow _
  | .health => false

variable {endpoint : Endpoint} {operation : Operation} {session : Session} {memory : Memory}
  {outcome : Outcome}

/-- The memory takes the workflow that is told. -/
theorem Asks.exists_told (asks : endpoint.Asks operation) (writing : endpoint.writes)
    (done : ((Call.mk operation session).perform memory).1 = .ok outcome) :
    ∃ workflow : Workflow, endpoint.told outcome = workflow.json ∧
      ((Call.mk operation session).perform memory).2 = memory.put workflow := by
  cases asks with
  | saveTemplates entry | saveWorkflow entry =>
    rw [Call.perform_save] at done ⊢
    cases named : session.creator entry with
    | error =>
      rw [named] at done
      cases done
    | ok creator =>
      rw [named] at done
      cases done
      exact ⟨_, rfl, rfl⟩
  | updateWorkflow id changes =>
    rw [Call.perform_update] at done ⊢
    cases found : memory.get? id with
    | none =>
      rw [found] at done
      cases done
    | some old =>
      rw [found] at done
      cases done
      exact ⟨_, rfl, rfl⟩
  | markWorkflowRun id =>
    rw [Call.perform_markRun] at done ⊢
    cases found : memory.get? id with
    | none =>
      rw [found] at done
      cases done
    | some old =>
      rw [found] at done
      cases done
      exact ⟨_, rfl, rfl⟩
  | listWorkflows | fetchWorkflow | deleteWorkflow => cases writing

/-- Whatever else is told leaves the memory as it is, or can be sent. -/
theorem Asks.kept_or_sent (asks : endpoint.Asks operation) (reading : endpoint.writes = false)
    (fit : memory.Fit) (done : ((Call.mk operation session).perform memory).1 = .ok outcome) :
    ((Call.mk operation session).perform memory).2 = memory ∨
      (Answer.ofJson (endpoint.told outcome)).sent = .ofJson (endpoint.told outcome) := by
  cases asks with
  | saveTemplates | saveWorkflow | updateWorkflow | markWorkflowRun => cases reading
  | listWorkflows => exact .inl rfl
  | fetchWorkflow id =>
    rw [Call.perform_fetch]
    cases memory.get? id <;> exact .inl rfl
  | deleteWorkflow id =>
    rw [Call.perform_delete] at done ⊢
    cases found : memory.get? id with
    | none => exact .inl rfl
    | some workflow =>
      have names : Text.isWhole "id" = true ∧ Text.isWhole "deleted" = true := by decide
      have whole := (fit workflow (Memory.mem_of_get? found)).sendable
      rw [Memory.id_of_get? found] at whole
      refine .inr (if_pos ?_)
      simp [told, Json.finite, Json.finiteMembers, Json.every, Json.everyMember, names, whole]

end Endpoint

/-- What a store is asked to do suits the endpoint and keeps fit workflows fit. -/
def Stage.Fit (endpoint : Endpoint) (store : Store) : Stage → Prop
  | answered _ => endpoint.writes = false
  | asks asked operation => asked = store ∧ operation.Fit ∧ endpoint.Asks operation

/-- Where no body counts, it is only the store that has to be opened. -/
theorem Endpoint.Asks.keeps_opened {endpoint : Endpoint} {operation : Operation} {store : Store}
    (asks : endpoint.Asks operation) (proper : operation.Fit) :
    Work.Keeps store (do return Stage.asks (← Work.openStore) operation)
      fun stage => stage.Fit endpoint store := by
  refine Work.keeps_openStore.bind ?_
  rintro _ rfl
  exact Work.keeps_pure ⟨rfl, proper, asks⟩

theorem Endpoint.keeps_prepare (endpoint : Endpoint) (request : Request) (store : Store) :
    Work.Keeps store (endpoint.prepare request) (·.Fit endpoint store) := by
  cases endpoint with
  | saveTemplates =>
    refine (Work.keeps_read request).bind fun body _ => ?_
    refine Work.keeps_openStore.bind ?_
    rintro _ rfl
    refine (Work.keeps_accept body _).bind ?_
    rintro body ⟨value, accepted⟩
    refine (Work.keeps_compileBody _).bind fun compilation sound => ?_
    exact Work.keeps_pure
      ⟨rfl, ⟨sound, SaveTemplatesBody.properName accepted⟩, .saveTemplates _⟩
  | saveWorkflow =>
    refine (Work.keeps_read request).bind fun body _ => ?_
    refine Work.keeps_openStore.bind ?_
    rintro _ rfl
    refine (Work.keeps_accept body _).bind ?_
    rintro entry ⟨value, accepted⟩
    refine (Work.keeps_requireSound entry.graph).bind fun _ sound => ?_
    exact Work.keeps_pure ⟨rfl, ⟨sound, Entry.properName accepted⟩, .saveWorkflow _⟩
  | updateWorkflow id =>
    refine (Work.keeps_read request).bind fun body _ => ?_
    refine Work.keeps_openStore.bind ?_
    rintro _ rfl
    refine (Work.keeps_accept body _).bind ?_
    rintro changes ⟨value, accepted⟩
    have named := Changes.properName accepted
    -- Without a new graph the old one stays, and that one is sound.
    cases given : changes.graph with
    | none => exact Work.keeps_pure ⟨rfl, ⟨by simp [given], named⟩, .updateWorkflow id changes⟩
    | some graph =>
      refine (Work.keeps_requireSound graph).bind fun _ sound => ?_
      exact Work.keeps_pure ⟨rfl, ⟨by simp [given, sound], named⟩, .updateWorkflow id changes⟩
  | listWorkflows => exact Asks.listWorkflows.keeps_opened trivial
  | fetchWorkflow id => exact (Asks.fetchWorkflow id).keeps_opened trivial
  | deleteWorkflow id => exact (Asks.deleteWorkflow id).keeps_opened trivial
  | markWorkflowRun id => exact (Asks.markWorkflowRun id).keeps_opened trivial
  | sampleTemplates | health => exact Work.keeps_pure rfl
  | compile =>
    have kept : Work.Keeps store (Endpoint.compile.work request) fun _ => True := by
      refine (Work.keeps_read request).bind fun body _ => ?_
      exact (Work.keeps_accept body _).bind fun body _ => Work.keeps_compileTemplates body
    exact kept.bind fun _ _ => Work.keeps_pure rfl
  | render =>
    have kept : Work.Keeps store (Endpoint.render.work request) fun _ => True := by
      refine (Work.keeps_read request).bind fun body _ => ?_
      exact (Work.keeps_accept body _).bind fun body _ => Work.keeps_renderTemplates body
    exact kept.bind fun _ _ => Work.keeps_pure rfl

/-! ### One request -/

/-- The memory that an answer leaves is fit. It is as it was if the answer is no success. A success
that cannot be sent leaves it as it was too, unless the request was to store a workflow: then the
memory has taken the workflow that is told. -/
structure Answer.Leaves (writes : Bool) (memory : Memory) (answer : Answer) (after : Session)
    (next : Memory) : Prop where
  held : after.store = some (.memory next)
  fit : next.Fit
  kept : answer.status ≠ 200 → next = memory
  sent : writes = false → next = memory ∨ answer.sent = answer
  told : writes = true → answer.status = 200 →
    ∃ workflow : Workflow, answer.content = .json workflow.json.finite ∧ next = memory.put workflow

variable {session : Session} {memory : Memory}

theorem Answer.leaves_same {writes : Bool} {answer : Answer} {after : Session}
    (held : after.store = some (.memory memory)) (fit : memory.Fit)
    (quiet : writes = true → answer.status ≠ 200) : answer.Leaves writes memory after memory where
  held := held
  fit := fit
  kept _ := rfl
  sent _ := .inl rfl
  told writing success := absurd success (quiet writing)

theorem Endpoint.exists_leaves (endpoint : Endpoint) (request : Request)
    (held : session.store = some (.memory memory)) (fit : memory.Fit) :
    ∃ next, (endpoint.answer request session).1.Leaves endpoint.writes memory
      (endpoint.answer request session).2 next := by
  have kept := endpoint.keeps_prepare request (.memory memory) session held
  -- Only what a store was asked to do, and has done, changes the memory.
  generalize prepared : (endpoint.prepare request).run.run session = done at kept
  cases kept with
  | refused held fails =>
    rw [answer_of_refused prepared]
    exact ⟨memory, Answer.leaves_same held fit fun _ => fails⟩
  | @done stage after held known =>
    cases stage with
    | answered value =>
      rw [answer_of_answered prepared]
      refine ⟨memory, Answer.leaves_same held fit fun writing => ?_⟩
      cases writing.symm.trans known
    | asks store operation =>
      obtain ⟨rfl, proper, asks⟩ := known
      obtain ⟨result, last⟩ := Call.run_on_memory after memory operation held
      have next : ((Call.mk operation after).perform memory).2.Fit := Call.fit_perform fit proper
      rw [answer_of_asks prepared]
      generalize (operation.on (.memory memory)).run.run after = done at result last ⊢
      obtain ⟨fault | outcome, final⟩ := done
      · -- A memory that fails to do what it is asked has changed nothing.
        have same : ((Call.mk operation after).perform memory).2 = memory :=
          Call.perform_of_error _ result.symm
        rw [same] at last
        exact ⟨memory, Answer.leaves_same last fit fun _ =>
          endpoint.fails_refusal operation fault⟩
      · refine ⟨_, last, next, fun failed => absurd rfl failed,
          fun reading => asks.kept_or_sent reading fit result.symm, fun writing _ => ?_⟩
        obtain ⟨workflow, told, put⟩ := asks.exists_told writing result.symm
        exact ⟨workflow, congrArg (fun value : Json => Content.json value.finite) told, put⟩

def Route.writes : Route → Bool
  | .endpoint target => target.writes
  | .wrongMethod | .elsewhere | .unknown => false

theorem Route.exists_leaves (route : Route) (request : Request)
    (held : session.store = some (.memory memory)) (fit : memory.Fit) :
    ∃ next, (route.answer request session).1.Leaves route.writes memory
      (route.answer request session).2 next := by
  cases route with
  | endpoint target => exact target.exists_leaves request held fit
  | wrongMethod | elsewhere | unknown =>
    exact ⟨memory, Answer.leaves_same held fit fun writing => absurd writing Bool.false_ne_true⟩

theorem lookup_head_endpoints (path : List String) : (endpoints path).lookup "HEAD" = none := by
  unfold endpoints
  split <;> (try split) <;> rfl

/-- Nothing is asked for its head alone. -/
theorem Route.find_head (path : String) (endpoint : Endpoint) :
    Route.find "HEAD" path ≠ .endpoint endpoint := by
  have absent (s : List Char) : (endpointsAt s).lookup "HEAD" = none := by
    unfold endpointsAt
    dsimp only
    split <;> exact lookup_head_endpoints _
  unfold Route.find
  dsimp only
  rw [absent]
  dsimp only
  split
  · exact nofun
  · split <;> exact nofun

namespace Request

def route (request : Request) : Route :=
  Route.find request.method.toUpper (Address.parse request.address).location

/-- The request is one for a workflow to be stored. -/
def Writes (request : Request) : Prop :=
  request.route.writes = true

/-- The answer before it is sent. -/
def due (request : Request) (session : Session) : Answer :=
  (request.route.answer request session).1

/-- The request has succeeded, but a text in its answer holds half of a surrogate pair. -/
def Unsendable (request : Request) (session : Session) : Prop :=
  (request.due session).status = 200 ∧ ∃ value, (request.due session).content = .json value ∧
    value.every (fun _ => true) Text.isWhole = false

theorem answer_eq (request : Request) (session : Session) :
    request.answer session =
      (if request.method.toUpper == "HEAD" then { request.due session with content := .text "" }
        else (request.due session).sent,
      (request.route.answer request session).2) := by
  unfold answer due route
  dsimp only
  generalize (Route.find request.method.toUpper
    (Address.parse request.address).location).answer request session = done
  obtain ⟨answer, after⟩ := done
  cases request.method.toUpper == "HEAD" <;> rfl

theorem answer_snd (request : Request) (session : Session) :
    (request.answer session).2 = (request.route.answer request session).2 := by
  rw [answer_eq]

variable {request : Request} {session : Session}

theorem exists_leaves {memory : Memory} (request : Request)
    (held : session.store = some (.memory memory)) (fit : memory.Fit) :
    ∃ next, (request.due session).Leaves request.route.writes memory (request.answer session).2
      next := by
  obtain ⟨next, leaves⟩ := request.route.exists_leaves request held fit
  rw [answer_snd, due]
  exact ⟨next, leaves⟩

/-- What can be sent is answered as it is due to be. -/
theorem status_of_sent (sent : (request.due session).sent = request.due session) :
    (request.answer session).1.status = (request.due session).status := by
  rw [answer_eq]
  dsimp only
  generalize request.due session = answer at sent ⊢
  split
  · rfl
  · rw [sent]

theorem sent_due (sendable : ¬ request.Unsendable session)
    (success : (request.due session).status = 200) :
    (request.due session).sent = request.due session := by
  rw [Answer.sent]
  split
  · next value found =>
    split
    · rfl
    · next broken => exact absurd ⟨success, value, found, by simpa using broken⟩ sendable
  · rfl

theorem Writes.not_head (writes : request.Writes) : (request.method.toUpper == "HEAD") = false := by
  rw [beq_eq_false_iff_ne]
  intro head
  rw [Writes, route, head] at writes
  cases found : Route.find "HEAD" (Address.parse request.address).location with
  | endpoint target => exact Route.find_head _ target found
  | wrongMethod | elsewhere | unknown =>
    rw [found] at writes
    cases writes

/-- A workflow that cannot be told of is answered with a crash. -/
theorem Writes.status_of_unsendable (writes : request.Writes)
    (unsendable : request.Unsendable session) : (request.answer session).1.status = 500 := by
  obtain ⟨_, value, found, broken⟩ := unsendable
  rw [answer_eq]
  dsimp only
  rw [writes.not_head, if_neg Bool.false_ne_true, Answer.sent, found]
  dsimp only
  rw [if_neg (by simp [broken])]
  rfl

/-- How a request that does not end in a success leaves a memory: as it was, unless it has stored a
workflow of which it cannot tell. Then it ends in a crash, and the memory has taken the workflow. -/
structure Spares (request : Request) (session : Session) (memory : Memory) : Prop where
  same : 400 ≤ (request.answer session).1.status →
    ¬ (request.Writes ∧ request.Unsendable session) →
    (request.answer session).2.store = some (.memory memory)
  taken : request.Writes → request.Unsendable session →
    (request.answer session).1.status = 500 ∧ ∃ (workflow : Workflow) (next : Memory),
      (request.due session).content = .json workflow.json.finite ∧
        (request.answer session).2.store = some (.memory next) ∧ memory.Takes workflow next

theorem spares {memory : Memory} (request : Request)
    (held : session.store = some (.memory memory)) (fit : memory.Fit) :
    request.Spares session memory := by
  obtain ⟨next, leaves⟩ := request.exists_leaves held fit
  refine ⟨fun failed told => ?_, fun writes unsendable => ?_⟩
  · suffices same : next = memory from same ▸ leaves.held
    by_cases success : (request.due session).status = 200
    · -- A success that fails all the same is one that cannot be sent.
      have broken : (request.due session).sent ≠ request.due session := by
        intro sent
        rw [status_of_sent sent, success] at failed
        omega
      have unsendable : request.Unsendable session := by
        by_contra sendable
        exact broken (sent_due sendable success)
      have reading : request.route.writes = false :=
        Bool.eq_false_iff.mpr fun writes => told ⟨writes, unsendable⟩
      exact (leaves.sent reading).resolve_right broken
    · exact leaves.kept success
  · obtain ⟨workflow, told, put⟩ := leaves.told writes unsendable.1
    refine ⟨writes.status_of_unsendable unsendable, workflow, next, told, leaves.held, ?_⟩
    rw [put]
    exact memory.takes_put workflow

end Request

/-! ### Series of requests -/

namespace Session

/-- A session after requests that came one after the other. -/
def serve (start : Session) (requests : List Request) : Session :=
  requests.foldl (fun session request => (request.answer session).2) start

theorem serve_cons (start : Session) (request : Request) (rest : List Request) :
    start.serve (request :: rest) = (request.answer start).2.serve rest := by
  rw [serve, List.foldl_cons]
  rfl

theorem exists_memory_serve {start : Session} {memory : Memory}
    (held : start.store = some (.memory memory)) (fit : memory.Fit) (requests : List Request) :
    ∃ next, (start.serve requests).store = some (.memory next) ∧ next.Fit := by
  induction requests generalizing start memory with
  | nil => exact ⟨memory, held, fit⟩
  | cons request rest ih =>
    obtain ⟨next, leaves⟩ := request.exists_leaves held fit
    rw [serve_cons]
    exact ih leaves.held leaves.fit

/-- Every workflow that requests leave in a memory has a sound graph and a proper name. A request
that fails changes nothing, save for one that has stored a workflow and cannot tell of it. -/
theorem serve_fit {start : Session} (empty : start.store = some (.memory .empty))
    (requests : List Request) :
    ∃ memory, (start.serve requests).store = some (.memory memory) ∧
      (∀ workflow ∈ memory.workflows, workflow.graph.problems = [] ∧
        1 ≤ workflow.name.length ∧ workflow.name.length ≤ 200) ∧
      ∀ request : Request, request.Spares (start.serve requests) memory := by
  obtain ⟨memory, held, fit⟩ := exists_memory_serve empty Memory.fit_empty requests
  refine ⟨memory, held, fun workflow member => ?_, fun request => request.spares held fit⟩
  exact ⟨(fit workflow member).sound, (fit workflow member).named⟩

end Session

namespace Samples

def memorySession : Session :=
  { Session.opening [] 0 none with store := some (.memory .empty) }

/-- A request to save no templates, with half of a surrogate pair as the description. -/
def breaking : Request :=
  ⟨"POST", "/api/templates/workflow", "application/json",
    "\x7b\"templates\":[],\"description\":\"\\ud800\"\x7d"⟩

def mending : Request :=
  ⟨"PUT", "/api/workflows/workflow-000000000001", "application/json",
    "\x7b\"description\":\"\"\x7d"⟩

end Samples

theorem Session.serve_fit_breaking :
    Samples.memorySession.store = some (.memory .empty) ∧
      ∃ memory,
        (Samples.memorySession.serve [Samples.breaking, Samples.mending]).store =
            some (.memory memory) ∧
          (∀ workflow ∈ memory.workflows, workflow.graph.problems = [] ∧
            1 ≤ workflow.name.length ∧ workflow.name.length ≤ 200) ∧
          ∀ request : Request,
            request.Spares (Samples.memorySession.serve [Samples.breaking, Samples.mending])
              memory := by
  have empty : Samples.memorySession.store = some (.memory .empty) := rfl
  exact ⟨empty, Session.serve_fit empty [Samples.breaking, Samples.mending]⟩

/-- The workflow is saved, although the answer is a failure. -/
theorem Session.changes_breaking :
    (Samples.breaking.answer Samples.memorySession).1.status = 500 ∧
      (Samples.breaking.answer Samples.memorySession).2.store ≠ Samples.memorySession.store := by
  decide +kernel

end ReplyFlow
