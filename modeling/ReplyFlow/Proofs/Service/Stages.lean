import ReplyFlow.Proofs.Store.Calls
import ReplyFlow.Service.Handler

/-! The stages of the work on a request.

First the request is made out and the store is opened, which changes no workflow. Then the store
does what it is asked to do, if the endpoint needs it, and at last this is reported.
-/

set_option autoImplicit false

namespace ReplyFlow

open Schema

namespace Session

variable (session : Session)

theorem log_nil : session.log [] = session := by
  rw [log, List.append_nil]

theorem log_log (earlier later : Journal) :
    (session.log earlier).log later = session.log (earlier ++ later) := by
  rw [log, log, log, ← List.append_assoc]

end Session

namespace Work

variable {α : Type} (session : Session)

theorem run_ofAction (work : Action StoreFault α) (recover : StoreFault → Work α) :
    (Work.ofAction work recover).run.run session =
      match work.run.run session with
      | (.ok value, after) => (.ok value, after)
      | (.error fault, after) => (recover fault).run.run after := by
  unfold Work.ofAction ExceptT.run StateT.run
  simp only [ExceptT.mk, bind, StateT.bind]
  cases work session with
  | mk result after => cases result <;> rfl

theorem run_certain (work : Action StoreFault α) :
    (Work.certain work).run.run session =
      match work.run.run session with
      | (.ok value, after) => (.ok value, after)
      | (.error _, after) => (.error .crash, after) :=
  run_ofAction session work _

theorem run_read (request : Request) :
    (Work.read request).run.run session = (request.readBody, session) := by
  rw [Work.read]
  cases request.readBody <;> rfl

theorem run_openStore {store : Store} (held : session.store = some store) :
    Work.openStore.run.run session = (.ok store, session) := by
  rw [Work.openStore, run_certain, Action.store, run_bind, Action.run_get]
  dsimp only
  rw [held]
  rfl

theorem run_accept (body : Body) (check : Setting → Json → Checked α) :
    (Work.accept body check).run.run session =
      match body.check check with
      | .ok value => (.ok value, session)
      | .bad issues => (.error (.ofIssues issues), session) := by
  rw [Work.accept]
  cases body.check check <;> rfl

theorem run_requireSound (graph : Graph Float) :
    (Work.requireSound graph).run.run session =
      if graph.problems = [] then (.ok (), session)
      else (.error (.detail 422 (.object [("message", .text "Graph is not structurally valid"),
        ("problems", .texts graph.problemTexts)])), session) := by
  rw [Work.requireSound, Graph.problemTexts]
  cases graph.problems <;> rfl

end Work

/-! ### Compiling -/

/-- What is told if templates could not be compiled. -/
def Compiler.Failure.refusal (failure : Compiler.Failure) : Refusal :=
  match failure.message? with
  | some message => .detail 500 (.text ("Error compiling templates: " ++ message))
  | none => .silence

/-- What is logged in that case. -/
def Compiler.Failure.events (failure : Compiler.Failure) : Journal :=
  failure.message?.toList.map .compileFailed

/-- What the templates of a body are compiled to, or how the request is refused. -/
def CompileBody.compiled (body : CompileBody) (settings : Checked Settings) :
    Except Refusal (Compilation Float) :=
  match settings with
  | .bad _ => .error .crash
  | .ok settings =>
    match Compiler.ofSettings (body.overrides.elim settings (·.apply settings)) with
    | .error _ => .error .crash
    | .ok compiler =>
      match compiler.compileWithin .usual body.templates with
      | .ok compilation => .ok compilation
      | .error failure => .error failure.refusal

namespace CompileBody

variable {body : CompileBody} {settings : Checked Settings}

theorem exists_of_compiled {compilation : Compilation Float}
    (compiled : body.compiled settings = .ok compilation) :
    ∃ (valid : Settings) (compiler : Compiler Float), settings = .ok valid ∧
      compiler.compileWithin .usual body.templates = .ok compilation := by
  unfold CompileBody.compiled at compiled
  split at compiled
  · cases compiled
  · next valid =>
    split at compiled
    · cases compiled
    · next compiler _ =>
      split at compiled
      · next done =>
        cases compiled
        exact ⟨valid, compiler, rfl, done⟩
      · cases compiled

theorem cases_of_refused {refusal : Refusal} (refused : body.compiled settings = .error refusal) :
    refusal = .crash ∨ ∃ failure : Compiler.Failure, refusal = failure.refusal := by
  unfold CompileBody.compiled at refused
  split at refused
  · cases refused
    exact .inl rfl
  · split at refused
    · cases refused
      exact .inl rfl
    · split at refused
      · cases refused
      · next failure _ =>
        cases refused
        exact .inr ⟨failure, rfl⟩

end CompileBody

namespace Work

variable (session : Session)

theorem run_certain_settings :
    (Work.certain Action.settings).run.run session =
      match session.settings with
      | .ok settings => (.ok settings, session)
      | .bad _ => (.error .crash, session) := by
  rw [run_certain, Action.run_settings]
  cases session.settings <;> rfl

theorem run_compilerFor (overrides : Option Overrides) :
    (Work.compilerFor overrides).run.run session =
      match session.settings with
      | .bad _ => (.error .crash, session)
      | .ok settings =>
        match Compiler.ofSettings (overrides.elim settings (·.apply settings)) with
        | .error _ => (.error .crash, session)
        | .ok compiler => (.ok compiler, session) := by
  rw [Work.compilerFor, run_bind, run_certain_settings]
  cases session.settings with
  | bad => rfl
  | ok settings =>
    cases overrides with
    | none =>
      dsimp only [Option.elim]
      cases Compiler.ofSettings settings <;> rfl
    | some overrides =>
      dsimp only [Option.elim]
      cases Compiler.ofSettings (overrides.apply settings) <;> rfl

theorem run_refuseCompiling {α : Type} (failure : Compiler.Failure) :
    (Work.refuseCompiling failure : Work α).run.run session =
      (.error failure.refusal, session.log failure.events) := by
  rw [Work.refuseCompiling, Compiler.Failure.refusal, Compiler.Failure.events]
  cases failure.message? with
  | some message => rfl
  | none => exact Prod.ext rfl session.log_nil.symm

/-- Beside its result, compiling only adds to the journal. -/
theorem run_compileBody (body : CompileBody) :
    ∃ journal, (Work.compileBody body).run.run session =
      (body.compiled session.settings, session.log journal) := by
  have silent : session = session.log [] := session.log_nil.symm
  rw [Work.compileBody, run_bind, run_compilerFor]
  unfold CompileBody.compiled
  cases session.settings with
  | bad => exact ⟨[], Prod.ext rfl silent⟩
  | ok settings =>
    dsimp only
    cases Compiler.ofSettings (body.overrides.elim settings (·.apply settings)) with
    | error => exact ⟨[], Prod.ext rfl silent⟩
    | ok compiler =>
      dsimp only
      have logged : (modify (·.log (compiler.run .usual body.templates).journal) : Work PUnit).run.run
          session = (.ok ⟨⟩, session.log (compiler.run .usual body.templates).journal) := rfl
      rw [run_bind, logged]
      dsimp only
      rw [Compiler.result_run]
      cases compiler.compileWithin .usual body.templates with
      | error failure =>
        dsimp only
        rw [run_refuseCompiling, Session.log_log]
        exact ⟨_, rfl⟩
      | ok compilation =>
        dsimp only
        cases compilation.graph.problemTexts with
        | nil => exact ⟨_, rfl⟩
        | cons problem others =>
          exact ⟨_, Prod.ext rfl (session.log_log _ [.graphInvalid (problem :: others)])⟩

end Work

/-! ### Failures of the store -/

/-- What is being done, in the words of a refusal. -/
def Operation.action : Operation → StoreAction
  | save _ => .save
  | list => .list
  | fetch _ => .fetch
  | update .. | markRun _ => .update
  | delete _ => .delete

namespace Endpoint

/-- Tells that the store has failed. -/
def refuse {α : Type} (endpoint : Endpoint) (operation : Operation) (fault : StoreFault) : Work α :=
  match endpoint with
  | .saveTemplates => Work.refuseSaving fault
  | _ => Work.refuseStore operation.action fault

/-- What is told if the store has failed. -/
def refusal (endpoint : Endpoint) (operation : Operation) (fault : StoreFault) : Refusal :=
  match endpoint, fault, fault.message? with
  | _, _, none => .crash
  | .saveTemplates, _, some message => .detail 502 (.text ("Failed to save workflow: " ++ message))
  | _, .notFound _, some message => .detail 404 (.text message)
  | _, _, some message =>
    .detail 502 (.text ("Failed to " ++ operation.action.name ++ " workflow: " ++ message))

/-- What is logged if the store has failed. -/
def failureEvents (endpoint : Endpoint) (operation : Operation) (fault : StoreFault) : Journal :=
  match endpoint, fault, fault.message? with
  | _, _, none => []
  | .saveTemplates, _, some message => [.saveFailed message]
  | _, .notFound _, some _ => []
  | _, _, some message => [.storeFailed operation.action.name message]

theorem run_refuse {α : Type} (endpoint : Endpoint) (operation : Operation) (fault : StoreFault)
    (session : Session) : (endpoint.refuse operation fault : Work α).run.run session =
      (.error (endpoint.refusal operation fault),
        session.log (endpoint.failureEvents operation fault)) := by
  have silent : session = session.log [] := session.log_nil.symm
  cases fault with
  | notFound =>
    cases endpoint with
    | saveTemplates => rfl
    | _ => exact Prod.ext rfl silent
  | failed action => cases endpoint <;> cases action <;> rfl
  | nothingReturned => cases endpoint <;> rfl
  | row | settings => cases endpoint <;> exact Prod.ext rfl silent

end Endpoint

/-! ### Stages -/

/-- An answer for which no store is needed, or what a store is to do. -/
inductive Stage where
  | answered (value : Json)
  | asks (store : Store) (operation : Operation)

namespace Endpoint

/-- Makes out a request. -/
def prepare (endpoint : Endpoint) (request : Request) : Work Stage := do
  match endpoint with
  | .saveTemplates =>
    let body ← Work.read request
    let store ← Work.openStore
    let body ← Work.accept body SaveTemplatesBody.check
    let compilation ← Work.compileBody body.toCompileBody
    return .asks store (.save (body.entry compilation.graph))
  | .saveWorkflow =>
    let body ← Work.read request
    let store ← Work.openStore
    let entry ← Work.accept body Entry.check
    Work.requireSound entry.graph
    return .asks store (.save entry)
  | .listWorkflows => return .asks (← Work.openStore) .list
  | .fetchWorkflow id => return .asks (← Work.openStore) (.fetch id)
  | .updateWorkflow id =>
    let body ← Work.read request
    let store ← Work.openStore
    let changes ← Work.accept body Changes.check
    match changes.graph with
    | some graph => Work.requireSound graph
    | none => pure ()
    return .asks store (.update id changes)
  | .deleteWorkflow id => return .asks (← Work.openStore) (.delete id)
  | .markWorkflowRun id => return .asks (← Work.openStore) (.markRun id)
  | .sampleTemplates | .compile | .render | .health => return .answered (← endpoint.work request)

/-- What is told if the store has done what it was asked to do. -/
def told : Endpoint → Outcome → Json
  | .deleteWorkflow id, _ => .object [("id", .text id), ("deleted", .bool true)]
  | _, .workflow workflow => workflow.json
  | _, .workflows workflows =>
    .object [("data", .ofList Workflow.json workflows), ("total", .whole workflows.length)]
  | _, .done => .null

/-- What is logged in that case. -/
def successEvents : Endpoint → Outcome → Journal
  | .saveTemplates, .workflow workflow =>
    [.templatesSaved workflow.id workflow.graph.nodes.length]
  | _, _ => []

def report (endpoint : Endpoint) (outcome : Outcome) : Work Json :=
  match endpoint, outcome with
  | .saveTemplates, .workflow workflow => do
    Action.log (.templatesSaved workflow.id workflow.graph.nodes.length)
    return workflow.json
  | _, _ => return endpoint.told outcome

theorem run_report (endpoint : Endpoint) (outcome : Outcome) (session : Session) :
    (endpoint.report outcome).run.run session =
      (.ok (endpoint.told outcome), session.log (endpoint.successEvents outcome)) := by
  have silent : session = session.log [] := session.log_nil.symm
  cases endpoint with
  | saveTemplates =>
    cases outcome with
    | workflow => rfl
    | workflows | done => exact Prod.ext rfl silent
  | _ => exact Prod.ext rfl silent

/-- Uses the store if need be. -/
def conclude (endpoint : Endpoint) : Stage → Work Json
  | .answered value => return value
  | .asks store operation => do
    endpoint.report (← Work.ofAction (operation.on store) (endpoint.refuse operation))

theorem ofAction_refuse {α β : Type} (endpoint : Endpoint) (operation : Operation)
    (work : Action StoreFault α) (outcome : α → β) :
    Work.ofAction (do return outcome (← work)) (endpoint.refuse operation) =
      (do return outcome (← Work.ofAction work (endpoint.refuse operation))) := by
  refine funext fun session => ?_
  suffices same : (Work.ofAction (do return outcome (← work))
      (endpoint.refuse operation)).run.run session =
      (do return outcome (← Work.ofAction work (endpoint.refuse operation))
        : Work β).run.run session from same
  rw [Work.run_ofAction, run_bind, run_bind, Work.run_ofAction]
  rcases work.run.run session with ⟨fault | value, after⟩
  · dsimp only
    rw [run_refuse, run_refuse]
  · rfl

theorem work_eq (endpoint : Endpoint) (request : Request) :
    endpoint.work request = endpoint.prepare request >>= endpoint.conclude := by
  cases endpoint with
  | saveTemplates | saveWorkflow | listWorkflows | fetchWorkflow | deleteWorkflow
  | markWorkflowRun =>
    simp only [work, prepare, bind_assoc, pure_bind, conclude, Operation.on, ofAction_refuse]
    rfl
  | updateWorkflow id =>
    -- What is checked before the store is asked depends on the changes, so they are told apart first.
    simp only [work, prepare, bind_assoc]
    refine bind_congr fun body => bind_congr fun store => bind_congr fun changes => ?_
    rw [Work.updateWorkflow]
    cases changes.graph <;>
      simp only [bind_assoc, pure_bind, conclude, Operation.on, ofAction_refuse] <;> rfl
  | sampleTemplates | health => rfl
  | compile | render =>
    simp only [prepare, bind_assoc, pure_bind, conclude, bind_pure]

variable {endpoint : Endpoint} {request : Request} {session after : Session}

theorem answer_of_refused {refusal : Refusal}
    (prepared : (endpoint.prepare request).run.run session = (.error refusal, after)) :
    endpoint.answer request session = (refusal.answer, after) := by
  rw [answer, work_eq, run_bind, prepared]

theorem answer_of_answered {value : Json}
    (prepared : (endpoint.prepare request).run.run session = (.ok (.answered value), after)) :
    endpoint.answer request session = (.ofJson value, after) := by
  rw [answer, work_eq, run_bind, prepared]
  rfl

theorem answer_of_asks {store : Store} {operation : Operation}
    (prepared : (endpoint.prepare request).run.run session = (.ok (.asks store operation), after)) :
    endpoint.answer request session =
      match (operation.on store).run.run after with
      | (.ok outcome, last) =>
        (.ofJson (endpoint.told outcome), last.log (endpoint.successEvents outcome))
      | (.error fault, last) => ((endpoint.refusal operation fault).answer,
        last.log (endpoint.failureEvents operation fault)) := by
  rw [answer, work_eq, run_bind, prepared]
  dsimp only
  rw [conclude, run_bind, Work.run_ofAction]
  rcases (operation.on store).run.run after with ⟨fault | outcome, last⟩
  · dsimp only
    rw [run_refuse]
  · dsimp only
    rw [run_report]

end Endpoint

end ReplyFlow
