import Mathlib.Data.List.Induction
import ReplyFlow.Proofs.Store.Calls

/-! What a memory holds, told from the calls that were made.

A run is a series of calls of an empty memory. What it holds for an id is what the last deed that
concerns the id has left there: a save, an update or a mark of a run leaves a workflow, and a
deletion leaves nothing.
-/

set_option autoImplicit false

namespace ReplyFlow

/-- A call that was made, with what it gave back. -/
structure Deed where
  operation : Operation
  result : Except StoreFault Outcome

namespace Deed

/-- The workflow that a successful save has made. -/
def saved? (deed : Deed) : Option Workflow :=
  match deed.operation, deed.result with
  | .save _, .ok (.workflow workflow) => some workflow
  | _, _ => none

/-- The workflow that a successful save, update or mark of a run has left. -/
def left? (deed : Deed) : Option Workflow :=
  match deed.operation, deed.result with
  | .save _, .ok (.workflow workflow) => some workflow
  | .update .., .ok (.workflow workflow) => some workflow
  | .markRun _, .ok (.workflow workflow) => some workflow
  | _, _ => none

/-- The id of the workflow that has been deleted. -/
def deleted? (deed : Deed) : Option String :=
  match deed.operation, deed.result with
  | .delete id, .ok _ => some id
  | _, _ => none

end Deed

/-- Deeds, the last one first. -/
abbrev Trace := List Deed

namespace Trace

/-- The workflow of an id as the last deed that concerns the id has left it. -/
def last? (id : String) : Trace → Option Workflow
  | [] => none
  | deed :: earlier =>
    match deed.left?, deed.deleted? with
    | some workflow, _ => if id = workflow.id then some workflow else last? id earlier
    | none, some deleted => if id = deleted then none else last? id earlier
    | none, none => last? id earlier

/-- The workflows as they were saved. -/
def saves (trace : Trace) : List Workflow :=
  trace.filterMap Deed.saved?

def Saved (trace : Trace) (id : String) : Prop :=
  ∃ first ∈ trace.saves, first.id = id

def Deleted (trace : Trace) (id : String) : Prop :=
  id ∈ trace.filterMap Deed.deleted?

theorem mem_saves_cons {deed : Deed} {trace : Trace} {first : Workflow}
    (member : first ∈ trace.saves) : first ∈ Trace.saves (deed :: trace) :=
  ((List.sublist_cons_self deed trace).filterMap _).subset member

theorem saved_cons {deed : Deed} {trace : Trace} {id : String} :
    Trace.Saved (deed :: trace) id ↔
      (∃ new, deed.saved? = some new ∧ new.id = id) ∨ trace.Saved id := by
  cases known : deed.saved? <;> simp [Trace.Saved, Trace.saves, known]

theorem deleted_cons {deed : Deed} {trace : Trace} {id : String} :
    Trace.Deleted (deed :: trace) id ↔ deed.deleted? = some id ∨ trace.Deleted id := by
  cases known : deed.deleted? <;> simp [Trace.Deleted, known, eq_comm]

end Trace

/-- Both are one workflow, perhaps at different times. -/
structure Workflow.Continues (later earlier : Workflow) : Prop where
  id : later.id = earlier.id
  createdAt : later.createdAt = earlier.createdAt
  createdBy : later.createdBy = earlier.createdBy

theorem Workflow.Continues.refl (workflow : Workflow) : workflow.Continues workflow :=
  ⟨rfl, rfl, rfl⟩

theorem Workflow.Continues.symm {later earlier : Workflow} (continues : later.Continues earlier) :
    earlier.Continues later :=
  ⟨continues.id.symm, continues.createdAt.symm, continues.createdBy.symm⟩

theorem Workflow.Continues.trans {first second third : Workflow} (later : third.Continues second)
    (earlier : second.Continues first) : third.Continues first :=
  ⟨later.id.trans earlier.id, later.createdAt.trans earlier.createdAt,
    later.createdBy.trans earlier.createdBy⟩

/-- What a deed changes. -/
inductive Deed.Changes (deed : Deed) (before : Records) : Records → Prop where
  | nothing : deed.saved? = none → deed.left? = none → deed.deleted? = none →
    Changes deed before before
  | adds {id : String} {new : Workflow} : deed.saved? = some new → deed.left? = some new →
    deed.deleted? = none → before id = none → new.id = id →
    Changes deed before (Function.update before id (some new))
  | replaces {id : String} {old new : Workflow} : deed.saved? = none → deed.left? = some new →
    deed.deleted? = none → before id = some old → new.Continues old →
    Changes deed before (Function.update before id (some new))
  | removes {id : String} {old : Workflow} : deed.saved? = none → deed.left? = none →
    deed.deleted? = some id → before id = some old →
    Changes deed before (Function.update before id none)

theorem Deed.changes_of_does {session : Session} {before after : Records} {operation : Operation}
    {result : Except StoreFault Outcome} (does : operation.Does session before result after) :
    (Deed.mk operation result).Changes before after := by
  cases does with
  | saved _ fresh known =>
    subst known
    exact .adds rfl rfl rfl fresh rfl
  | unsaved => exact .nothing rfl rfl rfl
  | listed => exact .nothing rfl rfl rfl
  | fetched => exact .nothing rfl rfl rfl
  | updated found known =>
    subst known
    exact .replaces rfl rfl rfl found ⟨rfl, rfl, rfl⟩
  | marked found known =>
    subst known
    exact .replaces rfl rfl rfl found ⟨rfl, rfl, rfl⟩
  | deleted found => exact .removes rfl rfl rfl found
  | missing =>
    cases operation <;> exact .nothing rfl rfl rfl

theorem Operation.Does.missing_iff {session : Session} {before after : Records}
    {operation : Operation} {result : Except StoreFault Outcome} {id : String}
    (does : operation.Does session before result after) (target : operation.target? = some id) :
    result = .error (.notFound id) ↔ before id = none := by
  cases does with
  | saved | unsaved | listed => cases target
  | fetched found | updated found | marked found | deleted found =>
    cases target
    simp [found]
  | missing own absent =>
    cases own.symm.trans target
    simp [absent]

theorem Operation.Does.issued?_of_saved {session : Session} {before after : Records}
    {operation : Operation} {result : Except StoreFault Outcome} {new : Workflow}
    (does : operation.Does session before result after)
    (saved : (Deed.mk operation result).saved? = some new) :
    (Call.mk operation session).issued? = some new.id := by
  cases does with
  | saved _ _ known =>
    cases saved
    rw [known]
    rfl
  | missing => cases operation <;> cases saved
  | unsaved | listed | fetched | updated | marked | deleted => cases saved

namespace Trace

/-- An id is never saved, or its workflow is kept, or that one has been deleted for good. -/
inductive Fate (trace : Trace) (id : String) : Option Workflow → Prop where
  | unknown : ¬ trace.Saved id → ¬ trace.Deleted id → Fate trace id none
  | living {first workflow : Workflow} : first ∈ trace.saves → first.id = id →
    ¬ trace.Deleted id → workflow.Continues first → Fate trace id (some workflow)
  | deleted : trace.Saved id → trace.Deleted id → Fate trace id none

variable {trace : Trace} {deed : Deed} {before after : Records} {id : String}
  {found : Option Workflow}

theorem Fate.eq_none_iff (fate : trace.Fate id found) :
    found = none ↔ ¬ trace.Saved id ∨ trace.Deleted id := by
  cases fate with
  | unknown unsaved _ => simp [unsaved]
  | living member own alive _ => simp [alive, show trace.Saved id from ⟨_, member, own⟩]
  | deleted _ dead => simp [dead]

theorem Fate.saved_of_deleted (fate : trace.Fate id found) (dead : trace.Deleted id) :
    trace.Saved id := by
  cases fate with
  | unknown _ alive => exact absurd dead alive
  | living _ _ alive _ => exact absurd dead alive
  | deleted saved _ => exact saved

/-- A deed that concerns other ids only. -/
theorem Fate.cons_other (fate : trace.Fate id found)
    (saves : ∀ new, deed.saved? = some new → new.id ≠ id) (deletes : deed.deleted? ≠ some id) :
    Trace.Fate (deed :: trace) id found := by
  have saved : Trace.Saved (deed :: trace) id ↔ trace.Saved id := by
    rw [saved_cons]
    constructor
    · rintro (⟨new, known, own⟩ | old)
      · exact absurd own (saves new known)
      · exact old
    · exact .inr
  have gone : Trace.Deleted (deed :: trace) id ↔ trace.Deleted id := by
    rw [deleted_cons, or_iff_right deletes]
  cases fate with
  | unknown unsaved alive => exact .unknown (mt saved.mp unsaved) (mt gone.mp alive)
  | living member own alive continues =>
    exact .living (mem_saves_cons member) own (mt gone.mp alive) continues
  | deleted saves dead => exact .deleted (saved.mpr saves) (gone.mpr dead)

theorem Fate.cons (fate : ∀ id, trace.Fate id (before id)) (changes : deed.Changes before after)
    (fresh : ∀ new, deed.saved? = some new → ¬ trace.Saved new.id) (id : String) :
    Trace.Fate (deed :: trace) id (after id) := by
  have here := fate id
  cases changes with
  | nothing saves _ deletes => exact here.cons_other (by simp [saves]) (by simp [deletes])
  | @adds touched new saves _ deletes absent own =>
    rw [Function.update_apply]
    split
    · next same =>
      subst same own
      have member : new ∈ Trace.saves (deed :: trace) := by simp [Trace.saves, saves]
      have alive : ¬ Trace.Deleted (deed :: trace) new.id := by
        rw [deleted_cons, deletes, or_iff_right nofun]
        exact fun dead => fresh new saves (here.saved_of_deleted dead)
      exact .living member rfl alive (.refl new)
    · next other =>
      refine here.cons_other (fun workflow known same => other ?_) (by simp [deletes])
      cases saves.symm.trans known
      exact same.symm.trans own
  | @replaces touched old new saves _ deletes found continues =>
    rw [Function.update_apply]
    split
    · next same =>
      subst same
      rw [found] at here
      cases here with
      | living member own alive earlier =>
        refine .living (mem_saves_cons member) own ?_ (continues.trans earlier)
        rwa [deleted_cons, deletes, or_iff_right nofun]
    · exact here.cons_other (by simp [saves]) (by simp [deletes])
  | @removes touched old saves _ deletes found =>
    rw [Function.update_apply]
    split
    · next same =>
      subst same
      rw [found] at here
      cases here with
      | living member own _ _ =>
        exact .deleted ⟨_, mem_saves_cons member, own⟩ (deleted_cons.mpr (.inl deletes))
    · next other => exact here.cons_other (by simp [saves]) (by simp [deletes, Ne.symm other])

theorem last?_cons (recalls : ∀ id, before id = trace.last? id)
    (own : ∀ id workflow, before id = some workflow → workflow.id = id)
    (changes : deed.Changes before after) (id : String) :
    after id = last? id (deed :: trace) := by
  rw [last?]
  cases changes with
  | nothing _ leaves deletes => simp [leaves, deletes, recalls]
  | adds _ leaves _ _ same => simp [leaves, Function.update_apply, recalls, same]
  | replaces _ leaves _ found continues =>
    simp [leaves, Function.update_apply, recalls, continues.id, own _ _ found]
  | removes _ leaves deletes _ => simp [leaves, deletes, Function.update_apply, recalls]

theorem nodup_saves_cons (once : (trace.saves.map Workflow.id).Nodup)
    (fresh : ∀ new, deed.saved? = some new → ¬ trace.Saved new.id) :
    ((Trace.saves (deed :: trace)).map Workflow.id).Nodup := by
  cases saves : deed.saved? with
  | none => simpa [Trace.saves, saves] using once
  | some new =>
    have kept : Trace.saves (deed :: trace) = new :: trace.saves := by simp [Trace.saves, saves]
    rw [kept, List.map_cons, List.nodup_cons]
    exact ⟨fun member => fresh new saves (List.mem_map.mp member), once⟩

end Trace

/-! ### Runs -/

structure Run where
  memory : Memory
  trace : Trace

namespace Run

def next (run : Run) (call : Call) : Run :=
  ⟨(call.perform run.memory).2, ⟨call.operation, (call.perform run.memory).1⟩ :: run.trace⟩

/-- What a series of calls of an empty memory comes to. -/
def after (calls : List Call) : Run :=
  calls.foldl next ⟨.empty, []⟩

theorem after_append (earlier later : List Call) :
    after (earlier ++ later) = later.foldl next (after earlier) :=
  List.foldl_append

/-- What is known of a run in which these ids were given out, each only once. -/
structure Sound (run : Run) (issued : List String) : Prop where
  distinct : run.memory.Distinct
  recalls : ∀ id, run.memory.get? id = run.trace.last? id
  fate : ∀ id, run.trace.Fate id (run.memory.get? id)
  once : (run.trace.saves.map Workflow.id).Nodup
  issues : ∀ id, run.trace.Saved id → id ∈ issued

variable {run : Run} {issued : List String} {call : Call}

theorem Sound.unused (sound : run.Sound issued)
    (fresh : ∀ id, call.issued? = some id → id ∉ issued) (id : String)
    (given : call.issued? = some id) : run.memory.get? id = none := by
  have unsaved : ¬ run.trace.Saved id := fun saved => fresh id given (sound.issues id saved)
  exact (sound.fate id).eq_none_iff.mpr (.inl unsaved)

theorem Sound.does (sound : run.Sound issued)
    (fresh : ∀ id, call.issued? = some id → id ∉ issued) :
    call.operation.Does call.session run.memory.get? (call.perform run.memory).1
      (run.next call).memory.get? :=
  call.does_perform sound.distinct (sound.unused fresh)

theorem Sound.next (sound : run.Sound issued)
    (fresh : ∀ id, call.issued? = some id → id ∉ issued) :
    (run.next call).Sound (issued ++ call.issued?.toList) := by
  have does := sound.does fresh
  have changes := Deed.changes_of_does does
  have given (new : Workflow)
      (saved : (Deed.mk call.operation (call.perform run.memory).1).saved? = some new) :
      call.issued? = some new.id := does.issued?_of_saved saved
  have unsaved (new : Workflow)
      (saved : (Deed.mk call.operation (call.perform run.memory).1).saved? = some new) :
      ¬ run.trace.Saved new.id :=
    fun old => fresh _ (given new saved) (sound.issues _ old)
  exact {
    distinct := call.distinct_perform sound.distinct
    recalls := Trace.last?_cons sound.recalls (fun _ _ => Memory.id_of_get?) changes
    fate := Trace.Fate.cons sound.fate changes unsaved
    once := Trace.nodup_saves_cons sound.once unsaved
    issues := by
      intro id saved
      rw [List.mem_append]
      rcases Trace.saved_cons.mp saved with ⟨new, known, rfl⟩ | old
      · exact .inr (Option.mem_toList.mpr (given new known))
      · exact .inl (sound.issues id old) }

theorem sound_start : (after []).Sound [] where
  distinct := Memory.distinct_empty
  recalls _ := rfl
  fate id := .unknown (by simp [Trace.Saved, Trace.saves, after]) (by simp [Trace.Deleted, after])
  once := List.nodup_nil
  issues := by simp [Trace.Saved, Trace.saves, after]

end Run

/-- No id is given out twice. -/
def Call.Fresh (calls : List Call) : Prop :=
  (calls.filterMap Call.issued?).Nodup

instance (calls : List Call) : Decidable (Call.Fresh calls) :=
  inferInstanceAs (Decidable (List.Nodup _))

theorem Call.Fresh.of_append {earlier later : List Call} (fresh : Call.Fresh (earlier ++ later)) :
    Call.Fresh earlier := by
  rw [Call.Fresh, List.filterMap_append] at fresh
  exact (List.nodup_append.mp fresh).1

theorem Call.Fresh.last {calls : List Call} {call : Call} (fresh : Call.Fresh (calls ++ [call]))
    (id : String) (given : call.issued? = some id) : id ∉ calls.filterMap Call.issued? := by
  rw [Call.Fresh, List.filterMap_append, List.nodup_append] at fresh
  intro member
  exact fresh.2.2 id member id (by simp [given]) rfl

namespace Run

theorem sound_after {calls : List Call} (fresh : Call.Fresh calls) :
    (after calls).Sound (calls.filterMap Call.issued?) := by
  -- from the first call on: each one is made of the memory that the earlier ones have left
  induction calls using List.reverseRecOn with
  | nil => exact sound_start
  | append_singleton calls call ih =>
    rw [after_append, List.filterMap_append]
    have stepped := (ih fresh.of_append).next fresh.last
    cases given : call.issued? <;> simpa [given] using stepped

theorem suffix_trace (earlier later : List Call) :
    (after earlier).trace <:+ (after (earlier ++ later)).trace := by
  induction later using List.reverseRecOn with
  | nil => simp
  | append_singleton later call ih =>
    rw [← List.append_assoc, after_append (earlier ++ later)]
    exact ih.trans (List.suffix_cons _ _)

/-- What is found under one id at two moments is one workflow. -/
theorem continues {earlier later : List Call} (fresh : Call.Fresh (earlier ++ later)) {id : String}
    {old new : Workflow} (before : (after earlier).memory.get? id = some old)
    (now : (after (earlier ++ later)).memory.get? id = some new) : new.Continues old := by
  have past := (sound_after fresh.of_append).fate id
  have sound := sound_after fresh
  have present := sound.fate id
  rw [before] at past
  rw [now] at present
  cases past with
  | @living first _ member own _ earlierContinues =>
    cases present with
    | @living again _ memberAgain ownAgain _ laterContinues =>
      have kept := ((suffix_trace earlier later).sublist.filterMap Deed.saved?).subset member
      have same := List.inj_on_of_nodup_map sound.once memberAgain kept (ownAgain.trans own.symm)
      subst same
      exact laterContinues.trans earlierContinues.symm

end Run

/-- What a call comes to after some other ones. -/
structure Call.Refines (call : Call) (calls : List Call) : Prop where
  does : call.operation.Does call.session (Run.after calls).memory.get?
    (call.perform (Run.after calls).memory).1 (Run.after (calls ++ [call])).memory.get?
  recalls : ∀ id, (Run.after calls).memory.get? id = (Run.after calls).trace.last? id
  missing : ∀ id, call.operation.target? = some id →
    ((call.perform (Run.after calls).memory).1 = .error (.notFound id) ↔
      ¬ (Run.after calls).trace.Saved id ∨ (Run.after calls).trace.Deleted id)
  failed : ∀ fault, (call.perform (Run.after calls).memory).1 = .error fault →
    (Run.after (calls ++ [call])).memory = (Run.after calls).memory
  lasting : ∀ earlier later, calls = earlier ++ later → ∀ id old new,
    (Run.after earlier).memory.get? id = some old → (Run.after calls).memory.get? id = some new →
      new.id = old.id ∧ new.createdAt = old.createdAt ∧ new.createdBy = old.createdBy

/-- A store in memory is a map from ids to workflows, whatever is called and at whatever time, as
long as no id is given out twice. -/
theorem Call.refines {calls : List Call} {call : Call} (fresh : Call.Fresh (calls ++ [call])) :
    call.Refines calls := by
  have sound := Run.sound_after fresh.of_append
  have last : Run.after (calls ++ [call]) = (Run.after calls).next call :=
    Run.after_append calls [call]
  have does := sound.does fresh.last
  exact {
    does := last ▸ does
    recalls := sound.recalls
    missing := fun id target => by
      rw [does.missing_iff target]
      exact (sound.fate id).eq_none_iff
    failed := fun fault result => by
      rw [last]
      exact call.perform_of_error result
    lasting := by
      rintro earlier later rfl id old new before now
      have same := Run.continues fresh.of_append before now
      exact ⟨same.id, same.createdAt, same.createdBy⟩ }

namespace Samples

/-- A session at a time in microseconds, in which so many ids have been given out. -/
def sessionAt (micros : Int) (issued : Nat) : Session :=
  { Session.opening [] 0 none with clock := ⟨micros, 0⟩, issued := issued }

def outreach : Entry :=
  ⟨"Outreach", "", Graph.empty, .draft, some "HR"⟩

/-- Two workflows are saved, by a clock that goes backwards. The first one is renamed and run, and
the second one is deleted. -/
def visits : List Call :=
  [⟨.save outreach, sessionAt 50 0⟩, ⟨.save outreach, sessionAt 40 1⟩,
    ⟨.update (idOf 1) ⟨some "Renamed", none, none, none⟩, sessionAt 30 2⟩,
    ⟨.markRun (idOf 1), sessionAt 20 2⟩, ⟨.delete (idOf 2), sessionAt 10 2⟩]

example : (Run.after visits).memory.workflows =
    [⟨idOf 1, "Renamed", "", Graph.empty, .draft, ⟨50, some 0⟩, ⟨30, some 0⟩, "HR",
      some ⟨20, some 0⟩⟩] := by
  decide +kernel

end Samples

theorem Call.refines_visits :
    Call.Fresh (Samples.visits ++ [⟨.fetch (idOf 2), Samples.sessionAt 0 2⟩]) ∧
      Call.Refines ⟨.fetch (idOf 2), Samples.sessionAt 0 2⟩ Samples.visits := by
  have fresh : Call.Fresh (Samples.visits ++ [⟨.fetch (idOf 2), Samples.sessionAt 0 2⟩]) := by
    decide +kernel
  exact ⟨fresh, Call.refines fresh⟩

end ReplyFlow
