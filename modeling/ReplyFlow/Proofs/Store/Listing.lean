import Mathlib.Data.List.Nodup
import ReplyFlow.Proofs.Store.Mirrored

/-! The list of all workflows, newest first.

Workflows are kept in the order in which they were saved, whatever becomes of them later, and
equally old ones stay in it when they are listed. None of this depends on the clock. Only where the
clock never goes back are workflows changed and run no earlier than they were made.
-/

set_option autoImplicit false

namespace ReplyFlow

open Time

/-- Sorted items are in order, and where the order would allow both they are as they were. -/
theorem pairwise_mergeSort_ties {α : Type} {before : α → α → Bool}
    (trans : ∀ a b c, before a b → before b c → before a c)
    (total : ∀ a b, before a b || before b a) (items : List α) :
    (items.mergeSort before).Pairwise fun first second =>
      before first second ∧ (before second first → [first, second].Sublist items) := by
  have places : items.Pairwise fun first second => [first, second].Sublist items :=
    List.pairwise_iff_forall_sublist.mpr id
  rw [List.pairwise_iff_getElem] at places
  -- Items with their places are never equal, so sorting leaves no choice between two of them.
  rw [← List.mergeSort_zipIdx, List.pairwise_map]
  have sorted := List.pairwise_mergeSort (List.zipIdxLE_trans trans) (List.zipIdxLE_total total)
    items.zipIdx
  have apart : (items.zipIdx.mergeSort (List.zipIdxLE before)).Pairwise fun p q => p.2 ≠ q.2 := by
    refine ((List.mergeSort_perm _ _).pairwise_iff fun other => other.symm).mpr ?_
    rw [← List.pairwise_map, List.zipIdx_map_snd]
    exact List.nodup_range'
  refine (sorted.and apart).imp_of_mem fun {p q} inside within ⟨ordered, other⟩ => ?_
  obtain ⟨first, i⟩ := p
  obtain ⟨second, j⟩ := q
  rw [List.mem_mergeSort, List.mem_zipIdx_iff_getElem?] at inside within
  obtain ⟨low, here⟩ := List.getElem?_eq_some_iff.mp inside
  obtain ⟨high, there⟩ := List.getElem?_eq_some_iff.mp within
  dsimp only at low high here there other ⊢
  subst here there
  rw [List.zipIdxLE] at ordered
  split at ordered
  · next forward =>
    refine ⟨forward, fun tie => places i j low high ?_⟩
    rw [if_pos tie, decide_eq_true_eq] at ordered
    exact Nat.lt_of_le_of_ne ordered other
  · cases ordered

/-! ### What one call does to the workflows that are kept -/

namespace Call

variable {memory : Memory} (call : Call)

/-- Only what a call gives back is new in the memory. -/
theorem mem_perform {workflow : Workflow} (member : workflow ∈ (call.perform memory).2.workflows) :
    workflow ∈ memory.workflows ∨
      (∃ creator entry,
        workflow = .ofEntry call.session.nextId call.session.time creator entry) ∨
      ∃ old ∈ memory.workflows, (∃ changes, workflow = old.update call.session.time changes) ∨
        workflow = old.markRun call.session.time := by
  obtain ⟨operation, session⟩ := call
  cases operation with
  | save entry =>
    rw [perform_save] at member
    split at member
    · next creator _ =>
      exact (Memory.mem_put member).imp_right fun new => .inl ⟨creator, entry, new⟩
    · exact .inl member
  | list => exact .inl member
  | fetch id =>
    rw [perform_fetch] at member
    split at member <;> exact .inl member
  | update id changes =>
    rw [perform_update] at member
    split at member
    · next old found =>
      exact (Memory.mem_put member).imp_right fun new =>
        .inr ⟨old, Memory.mem_of_get? found, .inl ⟨changes, new⟩⟩
    · exact .inl member
  | markRun id =>
    rw [perform_markRun] at member
    split at member
    · next old found =>
      exact (Memory.mem_put member).imp_right fun new =>
        .inr ⟨old, Memory.mem_of_get? found, .inr new⟩
    · exact .inl member
  | delete id =>
    rw [perform_delete] at member
    split at member
    · exact .inl (List.mem_of_mem_filter member)
    · exact .inl member

/-- A new workflow is the last one, and no other one changes its place. -/
theorem ids_perform (call : Call) (memory : Memory) :
    ((call.perform memory).2.workflows.map Workflow.id).Sublist
      (memory.workflows.map Workflow.id ++
        (Deed.mk call.operation (call.perform memory).1).saved?.toList.map Workflow.id) := by
  have ids_put {old new : Workflow} {id : String} (found : memory.get? id = some old)
      (same : new.id = old.id) :
      (memory.put new).workflows.map Workflow.id = memory.workflows.map Workflow.id := by
    rw [Memory.ids_put, same, Memory.id_of_get? found, found]
    rfl
  obtain ⟨operation, session⟩ := call
  cases operation with
  | save entry =>
    rw [perform_save]
    split
    · rw [Memory.ids_put]
      split
      · exact List.sublist_append_left _ _
      · exact .refl _
    · exact List.sublist_append_left _ _
  | list => exact List.sublist_append_left _ _
  | fetch id =>
    rw [perform_fetch]
    split <;> exact List.sublist_append_left _ _
  | update id changes =>
    rw [perform_update]
    split
    · next old found =>
      dsimp only
      rw [ids_put found (old.id_update session.time changes)]
      exact List.sublist_append_left _ _
    · exact List.sublist_append_left _ _
  | markRun id =>
    rw [perform_markRun]
    split
    · next old found =>
      dsimp only
      rw [ids_put found (old.id_markRun session.time)]
      exact List.sublist_append_left _ _
    · exact List.sublist_append_left _ _
  | delete id =>
    rw [perform_delete]
    split
    · exact (List.filter_sublist.map _).trans (List.sublist_append_left _ _)
    · exact List.sublist_append_left _ _

end Call

/-! ### Workflows in the order of saving -/

namespace Run

/-- What is kept has been saved in the order in which it is kept; the trace begins with the last
deed. -/
theorem ids_after (calls : List Call) :
    ((after calls).memory.workflows.map Workflow.id).Sublist
      ((after calls).trace.saves.map Workflow.id).reverse := by
  induction calls using List.reverseRecOn with
  | nil => exact .refl _
  | append_singleton calls call ih =>
    rw [after_append]
    refine (call.ids_perform (after calls).memory).trans ?_
    have saves : ((after calls).next call).trace.saves =
        (Deed.mk call.operation (call.perform (after calls).memory).1).saved?.toList ++
          (after calls).trace.saves := by
      change List.filterMap _ (_ :: (after calls).trace) = _
      rw [List.filterMap_cons]
      split <;> next known => rw [known]; rfl
    change List.Sublist _ (((after calls).next call).trace.saves.map Workflow.id).reverse
    rw [saves, List.map_append, List.reverse_append]
    refine ih.append ?_
    cases (Deed.mk call.operation (call.perform (after calls).memory).1).saved? <;> exact .refl _

end Run

/-- Both were saved, and the first one earlier. -/
def Trace.SavedBefore (trace : Trace) (first second : String) : Prop :=
  [second, first].Sublist (trace.saves.map Workflow.id)

/-- Of equally old workflows the one saved first comes first. -/
theorem Run.pairwise_list (calls : List Call) :
    (after calls).memory.list.Pairwise fun first second =>
      second.createdAt.micros < first.createdAt.micros ∨
        first.createdAt.micros = second.createdAt.micros ∧
          (after calls).trace.SavedBefore first.id second.id := by
  have trans (a b c : Workflow) (first : decide (b.createdAt.micros ≤ a.createdAt.micros) = true)
      (second : decide (c.createdAt.micros ≤ b.createdAt.micros) = true) :
      decide (c.createdAt.micros ≤ a.createdAt.micros) = true := by
    simp only [decide_eq_true_eq] at *
    omega
  have total (a b : Workflow) : (decide (b.createdAt.micros ≤ a.createdAt.micros) ||
      decide (a.createdAt.micros ≤ b.createdAt.micros)) = true := by
    simp only [Bool.or_eq_true, decide_eq_true_eq]
    omega
  refine (pairwise_mergeSort_ties trans total _).imp fun {first second} ⟨ordered, ties⟩ => ?_
  simp only [decide_eq_true_eq] at ordered ties
  rcases Int.lt_or_eq_of_le ordered with older | same
  · exact .inl older
  · have kept := (ties (Int.le_of_eq same.symm)).map Workflow.id
    refine .inr ⟨same.symm, List.reverse_sublist.mp ?_⟩
    exact kept.trans (ids_after calls)

/-! ### Places in the list -/

/-- At most one workflow is replaced, by one with the same id. -/
def Operation.Revises : Operation → Prop
  | update .. | markRun _ => True
  | save _ | list | fetch _ | delete _ => False

namespace Call

variable {memory : Memory} {call : Call}

/-- A workflow that is replaced is as old as before, so it keeps its place. -/
theorem ids_list_changed (distinct : memory.Distinct) (id : String) {change : Workflow → Workflow}
    (own : ∀ workflow, (change workflow).id = workflow.id)
    (age : ∀ workflow, (change workflow).createdAt = workflow.createdAt) :
    (memory.changed id change).list.map Workflow.id = memory.list.map Workflow.id := by
  let next (workflow : Workflow) := if workflow.id == id then change workflow else workflow
  have sameId (workflow : Workflow) : (next workflow).id = workflow.id := by
    dsimp only [next]
    split
    · exact own workflow
    · rfl
  have sameAge (workflow : Workflow) : (next workflow).createdAt = workflow.createdAt := by
    dsimp only [next]
    split
    · exact age workflow
    · rfl
  have sorted : (memory.changed id change).list = memory.list.map next := by
    rw [Memory.list, distinct.workflows_changed own]
    refine (List.map_mergeSort fun first _ second _ => ?_).symm
    rw [sameAge, sameAge]
  rw [sorted, List.map_map]
  exact List.map_congr_left fun workflow _ => sameId workflow

theorem ids_list_perform (distinct : memory.Distinct) (revises : call.operation.Revises) :
    (call.perform memory).2.list.map Workflow.id = memory.list.map Workflow.id := by
  obtain ⟨operation, session⟩ := call
  cases operation with
  | save | list | fetch | delete => cases revises
  | update id changes =>
    have after : ((Call.mk (.update id changes) session).perform memory).2 =
        memory.changed id (·.update session.time changes) := by
      rw [perform_update, Memory.changed]
      cases memory.get? id <;> rfl
    rw [after]
    exact ids_list_changed distinct id (fun _ => rfl) fun _ => rfl
  | markRun id =>
    have after : ((Call.mk (.markRun id) session).perform memory).2 =
        memory.changed id (·.markRun session.time) := by
      rw [perform_markRun, Memory.changed]
      cases memory.get? id <;> rfl
    rw [after]
    exact ids_list_changed distinct id (fun _ => rfl) fun _ => rfl

end Call

theorem Run.distinct_after (calls : List Call) : (after calls).memory.Distinct := by
  induction calls using List.reverseRecOn with
  | nil => exact Memory.distinct_empty
  | append_singleton calls call ih =>
    rw [after_append]
    exact call.distinct_perform ih

/-- However often workflows are replaced, the list shows them in the same places. -/
theorem Run.ids_list_after (calls : List Call) {revisions : List Call}
    (revise : ∀ call ∈ revisions, call.operation.Revises) :
    (after (calls ++ revisions)).memory.list.map Workflow.id =
      (after calls).memory.list.map Workflow.id := by
  induction revisions using List.reverseRecOn with
  | nil => rw [List.append_nil]
  | append_singleton revisions call ih =>
    have last := revise call (List.mem_append_right _ (List.mem_singleton_self call))
    have before := ih fun other member => revise other (List.mem_append_left _ member)
    rw [← List.append_assoc, after_append, ← before]
    exact Call.ids_list_perform (distinct_after _) last

/-! ### Moments -/

/-- All moments are shown by a clock of universal time. -/
structure Workflow.Universal (workflow : Workflow) : Prop where
  createdAt : workflow.createdAt.offset = some 0
  updatedAt : workflow.updatedAt.offset = some 0
  lastRun : ∀ moment ∈ workflow.lastRun, moment.offset = some 0

/-- It has been changed and run no earlier than it was made. -/
structure Workflow.Forward (workflow : Workflow) : Prop where
  updatedAt : workflow.createdAt.micros ≤ workflow.updatedAt.micros
  lastRun : ∀ moment ∈ workflow.lastRun, workflow.createdAt.micros ≤ moment.micros

/-- The clock never goes back from one call to a later one. -/
def Call.Steady (calls : List Call) : Prop :=
  calls.Pairwise fun earlier later => earlier.session.clock.micros ≤ later.session.clock.micros

instance (calls : List Call) : Decidable (Call.Steady calls) :=
  inferInstanceAs (Decidable (List.Pairwise _ _))

namespace Run

variable {calls : List Call}

theorem universal_after (calls : List Call) :
    ∀ workflow ∈ (after calls).memory.workflows, workflow.Universal := by
  induction calls using List.reverseRecOn with
  | nil => exact fun _ member => absurd member List.not_mem_nil
  | append_singleton calls call ih =>
    rw [after_append]
    intro workflow member
    rcases call.mem_perform member with kept | ⟨creator, entry, rfl⟩ | ⟨old, kept, revised⟩
    · exact ih workflow kept
    · exact ⟨rfl, rfl, nofun⟩
    · obtain ⟨createdAt, updatedAt, lastRun⟩ := ih old kept
      rcases revised with ⟨changes, rfl⟩ | rfl
      · exact ⟨createdAt, rfl, lastRun⟩
      · exact ⟨createdAt, updatedAt, by rintro _ ⟨⟩; rfl⟩

/-- A workflow was made by the clock of some call. -/
theorem exists_call_of_mem {workflow : Workflow}
    (member : workflow ∈ (after calls).memory.workflows) :
    ∃ call ∈ calls, workflow.createdAt = call.session.time := by
  induction calls using List.reverseRecOn generalizing workflow with
  | nil => cases member
  | append_singleton calls call ih =>
    rw [after_append] at member
    have earlier {old : Workflow} (kept : old ∈ (after calls).memory.workflows) :
        ∃ other ∈ calls ++ [call], old.createdAt = other.session.time :=
      (ih kept).imp fun _ known => ⟨List.mem_append_left _ known.1, known.2⟩
    rcases call.mem_perform member with kept | ⟨creator, entry, rfl⟩ | ⟨old, kept, revised⟩
    · exact earlier kept
    · exact ⟨call, List.mem_append_right _ (List.mem_singleton_self call), rfl⟩
    · have made := earlier kept
      rcases revised with ⟨changes, rfl⟩ | rfl <;> exact made

theorem forward_after (steady : Call.Steady calls) :
    ∀ workflow ∈ (after calls).memory.workflows, workflow.Forward := by
  induction calls using List.reverseRecOn with
  | nil => exact fun _ member => absurd member List.not_mem_nil
  | append_singleton calls call ih =>
    obtain ⟨before, -, last⟩ := List.pairwise_append.mp steady
    have past {old : Workflow} (kept : old ∈ (after calls).memory.workflows) :
        old.createdAt.micros ≤ call.session.time.micros := by
      obtain ⟨other, known, made⟩ := exists_call_of_mem kept
      rw [made]
      exact last other known call (List.mem_singleton_self call)
    rw [after_append]
    intro workflow member
    rcases call.mem_perform member with kept | ⟨creator, entry, rfl⟩ | ⟨old, kept, revised⟩
    · exact ih before workflow kept
    · exact ⟨Int.le_refl _, nofun⟩
    · obtain ⟨updatedAt, lastRun⟩ := ih before old kept
      have later := past kept
      rcases revised with ⟨changes, rfl⟩ | rfl
      · exact ⟨later, lastRun⟩
      · exact ⟨updatedAt, by rintro _ ⟨⟩; exact later⟩

end Run

/-! ### What is listed -/

/-- The workflows that were saved and not deleted since, each as it was left last: newest first, and
equally old ones as they were saved. -/
structure Trace.Lists (trace : Trace) (workflows : List Workflow) : Prop where
  once : (workflows.map Workflow.id).Nodup
  kept : ∀ id, id ∈ workflows.map Workflow.id ↔ trace.Saved id ∧ ¬ trace.Deleted id
  recalls : ∀ workflow ∈ workflows, trace.last? workflow.id = some workflow
  ordered : workflows.Pairwise fun first second =>
    second.createdAt.micros < first.createdAt.micros ∨
      first.createdAt.micros = second.createdAt.micros ∧ trace.SavedBefore first.id second.id
  universal : ∀ workflow ∈ workflows, workflow.Universal

theorem Run.lists_list {calls : List Call} (fresh : Call.Fresh calls) :
    (after calls).trace.Lists (after calls).memory.list := by
  have sound := sound_after fresh
  have found {workflow : Workflow} (member : workflow ∈ (after calls).memory.list) :
      (after calls).memory.get? workflow.id = some workflow :=
    sound.distinct.get?_eq_some_iff.mpr ⟨Memory.mem_list.mp member, rfl⟩
  constructor
  · exact ((List.mergeSort_perm _ _).map Workflow.id).nodup_iff.mpr sound.distinct
  · intro id
    have listed : id ∈ (after calls).memory.list.map Workflow.id ↔
        (after calls).memory.get? id ≠ none := by
      rw [List.mem_map, Option.ne_none_iff_exists']
      constructor
      · rintro ⟨workflow, member, rfl⟩
        exact ⟨workflow, found member⟩
      · rintro ⟨workflow, known⟩
        have member := Memory.mem_list.mpr (Memory.mem_of_get? known)
        exact ⟨workflow, member, Memory.id_of_get? known⟩
    rw [listed, ne_eq, (sound.fate id).eq_none_iff, not_or, not_not]
  · exact fun workflow member => (sound.recalls _).symm.trans (found member)
  · exact pairwise_list calls
  · exact fun workflow member => universal_after calls workflow (Memory.mem_list.mp member)

/-- The list shows what was saved and not deleted since, newest first and equally old ones as they
were saved, and an update or a run changes no place in it. This is so whatever the clock does; where
it never goes back, no workflow that is kept was changed or run before it was made. -/
theorem Run.lists_after {calls : List Call} (fresh : Call.Fresh calls) :
    (∀ session, (Call.mk .list session).perform (after calls).memory =
        (.ok (.workflows (after calls).memory.list), (after calls).memory)) ∧
      (after calls).trace.Lists (after calls).memory.list ∧
      (∀ revisions : List Call, (∀ call ∈ revisions, call.operation.Revises) →
        (after (calls ++ revisions)).memory.list.map Workflow.id =
          (after calls).memory.list.map Workflow.id) ∧
      (Call.Steady calls → ∀ workflow ∈ (after calls).memory.workflows, workflow.Forward) :=
  ⟨fun _ => rfl, lists_list fresh, fun _ revise => ids_list_after calls revise, forward_after⟩

namespace Samples

/-- Three of four workflows are saved at one time, and one of these is deleted. The oldest one is
renamed, and the last one is run. -/
def rota : List Call :=
  [⟨.save outreach, sessionAt 10 0⟩, ⟨.save outreach, sessionAt 20 1⟩,
    ⟨.save outreach, sessionAt 20 2⟩, ⟨.save outreach, sessionAt 20 3⟩,
    ⟨.delete (idOf 3), sessionAt 20 4⟩,
    ⟨.update (idOf 1) ⟨some "Renamed", none, none, none⟩, sessionAt 30 4⟩,
    ⟨.markRun (idOf 4), sessionAt 30 4⟩]

end Samples

theorem Run.lists_after_rota :
    Call.Fresh Samples.rota ∧ Call.Steady Samples.rota ∧
      (Run.after Samples.rota).trace.Lists (Run.after Samples.rota).memory.list ∧
      (Run.after (Samples.rota ++ [⟨.markRun (idOf 1), Samples.sessionAt 0 4⟩])).memory.list.map
          Workflow.id = (Run.after Samples.rota).memory.list.map Workflow.id ∧
      ∀ workflow ∈ (Run.after Samples.rota).memory.workflows, workflow.Forward := by
  have fresh : Call.Fresh Samples.rota := by decide +kernel
  have steady : Call.Steady Samples.rota := by decide +kernel
  obtain ⟨_, lists, places, forward⟩ := Run.lists_after fresh
  have revise : ∀ call ∈ [Call.mk (.markRun (idOf 1)) (Samples.sessionAt 0 4)],
      call.operation.Revises := by
    intro call member
    rw [List.mem_singleton.mp member]
    exact trivial
  exact ⟨fresh, steady, lists, places _ revise, forward steady⟩

end ReplyFlow
