import Mathlib.Data.List.Nodup
import Mathlib.Logic.Function.Basic
import ReplyFlow.Store.Memory

/-! A memory is a finite map from ids to workflows.

What is found under an id is all that counts for most operations; only the list of all workflows
depends on no id being kept twice.
-/

set_option autoImplicit false

namespace ReplyFlow.Memory

variable {memory : Memory} {workflow : Workflow} {id : String}

theorem id_of_get? (found : memory.get? id = some workflow) : workflow.id = id := by
  simpa using List.find?_some found

theorem mem_of_get? (found : memory.get? id = some workflow) : workflow ∈ memory.workflows :=
  List.mem_of_find?_eq_some found

/-- What a workflow becomes when another one is put in its place, if both have one id. -/
def replace (workflow other : Workflow) : Workflow :=
  if other.id == workflow.id then workflow else other

@[simp] theorem id_replace (workflow other : Workflow) : (replace workflow other).id = other.id := by
  unfold replace
  split
  · next same => exact (beq_iff_eq.mp same).symm
  · rfl

theorem get?_map_replace (memory : Memory) (workflow : Workflow) (id : String) :
    get? ⟨memory.workflows.map (replace workflow)⟩ id =
      (memory.get? id).map (replace workflow) := by
  rw [get?, List.find?_map]
  simp only [Function.comp_def, id_replace]
  rfl

theorem get?_put (memory : Memory) (workflow : Workflow) :
    (memory.put workflow).get? = Function.update memory.get? workflow.id (some workflow) := by
  funext id
  rw [put, Function.update_apply]
  by_cases present : (memory.get? workflow.id).isSome
  · rw [if_pos present]
    refine (get?_map_replace memory workflow id).trans ?_
    cases found : memory.get? id with
    | none =>
      have other : id ≠ workflow.id := by
        rintro rfl
        simp [found] at present
      rw [if_neg other, Option.map_none]
    | some kept => simp [replace, id_of_get? found, apply_ite some]
  · rw [if_neg present]
    rw [Option.not_isSome_iff_eq_none] at present
    refine List.find?_append.trans ?_
    change (memory.get? id).or _ = _
    split
    · next same => simp [same, present]
    · next other => simp [Ne.symm other]

theorem mem_put {other : Workflow} (member : other ∈ (memory.put workflow).workflows) :
    other ∈ memory.workflows ∨ other = workflow := by
  rw [put] at member
  split at member
  · obtain ⟨old, kept, rfl⟩ := List.mem_map.mp member
    split
    · exact .inr rfl
    · exact .inl kept
  · exact (List.mem_append.mp member).imp_right List.mem_singleton.mp

/-- What a memory becomes when it takes a workflow: this one is found under its id, and all others
as before. It stands in the place of the one with its id, or is the last. -/
structure Takes (memory : Memory) (workflow : Workflow) (next : Memory) : Prop where
  get?_eq : next.get? = Function.update memory.get? workflow.id (some workflow)
  ids : next.workflows.map Workflow.id =
    if (memory.get? workflow.id).isSome then memory.workflows.map Workflow.id
    else memory.workflows.map Workflow.id ++ [workflow.id]

theorem ids_put (memory : Memory) (workflow : Workflow) :
    (memory.put workflow).workflows.map Workflow.id =
      if (memory.get? workflow.id).isSome then memory.workflows.map Workflow.id
      else memory.workflows.map Workflow.id ++ [workflow.id] := by
  rw [put]
  split
  · change (memory.workflows.map (replace workflow)).map Workflow.id = _
    simp
  · exact List.map_append

theorem takes_put (memory : Memory) (workflow : Workflow) :
    memory.Takes workflow (memory.put workflow) :=
  ⟨get?_put memory workflow, ids_put memory workflow⟩

theorem get?_erase (memory : Memory) (erased : String) :
    (memory.erase erased).get? = Function.update memory.get? erased none := by
  funext id
  rw [erase, get?, List.find?_filter, Function.update_apply]
  split
  · next same => simp [same]
  · next other =>
    rw [get?]
    congr 1
    funext workflow
    by_cases own : workflow.id = id <;> simp [own, other]

/-- No id is kept twice. -/
def Distinct (memory : Memory) : Prop :=
  (memory.workflows.map Workflow.id).Nodup

theorem distinct_empty : empty.Distinct :=
  List.nodup_nil

theorem Distinct.put (distinct : memory.Distinct) (workflow : Workflow) :
    (memory.put workflow).Distinct := by
  rw [Distinct, ids_put]
  split
  · exact distinct
  · next absent =>
    rw [List.nodup_append]
    refine ⟨distinct, List.nodup_singleton _, fun id member last within same => absent ?_⟩
    obtain ⟨other, kept, rfl⟩ := List.mem_map.mp member
    rw [List.mem_singleton] at within
    rw [get?, List.find?_isSome]
    exact ⟨other, kept, beq_iff_eq.mpr (same.trans within)⟩

theorem Distinct.erase (distinct : memory.Distinct) (erased : String) :
    (memory.erase erased).Distinct :=
  distinct.sublist (List.filter_sublist.map Workflow.id)

theorem Distinct.get?_eq_some_iff (distinct : memory.Distinct) :
    memory.get? id = some workflow ↔ workflow ∈ memory.workflows ∧ workflow.id = id := by
  constructor
  · exact fun found => ⟨mem_of_get? found, id_of_get? found⟩
  · rintro ⟨member, rfl⟩
    have present : (memory.get? workflow.id).isSome :=
      List.find?_isSome.mpr ⟨workflow, member, beq_iff_eq.mpr rfl⟩
    obtain ⟨other, found⟩ := Option.isSome_iff_exists.mp present
    have same := List.inj_on_of_nodup_map distinct (mem_of_get? found) member (id_of_get? found)
    exact same ▸ found

theorem mem_list : workflow ∈ memory.list ↔ workflow ∈ memory.workflows :=
  List.mem_mergeSort

end ReplyFlow.Memory
