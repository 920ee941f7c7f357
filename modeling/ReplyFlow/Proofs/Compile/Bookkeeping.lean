import Mathlib.Data.List.Nodup
import ReplyFlow.Compile.Bench
import ReplyFlow.Proofs.Sequence

/-! The entries of a bench stay in step, whatever is done at it.

What can fail in an operation comes before the first entry is changed, so that it does either all
that it should or nothing.
-/

set_option autoImplicit false

namespace ReplyFlow

namespace Bench

variable {α : Type}

/-- What can be asked of a bench. -/
inductive Step (α : Type) where
  | addNode (id : String) (kind : NodeKind) (position : Position α) (payload : Payload)
  | connect (source target : String) (label : Option String)
  | ensureEnd (position : Position α)
  | markVisited (template : Int) (id : String)
  | build

def Step.edge? : Step α → Option Edge
  | connect source target label => some ⟨edgeName source target, source, target, label⟩
  | _ => none

def counted (bench : Bench α) : Bench α :=
  { bench with
    report.nodeCount := bench.nodes.length
    report.edgeCount := bench.edges.length }

def endNode (position : Position α) : Node α :=
  ⟨StepName.finish.text, .finish, position, .marker "End" false none, @rfl _ PayloadKind.marker⟩

variable [Coordinate α]

def Step.perform : Step α → Work α Unit
  | addNode id kind position payload => do
    let _ ← Bench.addNode id kind position payload
  | connect source target label => do
    let _ ← Bench.connect source target label
  | ensureEnd position => do
    let _ ← Bench.ensureEnd position
  | markVisited template id => Bench.markVisited template id
  | build => do
    let _ ← Bench.build

/-- The bench after some more steps, of which any may have failed. -/
def after (bench : Bench α) (steps : List (Step α)) : Bench α :=
  steps.foldl (fun bench step => (step.perform.run.run bench).2) bench

def placed (bench : Bench α) (node : Node α) : Bench α :=
  { bench with toDraft := bench.toDraft.push node, ids := bench.ids.insert node.id }

/-! ### What one step does -/

/-- All that a step can come to: what it reports, and the bench that it leaves. -/
inductive Does (bench : Bench α) : Step α → Except Draft.Fault Unit → Bench α → Prop where
  | taken {id : String} {kind : NodeKind} {position : Position α} {payload : Payload} :
    id ∈ bench.ids → Does bench (.addNode id kind position payload) (.error (.taken id)) bench
  | misfit {id : String} {kind : NodeKind} {position : Position α} {payload : Payload} :
    id ∉ bench.ids → payload.kind ≠ kind.payloadKind →
    Does bench (.addNode id kind position payload) (.error (.misfit id kind payload.kind)) bench
  | added (node : Node α) : node.id ∉ bench.ids →
    Does bench (.addNode node.id node.kind node.position node.payload) (.ok ()) (bench.placed node)
  | connected (edge : Edge) : edge.id = edgeName edge.source edge.target →
    Does bench (.connect edge.source edge.target edge.label) (.ok ())
      { bench with edges := bench.edges ++ [edge] }
  | ended {id : String} {position : Position α} : bench.finish = some id →
    Does bench (.ensureEnd position) (.ok ()) bench
  | endTaken {position : Position α} : bench.finish = none → StepName.finish.text ∈ bench.ids →
    Does bench (.ensureEnd position) (.error (.taken StepName.finish.text)) bench
  | endAdded {position : Position α} : bench.finish = none → StepName.finish.text ∉ bench.ids →
    Does bench (.ensureEnd position) (.ok ())
      { bench.placed (endNode position) with finish := some StepName.finish.text }
  | visited {template : Int} {id : String} :
    Does bench (.markVisited template id) (.ok ())
      { bench with toDraft := bench.toDraft.markVisited template id }
  | built : Does bench .build (.ok ()) bench.counted

variable (bench : Bench α)

theorem run_addNode_taken {id : String} (taken : id ∈ bench.ids) (kind : NodeKind)
    (position : Position α) (payload : Payload) :
    (addNode id kind position payload).run.run bench = (.error (.taken id), bench) := by
  rw [addNode, run_get_bind, if_pos (List.contains_iff_mem.mpr taken)]
  rfl

theorem run_addNode_new {id : String} (new : id ∉ bench.ids) (kind : NodeKind)
    (position : Position α) (payload : Payload) :
    (addNode id kind position payload).run.run bench =
      if fits : payload.kind = kind.payloadKind then
        (.ok ⟨id, kind, position, payload, fits⟩, bench.placed ⟨id, kind, position, payload, fits⟩)
      else (.error (.misfit id kind payload.kind), bench) := by
  rw [addNode, run_get_bind, if_neg (mt List.contains_iff_mem.mp new), run_bind, assemble]
  by_cases fits : payload.kind = kind.payloadKind
  · rw [dif_pos fits, dif_pos fits]
    rfl
  · rw [dif_neg fits, dif_neg fits]
    rfl

theorem run_ensureEnd_set {id : String} (set : bench.finish = some id) (position : Position α) :
    (ensureEnd position).run.run bench = (.ok id, bench) := by
  rw [ensureEnd, run_get_bind, set]
  rfl

theorem run_ensureEnd_taken (unset : bench.finish = none)
    (taken : StepName.finish.text ∈ bench.ids) (position : Position α) :
    (ensureEnd position).run.run bench = (.error (.taken StepName.finish.text), bench) := by
  rw [ensureEnd, run_get_bind, unset]
  change StateT.run (ExceptT.run (_ >>= _)) bench = _
  rw [run_bind, run_addNode_taken bench taken]

theorem run_ensureEnd_new (unset : bench.finish = none)
    (new : StepName.finish.text ∉ bench.ids) (position : Position α) :
    (ensureEnd position).run.run bench =
      (.ok StepName.finish.text,
        { bench.placed (endNode position) with finish := some StepName.finish.text }) := by
  rw [ensureEnd, run_get_bind, unset]
  change StateT.run (ExceptT.run (_ >>= _)) bench = _
  rw [run_bind, run_addNode_new bench new]
  rfl

theorem does_perform (step : Step α) :
    bench.Does step (step.perform.run.run bench).1 (step.perform.run.run bench).2 := by
  cases step with
  | addNode id kind position payload =>
    rw [Step.perform, run_bind]
    by_cases taken : id ∈ bench.ids
    · rw [run_addNode_taken bench taken]
      exact .taken taken
    · rw [run_addNode_new bench taken]
      by_cases fits : payload.kind = kind.payloadKind
      · rw [dif_pos fits]
        exact .added ⟨id, kind, position, payload, fits⟩ taken
      · rw [dif_neg fits]
        exact .misfit taken fits
  | connect source target label =>
    exact .connected ⟨edgeName source target, source, target, label⟩ rfl
  | ensureEnd position =>
    rw [Step.perform, run_bind]
    cases finish : bench.finish with
    | some id =>
      rw [run_ensureEnd_set bench finish]
      exact .ended finish
    | none =>
      by_cases taken : StepName.finish.text ∈ bench.ids
      · rw [run_ensureEnd_taken bench finish taken]
        exact .endTaken finish taken
      · rw [run_ensureEnd_new bench finish taken]
        exact .endAdded finish taken
  | markVisited template id => exact .visited
  | build => exact .built

/-! ### What every step keeps -/

/-- The entries of a bench say the same. -/
structure InStep (bench : Bench α) : Prop where
  distinct : (bench.nodes.map Node.id).Nodup
  ids : ∀ id, id ∈ bench.ids ↔ id ∈ bench.nodes.map Node.id
  once : bench.ids.Nodup
  taken : ∀ node ∈ bench.nodes, node.position.slot ∈ bench.occupied ∨
    ∃ slot ∈ bench.occupied, node.position.slot == slot
  used : ∀ slot ∈ bench.occupied, ∃ node ∈ bench.nodes, node.position.slot = slot
  apart : bench.occupied.Pairwise fun earlier later => ¬ later == earlier
  finish : ∀ id, bench.finish = some id →
    id = StepName.finish.text ∧ ∃ node ∈ bench.nodes, node.id = id ∧ node.kind = .finish

theorem exists_beq_insert (occupied : List (Slot α)) (slot : Slot α) :
    slot ∈ Slot.insert occupied slot ∨ ∃ other ∈ Slot.insert occupied slot, slot == other := by
  unfold Slot.insert
  split
  · next present => exact .inr (List.contains_iff_exists_mem_beq.mp present)
  · exact .inl (List.mem_append_right _ List.mem_cons_self)

theorem mem_insert_of_mem {occupied : List (Slot α)} {other : Slot α} (member : other ∈ occupied)
    (slot : Slot α) : other ∈ Slot.insert occupied slot := by
  unfold Slot.insert
  split
  · exact member
  · exact List.mem_append_left _ member

theorem mem_or_eq_of_mem_insert {occupied : List (Slot α)} {slot other : Slot α}
    (member : other ∈ Slot.insert occupied slot) : other ∈ occupied ∨ slot = other := by
  unfold Slot.insert at member
  split at member
  · exact .inl member
  · exact (List.mem_append.mp member).imp_right fun last => (List.mem_singleton.mp last).symm

theorem pairwise_insert {occupied : List (Slot α)}
    (apart : occupied.Pairwise fun earlier later => ¬ later == earlier) (slot : Slot α) :
    (Slot.insert occupied slot).Pairwise fun earlier later => ¬ later == earlier := by
  unfold Slot.insert
  split
  · exact apart
  · next absent =>
    refine List.pairwise_append.mpr ⟨apart, List.pairwise_singleton _ _, ?_⟩
    intro earlier member later last same
    rw [List.mem_singleton.mp last] at same
    exact absent (List.contains_iff_exists_mem_beq.mpr ⟨earlier, member, same⟩)

variable {bench : Bench α}

theorem inStep_empty : (empty : Bench α).InStep where
  distinct := .nil
  ids _ := Iff.rfl
  once := .nil
  taken _ member := nomatch member
  used _ member := nomatch member
  apart := .nil
  finish _ set := nomatch set

theorem InStep.placed (inStep : bench.InStep) {node : Node α} (new : node.id ∉ bench.ids) :
    (bench.placed node).InStep where
  distinct := by
    have absent := mt (inStep.ids node.id).mpr new
    change ((bench.nodes ++ [node]).map Node.id).Nodup
    rw [List.map_append, List.map_singleton, ← List.concat_eq_append]
    exact List.Nodup.concat absent inStep.distinct
  ids id := by
    change id ∈ bench.ids.insert node.id ↔ id ∈ (bench.nodes ++ [node]).map Node.id
    rw [List.mem_insert_iff, inStep.ids, List.map_append, List.mem_append, or_comm]
    simp
  once := List.Nodup.insert inStep.once
  taken other member := by
    rcases List.mem_append.mp member with before | last
    · exact (inStep.taken other before).imp (mem_insert_of_mem · _)
        fun ⟨slot, present, same⟩ => ⟨slot, mem_insert_of_mem present _, same⟩
    · rw [List.mem_singleton.mp last]
      exact exists_beq_insert bench.occupied node.position.slot
  used slot member := by
    rcases mem_or_eq_of_mem_insert member with before | same
    · obtain ⟨other, present, same⟩ := inStep.used slot before
      exact ⟨other, List.mem_append_left _ present, same⟩
    · exact ⟨node, List.mem_append_right _ List.mem_cons_self, same⟩
  apart := pairwise_insert inStep.apart node.position.slot
  finish id set := by
    obtain ⟨named, other, present, ends⟩ := inStep.finish id set
    exact ⟨named, other, List.mem_append_left _ present, ends⟩

theorem InStep.ended (inStep : bench.InStep) {node : Node α} (present : node ∈ bench.nodes)
    (named : node.id = StepName.finish.text) (ends : node.kind = .finish) :
    { bench with finish := some StepName.finish.text : Bench α }.InStep where
  distinct := inStep.distinct
  ids := inStep.ids
  once := inStep.once
  taken := inStep.taken
  used := inStep.used
  apart := inStep.apart
  finish id set := by
    cases set
    exact ⟨rfl, node, present, named, ends⟩

theorem Does.inStep {step : Step α} {result : Except Draft.Fault Unit} {next : Bench α}
    (does : bench.Does step result next) (inStep : bench.InStep) : next.InStep := by
  cases does with
  | taken | misfit | ended | endTaken => exact inStep
  | added node new => exact inStep.placed new
  -- the end is noted only after its node has been added
  | endAdded unset new =>
    exact (inStep.placed new).ended (List.mem_append_right _ List.mem_cons_self) rfl rfl
  | connected | visited | built =>
    exact ⟨inStep.distinct, inStep.ids, inStep.once, inStep.taken, inStep.used, inStep.apart,
      inStep.finish⟩

/-- Nodes and the shared end are never taken away, and edges come only from those who ask for
them. -/
theorem Does.grows {step : Step α} {result : Except Draft.Fault Unit} {next : Bench α}
    (does : bench.Does step result next) :
    bench.nodes <+: next.nodes ∧ (∀ id, bench.finish = some id → next.finish = some id) ∧
      next.edges = bench.edges ++ step.edge?.toList := by
  cases does with
  | taken | misfit | ended | endTaken | visited | built =>
    exact ⟨List.prefix_rfl, fun _ set => set, (List.append_nil _).symm⟩
  | added node =>
    exact ⟨List.prefix_append _ _, fun _ set => set, (List.append_nil _).symm⟩
  | connected edge named =>
    refine ⟨List.prefix_rfl, fun _ set => set, ?_⟩
    rw [Step.edge?, ← named]
    rfl
  | endAdded unset =>
    refine ⟨List.prefix_append _ _, fun id set => ?_, (List.append_nil _).symm⟩
    rw [unset] at set
    cases set

theorem Does.eq_of_error {step : Step α} {fault : Draft.Fault} {next : Bench α}
    (does : bench.Does step (.error fault) next) : next = bench := by
  cases does with
  | taken | misfit | endTaken => rfl

/-! ### What every run keeps -/

theorem after_cons (bench : Bench α) (step : Step α) (steps : List (Step α)) :
    bench.after (step :: steps) = ((step.perform.run.run bench).2).after steps := rfl

theorem InStep.after (inStep : bench.InStep) (steps : List (Step α)) :
    (bench.after steps).InStep := by
  induction steps generalizing bench with
  | nil => exact inStep
  | cons step steps ih => exact ih ((bench.does_perform step).inStep inStep)

theorem grows_after (bench : Bench α) (steps : List (Step α)) :
    bench.nodes <+: (bench.after steps).nodes ∧
      (∀ id, bench.finish = some id → (bench.after steps).finish = some id) ∧
      (bench.after steps).edges = bench.edges ++ steps.filterMap Step.edge? := by
  induction steps generalizing bench with
  | nil => exact ⟨List.prefix_rfl, fun _ set => set, (List.append_nil _).symm⟩
  | cons step steps ih =>
    obtain ⟨nodes, finish, edges⟩ := (bench.does_perform step).grows
    obtain ⟨nodes', finish', edges'⟩ := ih (step.perform.run.run bench).2
    rw [after_cons]
    refine ⟨nodes.trans nodes', fun id set => finish' id (finish id set), ?_⟩
    rw [edges', edges, List.append_assoc]
    cases step <;> rfl

/-- Whatever is done at a bench, its entries stay in step and its edges are those that were asked
for; the shared end stays once it is there; a graph is handed over with its true counts; and a step
does all that it should or, if it fails, nothing. -/
theorem after_inStep (steps : List (Step α)) :
    let bench := (empty : Bench α).after steps
    bench.InStep ∧
    bench.edges = steps.filterMap Step.edge? ∧
    (∀ id, bench.finish = some id →
      (∀ position, (ensureEnd position).run.run bench = (.ok id, bench)) ∧
      ∀ more, (bench.after more).finish = some id ∧ bench.nodes <+: (bench.after more).nodes) ∧
    (build.run.run bench).1 = .ok ⟨bench.nodes, bench.edges⟩ ∧
    (build.run.run bench).2 =
      { bench with
        report.nodeCount := bench.nodes.length
        report.edgeCount := bench.edges.length } ∧
    ∀ step : Step α,
      bench.Does step (step.perform.run.run bench).1 (step.perform.run.run bench).2 ∧
      ∀ fault, (step.perform.run.run bench).1 = .error fault →
        (step.perform.run.run bench).2 = bench := by
  intro bench
  refine ⟨inStep_empty.after steps, (grows_after empty steps).2.2, fun id set => ⟨?_, ?_⟩, rfl, rfl,
    fun step => ⟨bench.does_perform step, fun fault failed => ?_⟩⟩
  · exact run_ensureEnd_set bench set
  · intro more
    obtain ⟨nodes, finish, _⟩ := grows_after bench more
    exact ⟨finish id set, nodes⟩
  · exact (failed ▸ bench.does_perform step).eq_of_error

/-! ### The draft of a bench -/

/-- What work at a bench comes to, as seen on its draft. -/
def drafted {β : Type} (outcome : Except Draft.Fault β × Bench α) :
    Except Draft.Fault (Draft α) :=
  outcome.1.map fun _ => outcome.2.toDraft

theorem InStep.hasNode_iff (inStep : bench.InStep) {id : String} :
    bench.toDraft.hasNode id ↔ id ∈ bench.ids := by
  rw [inStep.ids, Draft.hasNode, List.any_eq_true, List.mem_map]
  simp

theorem InStep.drafted_addNode (inStep : bench.InStep) (id : String) (kind : NodeKind)
    (position : Position α) (payload : Payload) :
    drafted ((addNode id kind position payload).run.run bench) =
      bench.toDraft.addNode id kind position payload := by
  rw [Draft.addNode]
  by_cases taken : id ∈ bench.ids
  · rw [run_addNode_taken bench taken, if_pos (inStep.hasNode_iff.mpr taken)]
    rfl
  · rw [run_addNode_new bench taken, if_neg (mt inStep.hasNode_iff.mp taken)]
    split <;> rfl

theorem InStep.drafted_ensureEnd (inStep : bench.InStep) (position : Position α) :
    drafted ((ensureEnd position).run.run bench) = bench.toDraft.ensureEnd position := by
  rw [Draft.ensureEnd]
  cases finish : bench.finish with
  | some id =>
    rw [run_ensureEnd_set bench finish]
    rfl
  | none =>
    rw [← inStep.drafted_addNode]
    by_cases taken : StepName.finish.text ∈ bench.ids
    · rw [run_ensureEnd_taken bench finish taken, run_addNode_taken bench taken]
      rfl
    · rw [run_ensureEnd_new bench finish taken, run_addNode_new bench taken]
      rfl

end Bench

end ReplyFlow
