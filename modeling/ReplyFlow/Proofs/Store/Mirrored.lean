import Mathlib.Data.List.Forall2
import ReplyFlow.Proofs.Store.Databases
import ReplyFlow.Proofs.Store.Rows

/-! Rows that hold the workflows of a memory, one by one and in the same order.

This is kept when a row is inserted, when some are updated or deleted, and when they are sorted; and
the rows that are found under an id hold what the memory has for it.
-/

set_option autoImplicit false

namespace ReplyFlow

open Schema Time

/-- Lists that go together are still together when each has been sorted by its own order. -/
theorem forall₂_mergeSort {α β : Type} {related : α → β → Prop} {before : α → α → Bool}
    {earlier : β → β → Bool} {first : List α} {second : List β}
    (same : ∀ a b x y, related a x → related b y → before a b = earlier x y)
    (together : List.Forall₂ related first second) :
    List.Forall₂ related (first.mergeSort before) (second.mergeSort earlier) := by
  obtain ⟨lengths, pairs⟩ := List.forall₂_iff_zip.mp together
  -- Both sorted lists are halves of one sorted list of pairs, so they stay together.
  let order (p q : α × β) : Bool := before p.1 q.1
  have left : ((first.zip second).mergeSort order).map Prod.fst = first.mergeSort before := by
    rw [List.map_mergeSort (s := before) fun _ _ _ _ => rfl,
      List.map_fst_zip (Nat.le_of_eq lengths)]
  have right : ((first.zip second).mergeSort order).map Prod.snd = second.mergeSort earlier := by
    rw [List.map_mergeSort fun p inside q within => same _ _ _ _ (pairs inside) (pairs within),
      List.map_snd_zip (Nat.le_of_eq lengths.symm)]
  rw [← left, ← right, List.forall₂_map_left_iff, List.forall₂_map_right_iff, List.forall₂_same]
  exact fun p member => pairs (List.mem_mergeSort.mp member)

/-- At most one item on each side, in whatever order. -/
theorem forall₂_toList_of_perm {α β : Type} {related : α → β → Prop} {first found : List α}
    {second : Option β} (together : List.Forall₂ related first second.toList)
    (same : found.Perm first) : List.Forall₂ related found second.toList := by
  cases second with
  | none =>
    rw [Option.toList_none, List.forall₂_nil_right_iff] at together
    rw [together, List.perm_nil] at same
    exact same ▸ .nil
  | some workflow =>
    rw [Option.toList_some, List.forall₂_cons_right_iff] at together
    obtain ⟨item, others, pair, none, only⟩ := together
    rw [List.forall₂_nil_right_iff] at none
    rw [only, none, List.perm_singleton] at same
    exact same ▸ .cons pair .nil

namespace Memory

variable {memory : Memory} {id : String} {change : Workflow → Workflow}

theorem Distinct.eq_of_get? {old workflow : Workflow} (distinct : memory.Distinct)
    (found : memory.get? id = some old) (member : workflow ∈ memory.workflows)
    (own : workflow.id = id) : old = workflow := by
  have again : memory.get? id = some workflow := distinct.get?_eq_some_iff.mpr ⟨member, own⟩
  exact Option.some.inj (found.symm.trans again)

theorem Distinct.filter_eq (distinct : memory.Distinct) (id : String) :
    memory.workflows.filter (·.id == id) = (memory.get? id).toList := by
  obtain ⟨workflows⟩ := memory
  rw [Distinct] at distinct
  rw [get?]
  induction workflows with
  | nil => rfl
  | cons workflow rest ih =>
    rw [List.map_cons, List.nodup_cons] at distinct
    rw [List.filter_cons, List.find?_cons]
    cases same : workflow.id == id with
    | false => exact ih distinct.2
    | true =>
      have none (other : Workflow) (member : other ∈ rest) : ¬ other.id == id := by
        intro again
        rw [beq_iff_eq] at same again
        exact distinct.1 (List.mem_map.mpr ⟨other, member, again.trans same.symm⟩)
      simp [List.filter_eq_nil_iff.mpr none]

/-- The memory with the workflow of an id changed, if there is one. -/
def changed (memory : Memory) (id : String) (change : Workflow → Workflow) : Memory :=
  match memory.get? id with
  | some workflow => memory.put (change workflow)
  | none => memory

theorem Distinct.workflows_changed (distinct : memory.Distinct)
    (kept : ∀ workflow, (change workflow).id = workflow.id) :
    (memory.changed id change).workflows =
      memory.workflows.map fun workflow =>
        if workflow.id == id then change workflow else workflow := by
  rw [changed]
  cases found : memory.get? id with
  | none =>
    rw [get?, List.find?_eq_none] at found
    have same (workflow : Workflow) (member : workflow ∈ memory.workflows) :
        workflow = if workflow.id == id then change workflow else workflow :=
      (if_neg (found workflow member)).symm
    exact (List.map_id _).symm.trans (List.map_congr_left same)
  | some old =>
    have own : old.id = id := id_of_get? found
    have present : (memory.get? (change old).id).isSome := by
      rw [kept, own, found]
      rfl
    dsimp only
    rw [Memory.put, if_pos present]
    refine List.map_congr_left fun workflow member => ?_
    rw [kept, own]
    split
    · next same =>
      rw [distinct.eq_of_get? found member (beq_iff_eq.mp same)]
    · rfl

end Memory

/-- What a store that is kept in a table gives back as it was. -/
structure Workflow.Storable (settings : Checked Settings) (workflow : Workflow) : Prop where
  legible : workflow.Legible
  universal : workflow.createdAt.offset = some 0
  /-- An empty name is read as that of whom the settings name. -/
  creator : workflow.createdBy = "" → ∃ valid, settings = .ok valid ∧ valid.creator = ""

namespace Row

variable {row : Json.Members} {workflow : Workflow} {settings : Checked Settings}

theorem Shows.creator_eq (shows : Shows row workflow) (storable : workflow.Storable settings) :
    creator settings row = .ok (.text workflow.createdBy) := by
  have filled := filled?_text shows.createdBy
  cases empty : workflow.createdBy.isEmpty with
  | false =>
    rw [empty] at filled
    simp [creator, filled]
  | true =>
    rw [empty] at filled
    obtain ⟨valid, rfl, nobody⟩ := storable.creator (String.isEmpty_iff.mp empty)
    simp [creator, filled, nobody, String.isEmpty_iff.mp empty]

theorem Shows.hasId_eq (shows : Shows row workflow) (id : String) :
    hasId id row = (workflow.id == id) := by
  rw [hasId, shows.id]

/-- The row of a new workflow. -/
theorem shows_stored {id creator : String} {now : Timestamp} {entry : Entry}
    {stored : Json.Members} (new : Stored id (ofEntry now creator entry) stored) :
    Shows stored (.ofEntry id now creator entry) where
  id := new.id
  name := new.given _ _ (by decide) rfl
  description := new.given _ _ (by decide) rfl
  nodes := new.given _ _ (by decide) rfl
  edges := new.given _ _ (by decide) rfl
  status := new.given _ _ (by decide) rfl
  createdBy := new.given _ _ (by decide) rfl
  createdAt := new.given _ _ (by decide) rfl
  updatedAt := new.given _ _ (by decide) rfl
  lastRun := new.others _ (by decide) rfl

@[simp] theorem lookup_ofOption {β : Type} (name column : String) (encode : β → Json)
    (given : Option β) : (ofOption name encode given).lookup column =
      if column == name then given.map encode else none := by
  cases given with
  | none => simp [ofOption]
  | some value =>
    rw [ofOption, List.lookup_cons]
    cases column == name <;> rfl

namespace Merged

variable {changes merged : Json.Members} (new : Merged changes row merged) {column : String}

include new

theorem unchanged (absent : changes.lookup column = none) :
    merged.lookup column = row.lookup column := by
  rw [new, absent, Option.none_or]

theorem lookup_eq {β : Type} (encode : β → Json) {given : Option β} {old : β}
    (sets : changes.lookup column = given.map encode)
    (before : row.lookup column = some (encode old)) :
    merged.lookup column = some (encode (given.getD old)) := by
  rw [new, sets, before]
  cases given <;> rfl

end Merged

theorem lookup_ofChanges (now : Timestamp) (changes : Changes) (column : String) :
    (ofChanges now changes).lookup column =
      if column == "updated_at" then some (.text now.rowText)
      else if column == "name" then changes.name.map .text
      else if column == "description" then changes.description.map .text
      else if column == "status" then changes.status.map fun status => .text status.name
      else if column == "nodes" then changes.graph.map nodesText
      else if column == "connections" then changes.graph.map edgesText
      else none := by
  -- The fields stand one behind the other, each present or not, under names that all differ.
  simp only [ofChanges, List.cons_append, List.lookup_cons, List.lookup_append, lookup_ofOption]
  repeat' split
  all_goals simp_all

theorem Shows.update {merged : Json.Members} {now : Timestamp} {changes : Changes}
    (shows : Shows row workflow) (new : Merged (ofChanges now changes) row merged) :
    Shows merged (workflow.update now changes) where
  id := (new.unchanged (lookup_ofChanges ..)).trans shows.id
  name := new.lookup_eq .text (lookup_ofChanges ..) shows.name
  description := new.lookup_eq .text (lookup_ofChanges ..) shows.description
  nodes := new.lookup_eq nodesText (lookup_ofChanges ..) shows.nodes
  edges := new.lookup_eq edgesText (lookup_ofChanges ..) shows.edges
  status := new.lookup_eq (fun status : Status => .text status.name) (lookup_ofChanges ..)
    shows.status
  createdBy := (new.unchanged (lookup_ofChanges ..)).trans shows.createdBy
  createdAt := (new.unchanged (lookup_ofChanges ..)).trans shows.createdAt
  updatedAt := (new "updated_at").trans rfl
  lastRun := by
    rw [new.unchanged (lookup_ofChanges ..)]
    exact shows.lastRun

theorem Shows.markRun {merged : Json.Members} {now : Timestamp} (shows : Shows row workflow)
    (new : Merged (ofRun now) row merged) : Shows merged (workflow.markRun now) where
  id := (new.unchanged rfl).trans shows.id
  name := (new.unchanged rfl).trans shows.name
  description := (new.unchanged rfl).trans shows.description
  nodes := (new.unchanged rfl).trans shows.nodes
  edges := (new.unchanged rfl).trans shows.edges
  status := (new.unchanged rfl).trans shows.status
  createdBy := (new.unchanged rfl).trans shows.createdBy
  createdAt := (new.unchanged rfl).trans shows.createdAt
  updatedAt := (new.unchanged rfl).trans shows.updatedAt
  lastRun := by
    rw [new "last_run"]
    rfl

/-- The row shows a workflow that it gives back as it was. -/
structure Holds (settings : Checked Settings) (row : Json.Members) (workflow : Workflow) :
    Prop where
  shows : Shows row workflow
  storable : workflow.Storable settings

theorem Holds.read_eq (holds : Holds settings row workflow) :
    Table.readRow settings (.object row) = .ok workflow := by
  rw [Table.readRow, holds.shows.read_eq holds.storable.legible
    (holds.shows.creator_eq holds.storable)]
  rfl

theorem Holds.createdAt?_eq (holds : Holds settings row workflow) :
    createdAt? row = some workflow.createdAt.micros := by
  have read : moment (.text workflow.createdAt.rowText) = .ok workflow.createdAt :=
    holds.storable.legible.createdAt
  rw [createdAt?, holds.shows.createdAt]
  simp [read, Checked.toOption, instant, holds.storable.universal]

end Row

/-! ### What is read from the answers -/

namespace Table

variable {settings : Checked Settings} {rows : List Json.Members}

theorem listed_eq {workflows : List Workflow}
    (holds : List.Forall₂ (Row.Holds settings) rows workflows) :
    listed settings (.rows (rows.map .object)) = .ok workflows := by
  change (rows.map Json.object).mapM (readRow settings) = _
  induction holds with
  | nil => rfl
  | cons first _ ih =>
    rw [List.map_cons, List.mapM_cons, first.read_eq, ih]
    rfl

theorem saved_eq {row : Json.Members} {workflow : Workflow}
    (holds : Row.Holds settings row workflow) :
    saved settings (.rows [.object row]) = .ok workflow := by
  have filled : (Json.object row).isVacant = false := by
    cases row with
    | nil => cases holds.shows.id
    | cons => rfl
  change (if (Json.object row).isVacant then throw .nothingReturned
    else readRow settings (.object row) : Except StoreFault Workflow) = _
  rw [filled, holds.read_eq]
  rfl

theorem found_eq (id : String) {workflow? : Option Workflow}
    (holds : List.Forall₂ (Row.Holds settings) rows workflow?.toList) :
    found settings id (rows.map .object) = workflow?.elim (.error (.notFound id)) .ok := by
  cases workflow? with
  | none =>
    cases holds
    rfl
  | some workflow =>
    obtain _ | ⟨first, _⟩ := holds
    exact first.read_eq

end Table

/-! ### Rows and memories -/

/-- The rows hold the workflows of a memory. -/
structure Memory.MirroredBy (memory : Memory) (settings : Checked Settings)
    (rows : List Json.Members) : Prop where
  holds : List.Forall₂ (Row.Holds settings) rows memory.workflows
  distinct : memory.Distinct

namespace Memory.MirroredBy

variable {settings : Checked Settings} {rows found : List Json.Members} {memory : Memory}
  {id : String}

theorem empty : Memory.empty.MirroredBy settings [] :=
  ⟨.nil, distinct_empty⟩

variable (mirrored : memory.MirroredBy settings rows)

include mirrored

theorem list : List.Forall₂ (Row.Holds settings) (rows.mergeSort Row.notOlder) memory.list := by
  refine forall₂_mergeSort (fun a b x y first second => ?_) mirrored.holds
  rw [Row.notOlder, first.createdAt?_eq, second.createdAt?_eq]

theorem filter (id : String) : List.Forall₂ (Row.Holds settings) (rows.filter (Row.hasId id))
    (memory.get? id).toList := by
  rw [← mirrored.distinct.filter_eq]
  refine List.rel_filter (fun row workflow holds => ?_) mirrored.holds
  exact iff_of_eq (congrArg (· = true) (holds.shows.hasId_eq id))

theorem absent (unused : memory.get? id = none) : ∀ row ∈ rows, Row.hasId id row = false := by
  have none := mirrored.filter id
  rw [unused, Option.toList_none, List.forall₂_nil_right_iff, List.filter_eq_nil_iff] at none
  exact fun row member => Bool.eq_false_iff.mpr (none row member)

theorem append {row : Json.Members} {workflow : Workflow} (holds : Row.Holds settings row workflow)
    (unused : memory.get? workflow.id = none) :
    (memory.put workflow).MirroredBy settings (rows ++ [row]) where
  holds := by
    have last : (memory.put workflow).workflows = memory.workflows ++ [workflow] := by
      rw [Memory.put, if_neg (by rw [unused]; exact Bool.false_ne_true)]
    rw [last]
    exact List.rel_append mirrored.holds (.cons holds .nil)
  distinct := mirrored.distinct.put workflow

theorem erase : (memory.erase id).MirroredBy settings (rows.filter (!Row.hasId id ·)) where
  holds := by
    refine List.rel_filter (fun row workflow holds => ?_) mirrored.holds
    refine iff_of_eq (congrArg (· = true) ?_)
    rw [holds.shows.hasId_eq]
    rfl
  distinct := mirrored.distinct.erase id

variable {merge : Json.Members → Json.Members} {change : Workflow → Workflow}
  (kept : ∀ workflow, (change workflow).id = workflow.id)
  (holds : ∀ row workflow, Row.Holds settings row workflow →
    Row.Holds settings (merge row) (change workflow))

include holds

theorem map_filter : List.Forall₂ (Row.Holds settings) ((rows.filter (Row.hasId id)).map merge)
    ((memory.get? id).map change).toList := by
  rw [Option.toList_map]
  exact List.rel_map (fun row workflow old => holds row workflow old) (mirrored.filter id)

include kept

theorem changed : (memory.changed id change).MirroredBy settings
    (rows.map fun row => if Row.hasId id row then merge row else row) where
  holds := by
    rw [mirrored.distinct.workflows_changed kept]
    refine List.rel_map (fun row workflow old => ?_) mirrored.holds
    rw [old.shows.hasId_eq]
    split
    · exact holds row workflow old
    · exact old
  distinct := by
    rw [Memory.changed]
    cases memory.get? id with
    | none => exact mirrored.distinct
    | some workflow => exact mirrored.distinct.put _

end Memory.MirroredBy

end ReplyFlow
