import ReplyFlow.Proofs.Compile.Fans

/-! What is drawn to the left of the canvas or above it.

Everything is drawn to the right of the start, and a row is only ever left downwards. Only the
branches of a message may start higher up than the message, so nothing reaches over the upper margin
unless the place of some branch beside its message does. If that place is taken, what takes it is
over the margin itself.
-/

set_option autoImplicit false

namespace ReplyFlow

variable {α : Type} [Coordinate α]

open Coordinate

/-! ### Rows below a row -/

/-- A row is so many rows below another one. -/
inductive Grid.Below (grid : Grid α) (row : α) : α → Prop where
  | same : Below grid row row
  | next {lower : α} : Below grid row lower → Below grid row (lower + grid.branchSpacing)

namespace Grid

variable {grid : Grid α} {row lower found : α} {columns : List α} {occupied : List (Slot α)}

theorem Below.trans (first : grid.Below row lower) (second : grid.Below lower found) :
    grid.Below row found := by
  induction second with
  | same => exact first
  | next _ ih => exact ih.next

theorem Below.keeps {p : α → Prop} (below : grid.Below row lower)
    (next : ∀ row, p row → p (row + grid.branchSpacing)) (start : p row) : p lower := by
  induction below with
  | same => exact start
  | next _ ih => exact next _ ih

theorem below_of_searchRow {rows : Nat}
    (success : grid.searchRow columns occupied rows row = some found) : grid.Below row found := by
  induction rows generalizing row with
  | zero => cases success
  | succ rows ih =>
    rw [searchRow] at success
    split at success
    · dsimp only at success
      split at success
      · cases success
      · exact Below.trans (.next .same) (ih success)
    · cases success
      exact .same

/-- A row is left only if it is taken. -/
theorem eq_or_isTaken_of_searchRow {rows : Nat}
    (success : grid.searchRow columns occupied rows row = some found) :
    found = row ∨ isTaken columns occupied row := by
  cases rows with
  | zero => cases success
  | succ rows =>
    rw [searchRow] at success
    split at success
    · next taken => exact .inr taken
    · exact .inl (Option.some.inj success).symm

/-- Coordinates that are not beyond the margin. Columns and rows lead away from it, and no two rows
with the same three decimals lie on both sides of it. -/
structure Margin (grid : Grid α) (Whole Inside : α → Prop) : Prop where
  zero : Inside (ofInt 0)
  origin : Inside grid.origin.x ∧ Inside grid.origin.y
  column : ∀ x, Inside x → Inside (x + grid.levelSpacing)
  level : ∀ x, Inside x → Inside (x + ofInt columnsPerLevel * grid.levelSpacing)
  row : ∀ y, Inside y → Inside (y + grid.branchSpacing)
  wholeOrigin : Whole grid.origin.y
  wholeRow : ∀ y, Whole y → Whole (y + grid.branchSpacing)
  wholeOffset : ∀ y (index count : Nat), Whole y → Whole (y + grid.spread index count)
  alike : ∀ first second, Whole first → Whole second → Inside first →
    toThousandth second == toThousandth first → Inside second

end Grid

theorem Coordinate.maximum_of_forall {p : α → Prop} {numbers : List α} (zero : p (ofInt 0))
    (all : ∀ x ∈ numbers, p x) : p (maximum numbers) := by
  cases numbers with
  | nil => exact zero
  | cons first rest =>
    obtain ⟨start, others⟩ := List.forall_mem_cons.mp all
    rw [maximum]
    induction rest generalizing first with
    | nil => exact start
    | cons second rest ih =>
      obtain ⟨next, others⟩ := List.forall_mem_cons.mp others
      rw [List.foldl_cons]
      have best : p (if lt first second then second else first) := by
        split
        · exact next
        · exact start
      exact ih _ (List.forall_mem_cons.mpr ⟨best, others⟩) best others

/-! ### Drafts -/

namespace Draft

variable {Whole Inside : α → Prop} {grid : Grid α} {draft middle drawn : Draft α}
  {fits more : Prop} {node : Node α} {row : α}

/-- Nothing is beyond the upper margin. -/
def Within (Inside : α → Prop) (draft : Draft α) : Prop :=
  ∀ node ∈ draft.nodes, Inside node.position.y

/-- Some node is on the row. -/
def Holds (draft : Draft α) (row : α) : Prop :=
  ∃ node ∈ draft.nodes, node.position.y = row

/-- Nothing is beyond the left margin, and only nodes take slots. -/
structure Tidy (Whole Inside : α → Prop) (draft : Draft α) : Prop where
  placed : ∀ node ∈ draft.nodes, Inside node.position.x ∧ Whole node.position.y
  taken : ∀ slot, draft.occupied.contains slot → ∃ node ∈ draft.nodes, slot == node.position.slot

/-- What is added to a draft reaches over the upper margin just if it does not fit. -/
structure Adds (Whole Inside : α → Prop) (draft drawn : Draft α) (fits : Prop) : Prop where
  tidy : drawn.Tidy Whole Inside
  nodes : draft.nodes ⊆ drawn.nodes
  within : drawn.Within Inside ↔ draft.Within Inside ∧ fits

theorem tidy_empty : (empty : Draft α).Tidy Whole Inside :=
  ⟨List.forall_mem_nil _, nofun⟩

theorem Tidy.adds (tidy : draft.Tidy Whole Inside) : draft.Adds Whole Inside draft True :=
  ⟨tidy, List.Subset.refl _, (iff_of_eq (and_true _)).symm⟩

theorem Adds.trans (first : draft.Adds Whole Inside middle fits)
    (second : middle.Adds Whole Inside drawn more) :
    draft.Adds Whole Inside drawn (fits ∧ more) where
  tidy := second.tidy
  nodes := List.Subset.trans first.nodes second.nodes
  within := by rw [second.within, first.within, and_assoc]

theorem Adds.congr (adds : draft.Adds Whole Inside drawn fits) (same : fits ↔ more) :
    draft.Adds Whole Inside drawn more :=
  ⟨adds.tidy, adds.nodes, adds.within.trans (and_congr_right' same)⟩

/-- Only nodes and slots count. -/
theorem Adds.of_eq {other : Draft α} (adds : draft.Adds Whole Inside drawn fits)
    (nodes : other.nodes = drawn.nodes) (occupied : other.occupied = drawn.occupied) :
    draft.Adds Whole Inside other fits where
  tidy := ⟨nodes ▸ adds.tidy.placed, by rw [nodes, occupied]; exact adds.tidy.taken⟩
  nodes := nodes ▸ adds.nodes
  within := by
    rw [Within, nodes]
    exact adds.within

theorem Adds.link (adds : draft.Adds Whole Inside drawn fits) (source target : StepName)
    (label : Option String) :
    draft.Adds Whole Inside (Compiler.link source target label drawn) fits :=
  adds.of_eq rfl rfl

theorem holds_push (draft : Draft α) (node : Node α) : (draft.push node).Holds node.position.y :=
  ⟨node, List.mem_append_right _ List.mem_cons_self, rfl⟩

/-- A place from which the drawing goes on. -/
structure Anchor (Inside : α → Prop) (draft : Draft α) (position : Position α) : Prop where
  column : Inside position.x
  row : draft.Holds position.y

theorem Anchor.adds {position : Position α} (anchor : draft.Anchor Inside position)
    (adds : draft.Adds Whole Inside drawn fits) : drawn.Anchor Inside position where
  column := anchor.column
  row := by
    obtain ⟨node, member, same⟩ := anchor.row
    exact ⟨node, adds.nodes member, same⟩

theorem Tidy.push (tidy : draft.Tidy Whole Inside)
    (placed : Inside node.position.x ∧ Whole node.position.y) :
    (draft.push node).Tidy Whole Inside where
  placed := List.forall_mem_append.mpr ⟨tidy.placed, List.forall_mem_singleton.mpr placed⟩
  taken slot present := by
    rw [Draft.push, Slot.contains_insert, Bool.or_eq_true, Bool.and_eq_true] at present
    rcases present with old | ⟨_, new⟩
    · obtain ⟨other, member, same⟩ := tidy.taken slot old
      exact ⟨other, List.mem_append_left _ member, same⟩
    · exact ⟨node, List.mem_append_right _ List.mem_cons_self, new⟩

theorem Tidy.adds_push (tidy : draft.Tidy Whole Inside)
    (placed : Inside node.position.x ∧ Whole node.position.y)
    (same : draft.Within Inside → (Inside node.position.y ↔ fits)) :
    draft.Adds Whole Inside (draft.push node) fits where
  tidy := tidy.push placed
  nodes := List.subset_append_left _ _
  within := by
    rw [Within, Draft.push, List.forall_mem_append, List.forall_mem_singleton]
    exact and_congr_right same

variable (margin : grid.Margin Whole Inside)
include margin

/-- What takes a row beyond the margin is beyond it, too. -/
theorem inside_freeRow (tidy : draft.Tidy Whole Inside) (whole : Whole row) {columns : List α}
    {found : α} (success : grid.freeRow? row columns draft.occupied = some found)
    (within : draft.Within Inside) : Inside found ↔ Inside row := by
  constructor
  · intro inside
    rcases Grid.eq_or_isTaken_of_searchRow success with rfl | taken
    · exact inside
    · obtain ⟨x, _, present⟩ := List.any_eq_true.mp taken
      obtain ⟨node, member, same⟩ := tidy.taken _ present
      exact margin.alike _ _ (tidy.placed node member).2 whole (within node member)
        (Slot.beq_iff.mp same).2
  · exact (Grid.below_of_searchRow success).keeps margin.row

end Draft

/-! ### Drawing -/

namespace Compiler

variable {Whole Inside : α → Prop} {compiler : Compiler α} {draft : Draft α}
  {parent : Position α}

theorem yields_lowered (wanted : Position α) (draft : Draft α) :
    Yields (fun position => position.x = wanted.x ∧ compiler.grid.Below wanted.y position.y)
      (compiler.place wanted draft) := by
  rw [place]
  split
  · next position found =>
    obtain ⟨row, searched, rfl⟩ := Option.map_eq_some_iff.mp found
    exact .value ⟨rfl, Grid.below_of_searchRow searched⟩
  · exact .fault

variable (margin : compiler.grid.Margin Whole Inside) (tidy : draft.Tidy Whole Inside)
include margin tidy

/-- A node at or below a place of the draft is no more beyond the margin than the draft is. -/
theorem adds_of_below {wanted : Position α} (anchor : draft.Anchor Inside wanted) {node : Node α}
    (placed : node.position.x = wanted.x ∧ compiler.grid.Below wanted.y node.position.y) :
    draft.Adds Whole Inside (draft.push node) True := by
  obtain ⟨column, other, member, same⟩ := anchor
  obtain ⟨beside, below⟩ := placed
  rw [← same] at below
  refine tidy.adds_push ⟨beside ▸ column, ?_⟩ fun within => iff_true_intro ?_
  · exact below.keeps margin.wholeRow (tidy.placed other member).2
  · exact below.keeps margin.row (within other member)

theorem yields_adds_drawEnd {position : Position α} (anchor : draft.Anchor Inside position) :
    Yields (fun drawn => draft.Adds Whole Inside drawn True)
      (compiler.drawEnd position draft) := by
  rw [drawEnd]
  split
  · exact .value tidy.adds
  · next unknown =>
    have beside : draft.Anchor Inside (compiler.grid.endPosition position) :=
      ⟨margin.column _ anchor.column, anchor.row⟩
    apply (yields_lowered _ draft).bind
    intro position lowered
    rw [Draft.ensureEnd, unknown]
    cases added :
      draft.addNode StepName.finish.text .finish position (.marker "End" false none) with
    | error => exact .fault
    | ok drawn =>
      obtain ⟨node, -, rfl, rfl⟩ := Draft.exists_node_of_addNode added
      exact .value ((adds_of_below margin tidy beside lowered).of_eq rfl rfl)

theorem yields_adds_drawMessage (template : Template) {wanted : Position α}
    (anchor : draft.Anchor Inside wanted) :
    Yields (fun drawn => draft.Adds Whole Inside drawn.1 True ∧ drawn.1.Anchor Inside drawn.2 ∧
        Stands drawn.1.nodes (.message template.id) drawn.2)
      (compiler.drawMessage template wanted draft) := by
  apply (yields_lowered wanted draft).bind
  intro position lowered
  apply Yields.bind (yields_add (.message template.id) .message position _ _)
  rintro _ ⟨node, named, rfl, rfl⟩
  have adds := adds_of_below margin tidy anchor lowered
  have column : Inside node.position.x := lowered.1 ▸ anchor.column
  exact .value ⟨adds.of_eq rfl rfl, ⟨column, Draft.holds_push _ node⟩, node,
    List.mem_append_right _ List.mem_cons_self, named, rfl⟩

/-- A branch reaches over the margin just if its place beside the message does. -/
theorem yields_adds_drawBranch (owner : Template) (anchor : draft.Anchor Inside parent)
    (index count : Nat) (response : Response) :
    Yields (fun drawn =>
        draft.Adds Whole Inside drawn.1
          (Inside (compiler.grid.conditionPosition parent index count).y) ∧
        drawn.1.Anchor Inside drawn.2)
      (compiler.drawBranch owner parent index count response draft) := by
  rw [drawBranch]
  split
  · exact .fault
  · next row found =>
    obtain ⟨column, other, member, same⟩ := anchor
    have beside := margin.column _ column
    have behind := margin.column _ beside
    have whole : Whole (compiler.grid.conditionPosition parent index count).y :=
      margin.wholeOffset _ index count (same ▸ (tidy.placed other member).2)
    have lowered := Grid.below_of_searchRow found
    have fits := Draft.inside_freeRow margin tidy whole found
    apply Yields.bind (yields_add (.condition owner.id index) .condition _ _ draft)
    rintro _ ⟨condition, -, conditionPlace, rfl⟩
    apply yields_delayPayload.bind
    intro payload _
    apply Yields.bind (yields_add (.delay owner.id index) .delay _ _ _)
    rintro _ ⟨delay, -, delayPlace, rfl⟩
    have first : draft.Adds Whole Inside (draft.push condition)
        (Inside (compiler.grid.conditionPosition parent index count).y) := by
      apply tidy.adds_push <;> rw [conditionPlace]
      · exact ⟨beside, lowered.keeps margin.wholeRow whole⟩
      · exact fits
    -- the delay is beside the condition, so it adds nothing above it
    have height : condition.position.y = delay.position.y := by rw [conditionPlace, delayPlace]
    have column : Inside delay.position.x := by
      rw [delayPlace]
      exact behind
    have level : (draft.push condition).Holds delay.position.y :=
      height ▸ Draft.holds_push draft condition
    have second := adds_of_below margin first.tidy ⟨column, level⟩ ⟨rfl, .same⟩
    have drawn := (first.trans second).congr (iff_of_eq (and_true _))
    rw [← delayPlace]
    exact .value ⟨drawn.of_eq rfl rfl, column, Draft.holds_push _ delay⟩

theorem yields_adds_drawEnding (owner : Template) (column : Inside parent.x) (index : Nat)
    {delay : Position α} (anchor : draft.Anchor Inside delay) (ending : Ending) :
    Yields (fun drawn => draft.Adds Whole Inside drawn True)
      (compiler.drawEnding owner parent index delay ending draft) := by
  cases ending with
  | finish =>
    apply (yields_adds_drawEnd margin tidy anchor).bind
    intro ended adds
    exact .value (adds.link _ _ _)
  | back target => exact .value (tidy.adds.link _ _ _)
  | cut target =>
    have beyond : draft.Anchor Inside (compiler.grid.childPosition parent delay.y) :=
      ⟨margin.level _ column, anchor.row⟩
    apply (yields_lowered _ draft).bind
    intro position lowered
    apply Yields.bind (yields_add (.continuation owner.id index) .finish position _ draft)
    rintro _ ⟨node, -, rfl, rfl⟩
    exact .value ((adds_of_below margin tidy beyond lowered).link _ _ _)

theorem yields_adds_closeMessage (template : Template) {position : Position α}
    (anchor : draft.Anchor Inside position) (branches : Branches) :
    Yields (fun drawn => draft.Adds Whole Inside drawn True)
      (compiler.closeMessage template position branches draft) := by
  cases branches with
  | done =>
    apply (yields_adds_drawEnd margin tidy anchor).bind
    intro ended adds
    exact .value (adds.link _ _ _)
  | stop | into => exact .value tidy.adds

end Compiler

/-! ### Messages with their branches -/

/-- A message that has been drawn, with the number of its branches. -/
structure Offer (α : Type) where
  template : Int
  position : Position α
  count : Nat

/-- The places of the branches beside the message are inside. -/
def Offer.Fits (Inside : α → Prop) (grid : Grid α) (offer : Offer α) : Prop :=
  ∀ place < offer.count, Inside (grid.conditionPosition offer.position place offer.count).y

theorem Offer.fits_iff {Inside : α → Prop} {grid : Grid α} {template : Int} {position : Position α}
    {count : Nat} :
    Offer.Fits Inside grid ⟨template, position, count⟩ ↔ ∀ place, 0 ≤ place → place < 0 + count →
      Inside (grid.conditionPosition position place count).y := by
  simp [Offer.Fits]

/-- The messages of some scenes where they have been drawn. -/
structure Offers (nodes : List (Node α)) (scenes : List Scene)
    (offers : List (Offer α)) : Prop where
  keys : offers.map (fun offer => (offer.template, offer.count)) =
    scenes.map fun scene => (scene.owner.id, scene.turns.length)
  stand : ∀ offer ∈ offers, Stands nodes (.message offer.template) offer.position

section

variable {nodes more : List (Node α)} {first second : List Scene} {offers others : List (Offer α)}

omit [Coordinate α]

theorem offers_nil : Offers nodes [] [] :=
  ⟨rfl, List.forall_mem_nil _⟩

theorem Offers.mono (shown : Offers nodes first offers) (grown : nodes ⊆ more) :
    Offers more first offers :=
  ⟨shown.keys, fun offer member => (shown.stand offer member).mono grown⟩

theorem Offers.append (shown : Offers nodes first offers) (later : Offers nodes second others) :
    Offers nodes (first ++ second) (offers ++ others) where
  keys := by rw [List.map_append, List.map_append, shown.keys, later.keys]
  stand := List.forall_mem_append.mpr ⟨shown.stand, later.stand⟩

theorem Offers.cons {template : Template} {position : Position α} {tree : Branches}
    (message : Stands nodes (.message template.id) position)
    (shown : Offers nodes first offers) :
    Offers nodes (⟨template, tree.turns⟩ :: first)
      (⟨template.id, position, tree.length⟩ :: offers) where
  keys := by
    rw [List.map_cons, List.map_cons, shown.keys, tree.length_turns]
  stand := List.forall_mem_cons.mpr ⟨message, shown.stand⟩

theorem forall_from_succ {p : Nat → Prop} (index count : Nat) :
    (∀ place, index ≤ place → place < index + (count + 1) → p place) ↔
      p index ∧ ∀ place, index + 1 ≤ place → place < index + 1 + count → p place := by
  constructor
  · exact fun all => ⟨all index (Nat.le_refl _) (by omega),
      fun place above below => all place (by omega) (by omega)⟩
  · rintro ⟨first, others⟩ place above below
    rcases above.eq_or_lt with rfl | later
    · exact first
    · exact others place later (by omega)

end

namespace Compiler

variable {Whole Inside : α → Prop} {compiler : Compiler α} {draft : Draft α}
  {parent : Position α}

/-- What is drawn for the branches from number `index` on is inside just if these branches fit, and
those of all messages that follow. -/
theorem yields_adds_drawBranches (margin : compiler.grid.Margin Whole Inside) (owner : Template)
    (count index : Nat) (branches : Branches) (tidy : draft.Tidy Whole Inside)
    (anchor : draft.Anchor Inside parent) :
    Yields (fun drawn => ∃ offers, Offers drawn.nodes branches.scenes offers ∧
        draft.Adds Whole Inside drawn
          ((∀ place, index ≤ place → place < index + branches.length →
            Inside (compiler.grid.conditionPosition parent place count).y) ∧
          ∀ offer ∈ offers, offer.Fits Inside compiler.grid))
      (compiler.drawBranches owner parent count index branches draft) := by
  -- on the tree, for every draft, as what a branch leads to is drawn before the next one is placed
  induction branches generalizing owner parent count index draft with
  | done =>
    refine .value ⟨[], offers_nil, tidy.adds.congr (iff_of_true trivial ?_)⟩
    exact ⟨fun place above below => absurd below (not_lt.mpr above), List.forall_mem_nil _⟩
  | stop response ending rest ih =>
    apply (yields_adds_drawBranch margin tidy owner anchor index count response).bind
    rintro ⟨branched, delay⟩ ⟨branchAdds, delayAnchor⟩
    apply (yields_adds_drawEnding margin branchAdds.tidy owner anchor.column index delayAnchor
      ending).bind
    intro ended endAdds
    have still := (anchor.adds branchAdds).adds endAdds
    apply (ih owner count (index + 1) endAdds.tidy still).imp
    rintro drawn ⟨offers, shown, adds⟩
    refine ⟨offers, shown, ((branchAdds.trans endAdds).trans adds).congr ?_⟩
    rw [Branches.length, forall_from_succ]
    tauto
  | into response child inside rest insideIH restIH =>
    apply (yields_adds_drawBranch margin tidy owner anchor index count response).bind
    rintro ⟨branched, delay⟩ ⟨branchAdds, delayAnchor⟩
    have beyond : branched.Anchor Inside (compiler.grid.childPosition parent delay.y) :=
      ⟨margin.level _ anchor.column, delayAnchor.row⟩
    apply (yields_adds_drawMessage margin branchAdds.tidy child beyond).bind
    rintro ⟨messaged, position⟩ ⟨messageAdds, messageAnchor, message⟩
    apply (insideIH child inside.length 0 messageAdds.tidy messageAnchor).bind
    rintro followed ⟨offers, shown, insideAdds⟩
    apply (yields_adds_closeMessage margin insideAdds.tidy child
      (messageAnchor.adds insideAdds) inside).bind
    intro closed closeAdds
    have linked := closeAdds.link (.delay owner.id index) (.message child.id) none
    have still := (((anchor.adds branchAdds).adds messageAdds).adds insideAdds).adds linked
    apply (restIH owner count (index + 1) linked.tidy still).imp
    rintro drawn ⟨others, later, restAdds⟩
    -- the message of the child and those below it are still there when the other branches are drawn
    have grown := List.Subset.trans linked.nodes restAdds.nodes
    have stands := message.mono (List.Subset.trans insideAdds.nodes grown)
    refine ⟨⟨child.id, position, inside.length⟩ :: offers ++ others,
      ((shown.mono grown).cons stands).append later,
      ((((branchAdds.trans messageAdds).trans insideAdds).trans linked).trans restAdds).congr ?_⟩
    rw [Branches.length, forall_from_succ, List.cons_append, List.forall_mem_cons,
      List.forall_mem_append]
    rw [Offer.fits_iff]
    tauto

section

variable (margin : compiler.grid.Margin Whole Inside)
include margin

theorem yields_adds_drawStart :
    Yields (fun drawn => Draft.empty.Adds Whole Inside drawn True ∧
        drawn.Anchor Inside compiler.grid.origin)
      compiler.drawStart := by
  apply (yields_add .start .start compiler.grid.startPosition _ Draft.empty).imp
  rintro _ ⟨node, -, same, rfl⟩
  have place : node.position = compiler.grid.origin := same
  constructor
  · apply Draft.tidy_empty.adds_push <;> rw [place]
    · exact ⟨margin.origin.1, margin.wholeOrigin⟩
    · exact fun _ => iff_true_intro margin.origin.2
  · rw [← place]
    exact ⟨place ▸ margin.origin.1, Draft.holds_push _ node⟩

theorem yields_adds_drawOpen (expansion : Expansion) :
    Yields (fun drawn => drawn.Anchor Inside compiler.grid.origin ∧
        ∃ offers, Offers drawn.nodes expansion.scenes offers ∧
          Draft.empty.Adds Whole Inside drawn (∀ offer ∈ offers, offer.Fits Inside compiler.grid))
      (compiler.drawOpen expansion) := by
  apply (yields_adds_drawStart margin).bind
  rintro started ⟨startAdds, startAnchor⟩
  have linked := startAdds.link .start (.message expansion.first.id) none
  have origin : (link .start (.message expansion.first.id) none started).Anchor Inside
      compiler.grid.origin := ⟨startAnchor.column, startAnchor.row⟩
  have first : (link .start (.message expansion.first.id) none started).Anchor Inside
      compiler.grid.firstPosition := ⟨margin.column _ origin.column, origin.row⟩
  apply (yields_adds_drawMessage margin linked.tidy expansion.first first).bind
  rintro ⟨messaged, position⟩ ⟨messageAdds, messageAnchor, message⟩
  apply (yields_adds_drawBranches margin expansion.first _ 0 expansion.branches messageAdds.tidy
    messageAnchor).bind
  rintro followed ⟨offers, shown, insideAdds⟩
  apply (yields_adds_closeMessage margin insideAdds.tidy expansion.first
    (messageAnchor.adds insideAdds) expansion.branches).imp
  intro closed closeAdds
  refine ⟨?_, _, (shown.mono closeAdds.nodes).cons (message.mono
    (List.Subset.trans insideAdds.nodes closeAdds.nodes)), ?_⟩
  · exact ((origin.adds messageAdds).adds insideAdds).adds closeAdds
  · refine (((linked.trans messageAdds).trans insideAdds).trans closeAdds).congr ?_
    rw [List.forall_mem_cons, Offer.fits_iff]
    tauto

/-- An end that is drawn last is beside all the rest, on the row of the start. -/
theorem yields_adds_draw (expansion : Expansion) :
    Yields (fun drawn => ∃ offers, Offers drawn.nodes expansion.scenes offers ∧
        Draft.empty.Adds Whole Inside drawn (∀ offer ∈ offers, offer.Fits Inside compiler.grid))
      (compiler.draw expansion) := by
  apply (yields_adds_drawOpen margin expansion).bind
  rintro opened ⟨anchor, offers, shown, openAdds⟩
  have last : opened.Anchor Inside ⟨opened.maxX, compiler.grid.origin.y⟩ := by
    refine ⟨maximum_of_forall margin.zero fun x member => ?_, anchor.row⟩
    obtain ⟨node, present, rfl⟩ := List.mem_map.mp member
    exact (openAdds.tidy.placed node present).1
  apply (yields_adds_drawEnd margin openAdds.tidy last).imp
  intro drawn endAdds
  exact ⟨offers, shown.mono endAdds.nodes, (openAdds.trans endAdds).congr (iff_of_eq (and_true _))⟩

theorem yields_adds_drawNothing :
    Yields (fun drawn => Draft.empty.Adds Whole Inside drawn True) compiler.drawNothing := by
  apply (yields_adds_drawStart margin).bind
  rintro started ⟨startAdds, startAnchor⟩
  apply (yields_adds_drawEnd margin startAdds.tidy startAnchor).bind
  intro ended endAdds
  exact .value (((startAdds.trans endAdds).congr (iff_of_eq (and_true _))).link _ _ _)

end

end Compiler

namespace Draft

variable {Whole Inside : α → Prop} {drawn : Draft α} {fits : Prop}

theorem Adds.within_iff (adds : empty.Adds Whole Inside drawn fits) :
    drawn.Within Inside ↔ fits := by
  have none : (empty : Draft α).Within Inside := List.forall_mem_nil _
  rw [adds.within, and_iff_right none]

end Draft

/-- The places of all branches beside the messages of a graph are inside. -/
def Graph.Fits (Inside : α → Prop) (graph : Graph α) (grid : Grid α) (rules : Rules)
    (templates : List Template) : Prop :=
  ∀ template ∈ graph.templates templates, ∀ message,
    graph.place? (.message template.id) = some message →
      ∀ place < (rules.kept templates template).length,
        Inside (grid.conditionPosition message place (rules.kept templates template).length).y

namespace Compiler

variable {Whole Inside : α → Prop} {compiler : Compiler α} {templates : List Template}
  {compilation : Compilation α} {first : Template} {others : List Template}

theorem fits_iff (compiled : compiler.compile templates = .ok compilation)
    (selected : (compiler.rules.select templates).templates = first :: others)
    {offers : List (Offer α)} (shown : Offers compilation.graph.nodes
      (compiler.rules.expand (first :: others) first).scenes offers) :
    (∀ offer ∈ offers, offer.Fits Inside compiler.grid) ↔
      compilation.graph.Fits Inside compiler.grid compiler.rules (first :: others) := by
  have drawn := shows_plan compiled
  rw [selected] at drawn
  have distinct := drawn.nodup_ids (compiler.rules.sound_plan _).distinct
  have placed {offer : Offer α} (member : offer ∈ offers) :=
    Graph.place?_of_stands distinct (shown.stand offer member)
  rw [Graph.Fits, templates_eq compiled selected, List.forall_mem_map]
  constructor
  · intro fits scene member message found
    have key := List.mem_map_of_mem (f := fun scene => (scene.owner.id, scene.turns.length)) member
    rw [← shown.keys] at key
    obtain ⟨offer, present, same⟩ := List.mem_map.mp key
    obtain ⟨template, count⟩ := Prod.mk.inj same
    have position := placed present
    rw [template, found] at position
    rw [Rules.length_kept member, ← count, Option.some.inj position]
    exact fits offer present
  · intro fits offer present
    have key := List.mem_map_of_mem (f := fun offer => (offer.template, offer.count)) present
    rw [shown.keys] at key
    obtain ⟨scene, member, same⟩ := List.mem_map.mp key
    obtain ⟨template, count⟩ := Prod.mk.inj same
    have fit := fits scene member offer.position (template ▸ placed present)
    rw [Rules.length_kept member, count] at fit
    exact fit

/-- Nothing reaches over the left margin, and something over the upper one just if the place of some
branch does. -/
theorem compile_inside (margin : compiler.grid.Margin Whole Inside)
    (compiled : compiler.compile templates = .ok compilation) :
    (∀ node ∈ compilation.graph.nodes, Inside node.position.x) ∧
      ((∀ node ∈ compilation.graph.nodes, Inside node.position.y) ↔
        compilation.graph.Fits Inside compiler.grid compiler.rules
          (compiler.rules.select templates).templates) := by
  cases selected : (compiler.rules.select templates).templates with
  | nil =>
    obtain ⟨draft, result, rfl⟩ := exists_drawn compiled
    rw [selected] at result
    have drawing := yields_adds_drawNothing margin
    have nothing : compiler.drawNothing = .ok draft := result
    rw [nothing] at drawing
    cases drawing with
    | value adds =>
      refine ⟨fun node member => (adds.tidy.placed node member).1, adds.within_iff.trans ?_⟩
      refine iff_of_true trivial fun template entered => ?_
      obtain ⟨_, _, found⟩ := List.mem_filterMap.mp entered
      cases found
  | cons first others =>
    obtain ⟨draft, result, rfl⟩ := exists_drawn compiled
    rw [selected] at result
    have drawing := yields_adds_draw margin (compiler.rules.expand (first :: others) first)
    have conversation : compiler.draw (compiler.rules.expand (first :: others) first) = .ok draft :=
      result
    rw [conversation] at drawing
    cases drawing with
    | value drawn =>
      obtain ⟨offers, shown, adds⟩ := drawn
      exact ⟨fun node member => (adds.tidy.placed node member).1,
        adds.within_iff.trans (fits_iff compiled selected shown)⟩

end Compiler

end ReplyFlow
