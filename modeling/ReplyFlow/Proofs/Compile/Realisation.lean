import ReplyFlow.Compile.Compiler
import ReplyFlow.Proofs.Compile.Blueprint

/-! Drawing does what the blueprint says.

Every operation of the drawing adds its own part of the blueprint to the draft, or fails for one of
three reasons: there is no row left for a node, a delay is negative, or the blueprint names a step
that has been drawn before.
-/

set_option autoImplicit false

namespace ReplyFlow

variable {α : Type}

namespace Draft

/-- A draft with a blueprint added to it. -/
structure Extends (draft : Draft α) (plan : Blueprint) (drawn : Draft α) : Prop where
  contents : drawn.nodes.map Node.content =
    draft.nodes.map Node.content
      ++ (settle draft.finish.isSome plan.sketches).map Sketch.content
  edges : drawn.edges = draft.edges ++ plan.links.map Link.edge
  finish : drawn.finish.isSome = (draft.finish.isSome || ends plan.sketches)

/-- No step of the blueprint has been drawn before, and none stands in it twice. -/
def Fits (draft : Draft α) (plan : Blueprint) : Prop :=
  (draft.nodes.map Node.id
    ++ (settle draft.finish.isSome plan.sketches).map fun sketch => sketch.step.text).Nodup

variable {draft middle drawn : Draft α} {plan more : Blueprint}

theorem Extends.trans (first : draft.Extends plan middle) (second : middle.Extends more drawn) :
    draft.Extends (plan ++ more) drawn where
  contents := by
    rw [second.contents, first.contents, first.finish, Blueprint.sketches_append, settle_append,
      List.map_append, List.append_assoc]
  edges := by
    rw [second.edges, first.edges, Blueprint.links_append, List.map_append, List.append_assoc]
  finish := by
    rw [second.finish, first.finish, Blueprint.sketches_append, ends, ends, ends, List.any_append,
      Bool.or_assoc]

theorem map_id_eq (draft : Draft α) :
    draft.nodes.map Node.id = (draft.nodes.map Node.content).map NodeContent.id := by
  rw [List.map_map]
  rfl

theorem Extends.ids (extended : draft.Extends plan drawn) :
    drawn.nodes.map Node.id = draft.nodes.map Node.id
      ++ (settle draft.finish.isSome plan.sketches).map fun sketch => sketch.step.text := by
  rw [map_id_eq, map_id_eq, extended.contents, List.map_append, List.map_map, List.map_map]
  rfl

theorem Fits.of_append (fits : draft.Fits (plan ++ more)) : draft.Fits plan := by
  rw [Fits, Blueprint.sketches_append, settle_append, List.map_append, ← List.append_assoc] at fits
  exact (List.nodup_append.mp fits).1

theorem Fits.rest (fits : draft.Fits (plan ++ more)) (extended : draft.Extends plan middle) :
    middle.Fits more := by
  rw [Fits, Blueprint.sketches_append, settle_append, List.map_append, ← List.append_assoc] at fits
  rw [Fits, extended.ids, extended.finish]
  exact fits

-- The end that has been drawn needs no drawing, so it fits once more: hence `due`.
theorem not_fits_of_hasNode {sketch : Sketch} (present : draft.hasNode sketch.step.text)
    (due : settle draft.finish.isSome [sketch] = [sketch]) : ¬ draft.Fits (.step sketch) := by
  intro distinct
  obtain ⟨node, member, same⟩ := List.any_eq_true.mp present
  rw [Fits, Blueprint.step, due, List.nodup_append] at distinct
  exact distinct.2.2 node.id (List.mem_map_of_mem member) sketch.step.text List.mem_cons_self
    (beq_iff_eq.mp same)

theorem extends_link (draft : Draft α) (source target : StepName) (label : Option String) :
    draft.Extends (.link source target label) (Compiler.link source target label draft) where
  contents := (List.append_nil _).symm
  edges := rfl
  finish := (Bool.or_false _).symm

theorem extends_nothing (draft : Draft α) : draft.Extends ⟨[], []⟩ draft where
  contents := (List.append_nil _).symm
  edges := (List.append_nil _).symm
  finish := (Bool.or_false _).symm

theorem extends_markVisited (draft : Draft α) (template : Int) (id : String) :
    draft.Extends ⟨[], []⟩ (draft.markVisited template id) where
  contents := (List.append_nil _).symm
  edges := (List.append_nil _).symm
  finish := (Bool.or_false _).symm

end Draft

namespace Compiler

variable [Coordinate α] {β γ : Type}

/-- What may come of drawing a blueprint; `view` is the draft in a result. -/
inductive Draws (compiler : Compiler α) (draft : Draft α) (plan : Blueprint) (view : β → Draft α) :
    Except Fault β → Prop where
  | drawn {result : β} : draft.Extends plan (view result) → compiler.Draws draft plan view (.ok result)
  | crowded : compiler.Draws draft plan view (.error .noFreeRow)
  | negative {duration : Int} : compiler.rules.delay? = none →
    compiler.Draws draft plan view (.error (.negativeDelay duration))
  | refused {fault : Draft.Fault} : ¬ draft.Fits plan →
    compiler.Draws draft plan view (.error (.refused fault))

variable {compiler : Compiler α} {draft middle : Draft α} {plan more : Blueprint}
  {view : β → Draft α} {other : γ → Draft α}

/-- What is drawn on top of an extended draft. -/
theorem Draws.after {result : Except Fault β} (extended : draft.Extends plan middle)
    (rest : compiler.Draws middle more view result) :
    compiler.Draws draft (plan ++ more) view result := by
  cases rest with
  | drawn grown => exact .drawn (extended.trans grown)
  | crowded => exact .crowded
  | negative none => exact .negative none
  | refused clash => exact .refused fun fits => clash (fits.rest extended)

theorem Draws.bind {first : Except Fault β} {next : β → Except Fault γ}
    (start : compiler.Draws draft plan view first)
    (rest : ∀ result, compiler.Draws (view result) more other (next result)) :
    compiler.Draws draft (plan ++ more) other (first >>= next) := by
  cases start with
  | drawn extended => exact (rest _).after extended
  | crowded => exact .crowded
  | negative none => exact .negative none
  | refused clash => exact .refused fun fits => clash fits.of_append

/-- A link that is drawn before anything else. -/
theorem Draws.link {source target : StepName} {label : Option String} {result : Except Fault β}
    (rest : compiler.Draws (Compiler.link source target label draft) more view result) :
    compiler.Draws draft (.link source target label ++ more) view result :=
  rest.after (draft.extends_link source target label)

theorem draws_place {wanted : Position α} {next : Position α → Except Fault β}
    (rest : ∀ position, compiler.Draws draft plan view (next position)) :
    compiler.Draws draft plan view (compiler.place wanted draft >>= next) := by
  rw [place]
  split
  · exact rest _
  · exact .crowded

theorem draws_delayPayload {next : Payload → Except Fault β}
    (rest : compiler.Draws draft plan view (next compiler.rules.pause)) :
    compiler.Draws draft plan view (compiler.delayPayload >>= next) := by
  rw [delayPayload]
  split
  next payload known =>
    rw [Rules.pause, known] at rest
    exact rest
  next unknown => exact .negative unknown

theorem Draws.map {first : Except Fault β} {result : β → γ}
    (start : compiler.Draws draft plan view first) (same : ∀ value, other (result value) = view value) :
    compiler.Draws draft plan other (first >>= fun value => pure (result value)) := by
  cases start with
  | drawn extended => exact .drawn (same _ ▸ extended)
  | crowded => exact .crowded
  | negative none => exact .negative none
  | refused clash => exact .refused clash

theorem draws_add (sketch : Sketch) (shared : sketch.step ≠ .finish) (position : Position α)
    (fits : sketch.payload.kind = sketch.step.kind.payloadKind) (draft : Draft α) :
    compiler.Draws draft (.step sketch) id
      (add sketch.step sketch.step.kind position sketch.payload draft) := by
  have due (ended : Bool) : settle ended [sketch] = [sketch] := by
    simp [settle, shared]
  rw [add, Draft.addNode]
  by_cases present : draft.hasNode sketch.step.text
  · rw [if_pos present]
    exact .refused (Draft.not_fits_of_hasNode present (due _))
  · rw [if_neg present, dif_pos fits]
    refine .drawn ⟨?_, (List.append_nil _).symm, ?_⟩
    · rw [Blueprint.step, due]
      exact List.map_append
    · simp [Blueprint.step, ends, shared, Draft.push]

theorem draws_drawEnd (anchor : Position α) (draft : Draft α) :
    compiler.Draws draft (.step .finish) id (compiler.drawEnd anchor draft) := by
  rw [drawEnd]
  split
  next known =>
    exact .drawn ⟨by simp [Blueprint.step, settle, Sketch.finish, known],
      (List.append_nil _).symm, by simp [known]⟩
  next unknown =>
    have due : settle draft.finish.isSome [.finish] = [.finish] := by
      rw [unknown]
      rfl
    apply draws_place
    intro position
    rw [Draft.ensureEnd, unknown, Draft.addNode]
    by_cases present : draft.hasNode StepName.finish.text
    · simp only [present, if_true]
      exact .refused (Draft.not_fits_of_hasNode present due)
    · have fits : (Payload.marker "End" false none).kind = NodeKind.finish.payloadKind := rfl
      simp only [present, fits, dite_true]
      refine .drawn ⟨?_, (List.append_nil _).symm, ?_⟩
      · rw [Blueprint.step, due]
        exact List.map_append
      · simp [Blueprint.step, ends, Sketch.finish]

theorem draws_drawMessage (template : Template) (wanted : Position α) (draft : Draft α) :
    compiler.Draws draft (.step (compiler.rules.messageSketch template)) Prod.fst
      (compiler.drawMessage template wanted draft) := by
  apply draws_place
  intro position
  -- the template is marked before its node is added, which a blueprint does not show
  have marked := draft.extends_markVisited template.id (StepName.message template.id).text
  change compiler.Draws draft (⟨[], []⟩ ++ .step (compiler.rules.messageSketch template)) Prod.fst
    (add (.message template.id) .message position (compiler.messagePayload template) _
      >>= fun drawn => pure (drawn, position))
  apply Draws.after marked
  apply Draws.map (draws_add (compiler.rules.messageSketch template) StepName.noConfusion _ rfl _)
  exact fun _ => rfl

theorem draws_drawBranch (owner : Template) (parent : Position α) (index count : Nat)
    (response : Response) (draft : Draft α) :
    compiler.Draws draft (compiler.rules.branchPlan owner.id index response) Prod.fst
      (compiler.drawBranch owner parent index count response draft) := by
  have parts : compiler.rules.branchPlan owner.id index response =
      .step (.condition owner.id index response)
        ++ (.link (.message owner.id) (.condition owner.id index) (some response.key)
        ++ (.step (compiler.rules.delaySketch owner.id index)
        ++ .link (.condition owner.id index) (.delay owner.id index) none)) := rfl
  rw [drawBranch, parts]
  split
  · exact .crowded
  next row _ =>
    apply Draws.bind (draws_add (.condition owner.id index response) StepName.noConfusion _ rfl _)
    intro conditioned
    apply Draws.link
    apply draws_delayPayload
    apply Draws.bind (draws_add (compiler.rules.delaySketch owner.id index) StepName.noConfusion _
      compiler.rules.kind_pause _)
    intro delayed
    exact .drawn (delayed.extends_link _ _ _)

theorem draws_drawEnding (owner : Template) (parent : Position α) (index : Nat)
    (delay : Position α) (ending : Ending) (draft : Draft α) :
    compiler.Draws draft (ending.landing.plan owner.id index) id
      (compiler.drawEnding owner parent index delay ending draft) := by
  cases ending with
  | finish =>
    change compiler.Draws draft (.step .finish ++ .link (.delay owner.id index) .finish none) id
      (compiler.drawEnd delay draft >>= fun ended => pure (link _ _ none ended))
    apply Draws.bind (draws_drawEnd delay draft)
    intro ended
    exact .drawn (ended.extends_link _ _ _)
  | back target => exact .drawn (draft.extends_link _ _ _)
  | cut target =>
    apply draws_place
    intro position
    change compiler.Draws draft (.step (.continuation owner.id index target)
      ++ .link (.delay owner.id index) (.continuation owner.id index) none) id _
    apply Draws.bind (draws_add (.continuation owner.id index target) StepName.noConfusion _ rfl _)
    intro marked
    exact .drawn (marked.extends_link _ _ _)

theorem draws_closeMessage (template : Template) (position : Position α) (branches : Branches)
    (draft : Draft α) :
    compiler.Draws draft (branches.closingPlan template.id) id
      (compiler.closeMessage template position branches draft) := by
  cases branches with
  | done =>
    change compiler.Draws draft (.step .finish ++ .link (.message template.id) .finish none) id
      (compiler.drawEnd position draft >>= fun ended => pure (link _ _ none ended))
    apply Draws.bind (draws_drawEnd position draft)
    intro ended
    exact .drawn (ended.extends_link _ _ _)
  | stop | into => exact .drawn draft.extends_nothing

theorem draws_drawBranches (owner : Template) (parent : Position α) (count index : Nat)
    (branches : Branches) (draft : Draft α) :
    compiler.Draws draft (branches.plan compiler.rules owner.id index) id
      (compiler.drawBranches owner parent count index branches draft) := by
  -- on the tree, for every draft: the rest of a message is drawn on top of all that its
  -- earlier branches have led to
  induction branches generalizing owner parent count index draft with
  | done => exact .drawn draft.extends_nothing
  | stop response ending rest ih =>
    apply Draws.bind (draws_drawBranch owner parent index count response draft)
    rintro ⟨branched, delay⟩
    apply Draws.bind (draws_drawEnding owner parent index delay ending branched)
    intro ended
    exact ih owner parent count (index + 1) ended
  | into response child inside rest insideIH restIH =>
    apply Draws.bind (draws_drawBranch owner parent index count response draft)
    rintro ⟨branched, delay⟩
    apply Draws.bind (draws_drawMessage child _ branched)
    rintro ⟨messaged, position⟩
    apply Draws.bind (insideIH child position inside.length 0 messaged)
    intro followed
    apply Draws.bind (draws_closeMessage child position inside followed)
    intro closed
    apply Draws.link
    exact restIH owner parent count (index + 1) _

theorem draws_drawOpen (expansion : Expansion) :
    compiler.Draws Draft.empty
      (.step .start ++ (.link .start (.message expansion.first.id) none
        ++ compiler.rules.messagePlan expansion.first expansion.branches)) id
      (compiler.drawOpen expansion) := by
  apply Draws.bind (draws_add .start StepName.noConfusion _ rfl _)
  intro started
  apply Draws.link
  apply Draws.bind (draws_drawMessage expansion.first _ _)
  rintro ⟨messaged, position⟩
  apply Draws.bind (draws_drawBranches expansion.first position _ 0 _ messaged)
  intro followed
  exact draws_closeMessage expansion.first position _ followed

theorem draws_draw (expansion : Expansion) :
    compiler.Draws Draft.empty (expansion.plan compiler.rules) id (compiler.draw expansion) := by
  rw [Expansion.plan, ← Blueprint.append_assoc, ← Blueprint.append_assoc, Blueprint.append_assoc _
    (Blueprint.link _ _ _)]
  apply Draws.bind (draws_drawOpen expansion)
  intro opened
  exact draws_drawEnd _ opened

theorem draws_drawNothing :
    compiler.Draws Draft.empty (compiler.rules.plan []) id compiler.drawNothing := by
  apply Draws.bind (draws_add .start StepName.noConfusion _ rfl _)
  intro started
  apply Draws.bind (draws_drawEnd _ started)
  intro ended
  exact .drawn (ended.extends_link _ _ _)

/-- Everything that is drawn of the templates that take part. -/
def drawTemplates (compiler : Compiler α) : List Template → Except Fault (Draft α)
  | [] => compiler.drawNothing
  | first :: others => compiler.draw (compiler.rules.expand (first :: others) first)

theorem draws_drawTemplates (compiler : Compiler α) (templates : List Template) :
    compiler.Draws Draft.empty (compiler.rules.plan templates) id
      (compiler.drawTemplates templates) := by
  cases templates with
  | nil => exact draws_drawNothing
  | cons first others => exact draws_draw _

end Compiler

/-- What is said of a drawing of the templates that take part. -/
def Rules.account (rules : Rules) (selection : Selection) (draft : Draft α) : Report :=
  match selection.templates with
  | [] => selection.emptyReport draft
  | first :: _ => selection.report (rules.expand selection.templates first) draft

/-- The nodes and edges of a graph are those of a blueprint. -/
structure Graph.Shows (graph : Graph α) (plan : Blueprint) : Prop where
  contents : graph.nodes.map Node.content = (settle false plan.sketches).map Sketch.content
  edges : graph.edges = plan.links.map Link.edge

theorem Draft.Extends.shows {plan : Blueprint} {drawn : Draft α}
    (extended : Draft.empty.Extends plan drawn) : drawn.graph.Shows plan :=
  ⟨extended.contents, extended.edges⟩

namespace Compiler

variable [Coordinate α] {compiler : Compiler α} {templates : List Template}

theorem compile_eq (compiler : Compiler α) (templates : List Template) :
    compiler.compile templates =
      (compiler.drawTemplates (compiler.rules.select templates).templates).map fun draft =>
        ⟨draft.graph, compiler.rules.account (compiler.rules.select templates) draft⟩ := by
  rw [compile, compileSelection, drawTemplates.eq_def]
  cases selected : (compiler.rules.select templates).templates <;>
    simp only [Rules.account, selected] <;> rfl

/-- Two kinds of failure remain where no step is named twice. -/
theorem compile_cases (distinct : ((settle false
      (compiler.rules.plan (compiler.rules.select templates).templates).sketches).map
        fun sketch => sketch.step.text).Nodup) :
    compiler.compile templates = .error .noFreeRow ∨ compiler.rules.delay? = none ∨
      ∃ compilation, compiler.compile templates = .ok compilation := by
  have drawing := draws_drawTemplates compiler (compiler.rules.select templates).templates
  rw [compile_eq]
  cases result : compiler.drawTemplates (compiler.rules.select templates).templates with
  | ok draft => exact .inr (.inr ⟨_, rfl⟩)
  | error fault =>
    rw [result] at drawing
    cases drawing with
    | crowded => exact .inl rfl
    | negative unknown => exact .inr (.inl unknown)
    | refused clash => exact absurd distinct clash

theorem exists_drawn {compilation : Compilation α}
    (compiled : compiler.compile templates = .ok compilation) :
    ∃ draft, compiler.drawTemplates (compiler.rules.select templates).templates = .ok draft ∧
      compilation =
        ⟨draft.graph, compiler.rules.account (compiler.rules.select templates) draft⟩ := by
  rw [compile_eq] at compiled
  cases result : compiler.drawTemplates (compiler.rules.select templates).templates with
  | ok draft =>
    rw [result] at compiled
    exact ⟨draft, rfl, (Except.ok.inj compiled).symm⟩
  | error fault =>
    rw [result] at compiled
    cases compiled

theorem exists_draft {compilation : Compilation α}
    (compiled : compiler.compile templates = .ok compilation) :
    ∃ draft, Draft.empty.Extends
        (compiler.rules.plan (compiler.rules.select templates).templates) draft ∧
      compilation =
        ⟨draft.graph, compiler.rules.account (compiler.rules.select templates) draft⟩ := by
  obtain ⟨draft, result, same⟩ := exists_drawn compiled
  have drawing := draws_drawTemplates compiler (compiler.rules.select templates).templates
  rw [result] at drawing
  cases drawing with
  | drawn extended => exact ⟨draft, extended, same⟩

theorem shows_plan {compilation : Compilation α}
    (compiled : compiler.compile templates = .ok compilation) :
    compilation.graph.Shows (compiler.rules.plan (compiler.rules.select templates).templates) := by
  obtain ⟨draft, extended, rfl⟩ := exists_draft compiled
  exact extended.shows

end Compiler

end ReplyFlow
