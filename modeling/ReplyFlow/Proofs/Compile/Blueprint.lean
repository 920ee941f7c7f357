import ReplyFlow.Compile.Drawing
import ReplyFlow.Proofs.Compile.Scenes

/-! What a conversation is drawn as, apart from places.

A blueprint lists the steps to draw and the links between them, in the order of drawing. The end
stands in it wherever it is needed, although it is drawn only once.
-/

set_option autoImplicit false

namespace ReplyFlow

def StepName.kind : StepName → NodeKind
  | .start => .start
  | .finish | .continuation .. => .finish
  | .message .. => .message
  | .condition .. => .condition
  | .delay .. => .delay

/-- The template that a step belongs to. -/
def StepName.owner? : StepName → Option Int
  | .start | .finish => none
  | .message template | .condition template _ | .delay template _ | .continuation template _ =>
    some template

/-- What a node is, apart from its place. -/
structure NodeContent where
  id : String
  kind : NodeKind
  payload : Payload
  deriving Repr, DecidableEq

def Node.content {α : Type} (node : Node α) : NodeContent :=
  ⟨node.id, node.kind, node.payload⟩

structure Sketch where
  step : StepName
  payload : Payload
  deriving Repr, DecidableEq

def Sketch.content (sketch : Sketch) : NodeContent :=
  ⟨sketch.step.text, sketch.step.kind, sketch.payload⟩

structure Link where
  source : StepName
  target : StepName
  label : Option String
  deriving Repr, DecidableEq

def Link.edge (link : Link) : Edge :=
  ⟨edgeName link.source.text link.target.text, link.source.text, link.target.text, link.label⟩

structure Blueprint where
  sketches : List Sketch
  links : List Link
  deriving Repr, DecidableEq

namespace Blueprint

instance : Append Blueprint where
  append first second := ⟨first.sketches ++ second.sketches, first.links ++ second.links⟩

@[simp] theorem sketches_append (first second : Blueprint) :
    (first ++ second).sketches = first.sketches ++ second.sketches := rfl

@[simp] theorem links_append (first second : Blueprint) :
    (first ++ second).links = first.links ++ second.links := rfl

theorem append_assoc (first second third : Blueprint) :
    first ++ second ++ third = first ++ (second ++ third) := by
  change mk _ _ = mk _ _
  rw [mk.injEq]
  exact ⟨List.append_assoc _ _ _, List.append_assoc _ _ _⟩

def step (sketch : Sketch) : Blueprint :=
  ⟨[sketch], []⟩

def link (source target : StepName) (label : Option String) : Blueprint :=
  ⟨[], [⟨source, target, label⟩]⟩

end Blueprint

def Sketch.start : Sketch :=
  ⟨.start, .marker "Start" false none⟩

def Sketch.finish : Sketch :=
  ⟨.finish, .marker "End" false none⟩

def Sketch.condition (owner : Int) (index : Nat) (response : Response) : Sketch :=
  ⟨.condition owner index, Compiler.conditionPayload response⟩

def Sketch.continuation (owner : Int) (index : Nat) (target : Int) : Sketch :=
  ⟨.continuation owner index, .marker "Continue" true (some target)⟩

namespace Rules

variable (rules : Rules)

/-- What a delay does; where the duration is negative, no delay is ever drawn. -/
def pause : Payload :=
  rules.delay?.getD (.delay "" 0 "")

theorem kind_pause : rules.pause.kind = .delay := by
  rw [pause, delay?]
  split <;> rfl

def delaySketch (owner : Int) (index : Nat) : Sketch :=
  ⟨.delay owner index, rules.pause⟩

def messageSketch (template : Template) : Sketch :=
  ⟨.message template.id, .message template.name template.id template.message rules.recipient⟩

/-- The condition and the delay of a branch. -/
def branchPlan (owner : Int) (index : Nat) (response : Response) : Blueprint :=
  ⟨[.condition owner index response, rules.delaySketch owner index],
    [⟨.message owner, .condition owner index, some response.key⟩,
      ⟨.condition owner index, .delay owner index, none⟩]⟩

end Rules

namespace Landing

/-- The step that a branch leads to. -/
def step (owner : Int) (index : Nat) : Landing → StepName
  | finish => .finish
  | message template => .message template
  | continuation _ => .continuation owner index

/-- The steps that a branch needs for what it leads to, other than messages. -/
def sketches (owner : Int) (index : Nat) : Landing → List Sketch
  | finish => [.finish]
  | message _ => []
  | continuation template => [.continuation owner index template]

def plan (owner : Int) (index : Nat) (landing : Landing) : Blueprint :=
  ⟨landing.sketches owner index, [⟨.delay owner index, landing.step owner index, none⟩]⟩

end Landing

/-- A message that offers no branches leads to the end. -/
def Branches.closingPlan (owner : Int) : Branches → Blueprint
  | done => ⟨[.finish], [⟨.message owner, .finish, none⟩]⟩
  | _ => ⟨[], []⟩

/-- The branches of a message from some number on, with all that follows them. -/
def Branches.plan (rules : Rules) (owner : Int) : Nat → Branches → Blueprint
  | _, done => ⟨[], []⟩
  | index, stop response ending rest =>
    rules.branchPlan owner index response ++ (ending.landing.plan owner index
      ++ rest.plan rules owner (index + 1))
  | index, into response child inside rest =>
    rules.branchPlan owner index response ++ (.step (rules.messageSketch child)
      ++ (inside.plan rules child.id 0 ++ (inside.closingPlan child.id
        ++ (.link (.delay owner index) (.message child.id) none
          ++ rest.plan rules owner (index + 1)))))

def Rules.messagePlan (rules : Rules) (template : Template) (branches : Branches) : Blueprint :=
  .step (rules.messageSketch template) ++ (branches.plan rules template.id 0
    ++ branches.closingPlan template.id)

/-- The whole drawing, with the end that it must have. -/
def Expansion.plan (rules : Rules) (expansion : Expansion) : Blueprint :=
  .step .start ++ (.link .start (.message expansion.first.id) none
    ++ (rules.messagePlan expansion.first expansion.branches ++ .step .finish))

/-- What is drawn of some templates. -/
def Rules.plan (rules : Rules) : List Template → Blueprint
  | [] => .step .start ++ (.step .finish ++ .link .start .finish none)
  | first :: others => (rules.expand (first :: others) first).plan rules

/-- The steps that are drawn, where an end may be there already. -/
def settle : Bool → List Sketch → List Sketch
  | _, [] => []
  | ended, sketch :: rest =>
    if sketch.step = .finish then
      if ended then settle true rest else sketch :: settle true rest
    else sketch :: settle ended rest

def ends (sketches : List Sketch) : Bool :=
  sketches.any fun sketch => sketch.step = .finish

theorem settle_append (ended : Bool) (first second : List Sketch) :
    settle ended (first ++ second) = settle ended first ++ settle (ended || ends first) second := by
  induction first generalizing ended with
  | nil => simp [settle, ends]
  | cons sketch rest ih =>
    rw [List.cons_append, settle, settle, ends, List.any_cons]
    by_cases last : sketch.step = .finish
    · cases ended <;> simp [last, ih]
    · simp [last, ih, ends]

theorem settle_sublist (ended : Bool) (sketches : List Sketch) :
    (settle ended sketches).Sublist sketches := by
  induction sketches generalizing ended with
  | nil => exact .slnil
  | cons first rest ih =>
    rw [settle]
    split
    · split
      · exact (ih true).cons first
      · exact (ih true).cons_cons first
    · exact (ih ended).cons_cons first

-- Nothing but the end is left out, so any choice of other sketches is kept in its order.
theorem filter_settle (ended : Bool) (sketches : List Sketch) (keep : Sketch → Bool)
    (others : ∀ sketch ∈ sketches, keep sketch → sketch.step ≠ .finish) :
    (settle ended sketches).filter keep = sketches.filter keep := by
  induction sketches generalizing ended with
  | nil => rfl
  | cons first rest ih =>
    obtain ⟨here, later⟩ := List.forall_mem_cons.mp others
    rw [settle]
    by_cases last : first.step = .finish
    · have dropped : ¬ keep first := fun kept => here kept last
      cases ended <;> simp [last, dropped, ih _ later]
    · rw [if_neg last, List.filter_cons, List.filter_cons, ih _ later]

end ReplyFlow
