import ReplyFlow.Compile.Draft
import ReplyFlow.Compile.Expansion
import ReplyFlow.Layout.Grid

/-! Drawing a conversation.

Each message is drawn before its branches, and each branch, with everything that follows it, before
the next one. A branch is a condition and a delay side by side; the first branch or message that
needs the end draws it.
-/

set_option autoImplicit false

namespace ReplyFlow

structure Compiler (α : Type) [Coordinate α] where
  rules : Rules
  grid : Grid α

/-- Why a conversation cannot be drawn. -/
inductive Compiler.Fault where
  | negativeDelay (duration : Int)
  | refused (fault : Draft.Fault)
  | noFreeRow
  deriving Repr, DecidableEq

namespace Compiler

variable {α : Type} [Coordinate α]

/-- The free place at or below `position`. -/
def place (compiler : Compiler α) (position : Position α) (draft : Draft α) :
    Except Fault (Position α) :=
  match compiler.grid.freePosition? position draft.occupied with
  | some position => .ok position
  | none => .error .noFreeRow

def add (step : StepName) (kind : NodeKind) (position : Position α) (payload : Payload)
    (draft : Draft α) : Except Fault (Draft α) :=
  match draft.addNode step.text kind position payload with
  | .ok draft => .ok draft
  | .error fault => .error (.refused fault)

def link (source target : StepName) (label : Option String) (draft : Draft α) : Draft α :=
  draft.connect source.text target.text label

/-- Draws the shared end beside `anchor` unless it is there already. -/
def drawEnd (compiler : Compiler α) (anchor : Position α) (draft : Draft α) :
    Except Fault (Draft α) :=
  match draft.finish with
  | some _ => .ok draft
  | none => do
    let position ← compiler.place (compiler.grid.endPosition anchor) draft
    match draft.ensureEnd position with
    | .ok draft => .ok draft
    | .error fault => .error (.refused fault)

def messagePayload (compiler : Compiler α) (template : Template) : Payload :=
  .message template.name template.id template.message compiler.rules.recipient

def conditionPayload (response : Response) : Payload :=
  .condition s!"If response is \"{response.key}\"" "lastResponse" "equals" response.key

def delayPayload (compiler : Compiler α) : Except Fault Payload :=
  match compiler.rules.delay? with
  | some payload => .ok payload
  | none => .error (.negativeDelay compiler.rules.delayDuration)

/-- Draws the message of a template at or below `wanted`. -/
def drawMessage (compiler : Compiler α) (template : Template) (wanted : Position α)
    (draft : Draft α) : Except Fault (Draft α × Position α) := do
  let position ← compiler.place wanted draft
  let step := StepName.message template.id
  let draft ← add step .message position (compiler.messagePayload template)
    (draft.markVisited template.id step.text)
  return (draft, position)

/-- Draws the condition and the delay of branch `index` of `count`; the place of the delay is
returned. -/
def drawBranch (compiler : Compiler α) (owner : Template) (parent : Position α)
    (index count : Nat) (response : Response) (draft : Draft α) :
    Except Fault (Draft α × Position α) := do
  let wanted := compiler.grid.conditionPosition parent index count
  let column := (compiler.grid.delayPosition wanted).x
  match compiler.grid.freeRow? wanted.y [wanted.x, column] draft.occupied with
  | none => throw .noFreeRow
  | some row =>
    let condition := StepName.condition owner.id index
    let delay := StepName.delay owner.id index
    let draft ← add condition .condition ⟨wanted.x, row⟩ (conditionPayload response) draft
    let draft := link (.message owner.id) condition (some response.key) draft
    let draft ← add delay .delay ⟨column, row⟩ (← compiler.delayPayload) draft
    return (link condition delay none draft, ⟨column, row⟩)

/-- Draws what a branch leads to that does not enter a template. -/
def drawEnding (compiler : Compiler α) (owner : Template) (parent : Position α) (index : Nat)
    (delay : Position α) (ending : Ending) (draft : Draft α) : Except Fault (Draft α) := do
  let source := StepName.delay owner.id index
  match ending with
  | .finish =>
    let draft ← compiler.drawEnd delay draft
    return link source .finish none draft
  | .back target => return link source (.message target) none draft
  | .cut target =>
    let step := StepName.continuation owner.id index
    let position ← compiler.place (compiler.grid.childPosition parent delay.y) draft
    let draft ← add step .finish position (.marker "Continue" true (some target)) draft
    return link source step none draft

/-- A message without branches leads to the end. -/
def closeMessage (compiler : Compiler α) (template : Template) (position : Position α)
    (branches : Branches) (draft : Draft α) : Except Fault (Draft α) :=
  match branches with
  | .done => do
    let draft ← compiler.drawEnd position draft
    return link (.message template.id) .finish none draft
  | _ => .ok draft

/-- Draws the branches of a message from number `index` on. -/
def drawBranches (compiler : Compiler α) (owner : Template) (parent : Position α) (count : Nat) :
    Nat → Branches → Draft α → Except Fault (Draft α)
  | _, .done, draft => .ok draft
  | index, .stop response ending rest, draft => do
    let (draft, delay) ← compiler.drawBranch owner parent index count response draft
    let draft ← compiler.drawEnding owner parent index delay ending draft
    compiler.drawBranches owner parent count (index + 1) rest draft
  | index, .into response child inside rest, draft => do
    let (draft, delay) ← compiler.drawBranch owner parent index count response draft
    let (draft, position) ←
      compiler.drawMessage child (compiler.grid.childPosition parent delay.y) draft
    let draft ← compiler.drawBranches child position inside.length 0 inside draft
    let draft ← compiler.closeMessage child position inside draft
    let draft := link (.delay owner.id index) (.message child.id) none draft
    compiler.drawBranches owner parent count (index + 1) rest draft

def drawStart (compiler : Compiler α) : Except Fault (Draft α) :=
  add .start .start compiler.grid.startPosition (.marker "Start" false none) Draft.empty

/-- A start that leads to the end. -/
def drawNothing (compiler : Compiler α) : Except Fault (Draft α) := do
  let draft ← compiler.drawStart
  let draft ← compiler.drawEnd compiler.grid.startPosition draft
  return link .start .finish none draft

/-- Everything from the start on, as far as the conversation leads. -/
def drawOpen (compiler : Compiler α) (expansion : Expansion) : Except Fault (Draft α) := do
  let draft ← compiler.drawStart
  let draft := link .start (.message expansion.first.id) none draft
  let (draft, position) ←
    compiler.drawMessage expansion.first compiler.grid.firstPosition draft
  let branches := expansion.branches
  let draft ← compiler.drawBranches expansion.first position branches.length 0 branches draft
  compiler.closeMessage expansion.first position branches draft

/-- An end that nothing leads to stands to the right of everything else. -/
def drawLooseEnd (compiler : Compiler α) (draft : Draft α) : Except Fault (Draft α) :=
  compiler.drawEnd ⟨draft.maxX, compiler.grid.origin.y⟩ draft

end Compiler

end ReplyFlow
