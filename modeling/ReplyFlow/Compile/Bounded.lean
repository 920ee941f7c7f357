import ReplyFlow.Compile.Account
import ReplyFlow.Compile.Drawing
import ReplyFlow.Limits

/-! Drawing a conversation within limits.

Each message is drawn by a call of its own, inside that for the message before it. The names of the
steps hold the ids of templates, and a pause is described by its duration. Up to the point at which
a limit is met everything is drawn as it is without limits.
-/

set_option autoImplicit false

namespace ReplyFlow

/-- Why no graph comes of a conversation: it cannot be drawn, or drawing it takes too much. -/
inductive Compiler.Failure where
  | fault (fault : Fault)
  | excess (excess : Limits.Excess)
  deriving Repr, DecidableEq

/-- What breaks off the drawing of branches inside `level` calls. -/
def Branches.excess? (limits : Limits) (pause : Int) : Nat → Branches → Option Limits.Excess
  | _, .done => none
  | level, .stop _ _ rest => limits.writing? pause <|> rest.excess? limits pause level
  | level, .into _ child inside rest =>
    limits.writing? pause <|> (limits.calling? level <|> limits.writing? child.id)
      <|> inside.excess? limits pause (level + 1) <|> rest.excess? limits pause level

/-- The branches that are drawn before that. -/
def Branches.before (limits : Limits) (pause : Int) : Nat → Branches → Branches
  | _, .done => .done
  | level, .stop response ending rest =>
    if limits.allows pause then .stop response ending (rest.before limits pause level) else .done
  | level, .into response child inside rest =>
    if limits.allows pause && level < limits.calls && limits.allows child.id then
      match inside.excess? limits pause (level + 1) with
      | some _ => .into response child (inside.before limits pause (level + 1)) .done
      | none => .into response child inside (rest.before limits pause level)
    else .done

namespace Compiler

/-- Work within which a whole number is written out. A search for a place comes before that, and
what else can fail comes after it. -/
def writing {β : Type} (limits : Limits) (value : Int) (work : Except Fault β) :
    Except Failure β :=
  match work, limits.writing? value with
  | .error .noFreeRow, _ => .error (.fault .noFreeRow)
  | _, some excess => .error (.excess excess)
  | work, none => work.mapError .fault

variable {α : Type} [Coordinate α]

/-- Draws the message of a template inside `level` calls. -/
def drawMessageWithin (compiler : Compiler α) (limits : Limits) (level : Nat)
    (template : Template) (wanted : Position α) (draft : Draft α) :
    Except Failure (Draft α × Position α) :=
  match limits.calling? level with
  | some excess => .error (.excess excess)
  | none => writing limits template.id (compiler.drawMessage template wanted draft)

/-- Draws the branches of a message, which is drawn by the last of `level` calls. -/
def drawBranchesWithin (compiler : Compiler α) (limits : Limits) (owner : Template)
    (parent : Position α) (count : Nat) :
    Nat → Nat → Branches → Draft α → Except Failure (Draft α)
  | _, _, .done, draft => .ok draft
  | level, index, .stop response ending rest, draft => do
    let (draft, delay) ← writing limits compiler.rules.delayDuration
      (compiler.drawBranch owner parent index count response draft)
    let draft ← (compiler.drawEnding owner parent index delay ending draft).mapError .fault
    compiler.drawBranchesWithin limits owner parent count level (index + 1) rest draft
  | level, index, .into response child inside rest, draft => do
    let (draft, delay) ← writing limits compiler.rules.delayDuration
      (compiler.drawBranch owner parent index count response draft)
    let (draft, position) ← compiler.drawMessageWithin limits level child
      (compiler.grid.childPosition parent delay.y) draft
    let draft ←
      compiler.drawBranchesWithin limits child position inside.length (level + 1) 0 inside draft
    let draft ← (compiler.closeMessage child position inside draft).mapError .fault
    let draft := link (.delay owner.id index) (.message child.id) none draft
    compiler.drawBranchesWithin limits owner parent count level (index + 1) rest draft

/-- The conversation as it is drawn, with the end that it must have. The edge to the first message
is named before that is drawn. -/
def drawWithin (compiler : Compiler α) (limits : Limits) (expansion : Expansion) :
    Except Failure (Draft α) := do
  let first := expansion.first
  let branches := expansion.branches
  let draft ← compiler.drawStart.mapError .fault
  let draft ← writing limits first.id (.ok (link .start (.message first.id) none draft))
  let (draft, position) ←
    compiler.drawMessageWithin limits 0 first compiler.grid.firstPosition draft
  let draft ←
    compiler.drawBranchesWithin limits first position branches.length 1 0 branches draft
  let draft ← (compiler.closeMessage first position branches draft).mapError .fault
  (compiler.drawLooseEnd draft).mapError .fault

end Compiler

/-- What breaks off the drawing of a conversation. -/
def Expansion.excess? (limits : Limits) (pause : Int) (expansion : Expansion) :
    Option Limits.Excess :=
  limits.writing? expansion.first.id <|>
    (limits.calling? 0 <|> limits.writing? expansion.first.id) <|>
      expansion.branches.excess? limits pause 1

end ReplyFlow
