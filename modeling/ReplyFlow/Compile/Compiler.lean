import ReplyFlow.Compile.Bounded
import ReplyFlow.Settings.Basic

/-! Compiling templates to a workflow graph. -/

set_option autoImplicit false

namespace ReplyFlow

structure Compilation (α : Type) where
  graph : Graph α
  report : Report
  deriving Repr, DecidableEq

/-- A result, and what was logged on the way to it. -/
structure Logged (β : Type) where
  journal : Journal
  result : β

/-- Why settings do not make a compiler. -/
inductive Compiler.SetupFault where
  | grid (fault : Grid.Fault)
  | negativeDepth
  | unknownPolicy (name : String)
  deriving Repr, DecidableEq

def Compiler.SetupFault.message : Compiler.SetupFault → String
  | .grid fault => fault.message
  | .negativeDepth => "max_depth must be >= 0"
  | .unknownPolicy name => "Unknown terminal response policy: " ++ name

namespace Compiler

/-- The policy of this name; an empty name stands for none. -/
def choosePolicy (settings : Settings) (name : Option String) :
    Except SetupFault TerminalPolicy :=
  match name.filter (!·.isEmpty) with
  | none => .ok settings.policy
  | some name =>
    match TerminalPolicy.choices.lookup name with
    | some policy => .ok policy
    | none => .error (.unknownPolicy name)

/-- The compiler of some settings; what is given beside them counts first. -/
def make (settings : Settings) (grid : Option (Grid Float)) (maxDepth : Option Int)
    (policy : Option String) : Except SetupFault (Compiler Float) := do
  let grid ← match grid with
    | some grid => .ok grid
    | none => settings.grid.mapError .grid
  match maxDepth.getD settings.maxDepth with
  | .negSucc _ => throw .negativeDepth
  | .ofNat depth => return ⟨settings.rules depth (← choosePolicy settings policy), grid⟩

def ofSettings (settings : Settings) : Except SetupFault (Compiler Float) :=
  make settings none none none

variable {α : Type} [Coordinate α]

/-- The conversation as it is drawn, with the end that it must have. -/
def draw (compiler : Compiler α) (expansion : Expansion) : Except Fault (Draft α) := do
  compiler.drawLooseEnd (← compiler.drawOpen expansion)

/-- Compiles the templates that take part. -/
def compileSelection (compiler : Compiler α) (selection : Selection) :
    Except Fault (Compilation α) :=
  match selection.templates with
  | [] => do
    let draft ← compiler.drawNothing
    return ⟨draft.graph, selection.emptyReport draft⟩
  | first :: _ => do
    let expansion := compiler.rules.expand selection.templates first
    let draft ← compiler.draw expansion
    return ⟨draft.graph, selection.report expansion draft⟩

/-- Compiles without limits. -/
def compile (compiler : Compiler α) (templates : List Template) : Except Fault (Compilation α) :=
  compiler.compileSelection (compiler.rules.select templates)

/-- Compiles the templates that take part within limits. -/
def compileSelectionWithin (compiler : Compiler α) (limits : Limits) (selection : Selection) :
    Except Failure (Compilation α) :=
  match selection.templates with
  | [] => do
    let draft ← compiler.drawNothing.mapError .fault
    return ⟨draft.graph, selection.emptyReport draft⟩
  | first :: _ => do
    let expansion := compiler.rules.expand selection.templates first
    let draft ← compiler.drawWithin limits expansion
    return ⟨draft.graph, selection.report expansion draft⟩

def compileWithin (compiler : Compiler α) (limits : Limits) (templates : List Template) :
    Except Failure (Compilation α) :=
  compiler.compileSelectionWithin limits (compiler.rules.select templates)

/-- The events of a conversation that was drawn, of one whose first branch already failed, or of one
that was broken off. -/
def conversationEvents (compiler : Compiler α) (limits : Limits) (templates : List Template)
    (first : Template) (result : Except Failure (Compilation α)) : Journal :=
  let expansion := compiler.rules.expand templates first
  let entry := compiler.rules.entryEvents templates first
  match result with
  | .error (.fault _) => entry
  | .error (.excess _) =>
    if limits.allows first.id && 0 < limits.calls then
      entry ++ compiler.rules.branchEvents templates first
        (expansion.branches.before limits compiler.rules.delayDuration 1)
    else []
  | .ok compilation =>
    entry ++ compiler.rules.branchEvents templates first expansion.branches
      ++ (if expansion.closes then [] else [.noTerminalTemplate])
      ++ [compilation.report.event]

def selectionEvents (compiler : Compiler α) (limits : Limits) (selection : Selection)
    (result : Except Failure (Compilation α)) : Journal :=
  selection.duplicates.map Duplicate.event ++ match selection.templates with
    | [] => [.nothingToCompile]
    | first :: _ => compiler.conversationEvents limits selection.templates first result

/-- Compiles within limits, and logs what happens. -/
def run (compiler : Compiler α) (limits : Limits) (templates : List Template) :
    Logged (Except Failure (Compilation α)) :=
  let selection := compiler.rules.select templates
  let result := compiler.compileSelectionWithin limits selection
  ⟨.compileStarted templates.length :: compiler.selectionEvents limits selection result, result⟩

@[simp] theorem result_run (compiler : Compiler α) (limits : Limits) (templates : List Template) :
    (compiler.run limits templates).result = compiler.compileWithin limits templates := rfl

end Compiler

end ReplyFlow
