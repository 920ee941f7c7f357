import ReplyFlow.Compile.Rules
import ReplyFlow.Layout.Grid

/-! The settings of the application, with a default for each of them. -/

set_option autoImplicit false

namespace ReplyFlow

structure Settings where
  appName : String
  debug : Bool
  origin : Position Float
  levelSpacing : Float
  branchSpacing : Float
  maxDepth : Int
  delayDuration : Int
  delayUnit : DelayUnit
  policy : TerminalPolicy
  includeInactive : Bool
  recipient : String
  databaseUrl : String
  databaseKey : String
  table : String
  /-- Who counts as the creator of a workflow for which nobody is named. -/
  creator : String
  deriving Repr

namespace Settings

def default : Settings where
  appName := "Template Workflow Compiler"
  debug := false
  origin := ⟨100, 300⟩
  levelSpacing := 200
  branchSpacing := 150
  maxDepth := 10
  delayDuration := 1
  delayUnit := .minutes
  policy := .drop
  includeInactive := true
  recipient := defaultRecipient
  databaseUrl := ""
  databaseKey := ""
  table := "workflows"
  creator := "Current User"

def grid (settings : Settings) : Except Grid.Fault (Grid Float) :=
  Grid.make settings.levelSpacing settings.branchSpacing settings.origin

/-- The rules for a given depth and policy. -/
def rules (settings : Settings) (maxDepth : Nat) (policy : TerminalPolicy) : Rules where
  maxDepth := maxDepth
  policy := policy
  includeInactive := settings.includeInactive
  delayDuration := settings.delayDuration
  delayUnit := settings.delayUnit
  recipient := settings.recipient

end Settings

end ReplyFlow
