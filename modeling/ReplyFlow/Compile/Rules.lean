import ReplyFlow.Graph.Basic

/-! What a compilation may decide, apart from the places of the nodes. -/

set_option autoImplicit false

namespace ReplyFlow

/-- What becomes of a reply that leads to no template: nothing, or a branch to the end. -/
inductive TerminalPolicy where
  | drop
  | finish
  deriving Repr, DecidableEq

def TerminalPolicy.name : TerminalPolicy → String
  | .drop => "drop"
  | .finish => "end"

def TerminalPolicy.choices : List (String × TerminalPolicy) :=
  [TerminalPolicy.drop, .finish].map fun policy => (policy.name, policy)

inductive DelayUnit where
  | seconds
  | minutes
  | hours
  | days
  deriving Repr, DecidableEq

/-- The name of a single unit. -/
def DelayUnit.singular : DelayUnit → String
  | .seconds => "second"
  | .minutes => "minute"
  | .hours => "hour"
  | .days => "day"

def DelayUnit.name (unit : DelayUnit) : String :=
  unit.singular ++ "s"

def DelayUnit.choices : List (String × DelayUnit) :=
  [DelayUnit.seconds, .minutes, .hours, .days].map fun unit => (unit.name, unit)

structure Rules where
  /-- The greatest number of messages between the first one and any other one. -/
  maxDepth : Nat
  policy : TerminalPolicy
  includeInactive : Bool
  delayDuration : Int
  delayUnit : DelayUnit
  recipient : String
  deriving Repr, DecidableEq

/-- The pause before the next message, if its duration is not negative. -/
def Rules.delay? (rules : Rules) : Option Payload :=
  match rules.delayDuration with
  | .ofNat duration =>
    let unit := if duration = 1 then rules.delayUnit.singular else rules.delayUnit.name
    some (.delay s!"Wait {duration} {unit}" duration rules.delayUnit.name)
  | .negSucc _ => none

end ReplyFlow
