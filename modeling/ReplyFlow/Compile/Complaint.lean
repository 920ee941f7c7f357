import ReplyFlow.Compile.Bounded
import ReplyFlow.Schema.Complaint

/-! Why a compilation failed, in words. -/

set_option autoImplicit false

namespace ReplyFlow

open Schema

/-- What is wrong with a pause of negative duration. -/
def negativeDelayIssue (duration : Int) : Issue :=
  ⟨[.field "duration"], .below 0, .whole duration⟩

/-- What is said of a fault. A search without end says nothing. -/
def Compiler.Fault.message? : Compiler.Fault → Option String
  | .negativeDelay duration => some (complaint "DelayPayload" (negativeDelayIssue duration))
  | .refused fault => some fault.message
  | .noFreeRow => none

def Compiler.Failure.message? : Compiler.Failure → Option String
  | .fault why => why.message?
  | .excess limit => some limit.message

end ReplyFlow
