import ReplyFlow.Graph.Basic
import ReplyFlow.Text.Words

/-! How a node looks on the canvas: its colours, its icon and its short text. -/

set_option autoImplicit false

namespace ReplyFlow

structure Style where
  fill : String
  border : String
  text : String
  icon : String
  deriving Repr, DecidableEq

def NodeKind.style : NodeKind → Style
  | .start => ⟨"#dcfce7", "#86efac", "#166534", "play"⟩
  | .finish => ⟨"#fee2e2", "#fca5a5", "#991b1b", "stop"⟩
  | .message => ⟨"#dbeafe", "#93c5fd", "#1e40af", "message-square"⟩
  | .condition => ⟨"#f3e8ff", "#d8b4fe", "#6b21a8", "git-branch"⟩
  | .delay => ⟨"#fef9c3", "#fde047", "#854d0e", "clock"⟩

/-- The template that a cut branch would go on with. -/
def continuationText : Option Int → String
  | some id => s!"Continues at template {id}"
  | none => "Continues at template None"

/-- The short text of a step, in which a message takes at most `length` characters. -/
def Payload.preview (length : Int) : Payload → String
  | .message _ _ body _ => String.ofList (Text.shorten body.toList length)
  | .condition _ field operator expected => field ++ " " ++ operator ++ " " ++ expected
  | .delay _ duration unit => toString duration ++ " " ++ unit
  | .marker _ true templateId => continuationText templateId
  | .marker _ false _ => ""

end ReplyFlow
