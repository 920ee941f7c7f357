import ReplyFlow.Json.Display
import ReplyFlow.Schema.Issue

/-! A single issue as a text for people, with the value at fault. -/

set_option autoImplicit false

namespace ReplyFlow.Schema

/-- A long name is cut in the middle. -/
def clipped (name : String) : String :=
  if name.length ≤ 50 then name
  else
    let s := name.toList
    String.ofList (s.take 25 ++ ['.', '.', '.'] ++ s.drop (s.length - 24))

def Key.text : Key → String
  | .field name => name
  | .index position => toString position

def complaint (title : String) (issue : Issue) : String :=
  "1 validation error for " ++ title ++ "\n" ++ ".".intercalate (issue.path.map Key.text) ++ "\n  "
    ++ issue.cause.message ++ " [type=" ++ issue.cause.name ++ ", input_value="
    ++ clipped issue.input.inner ++ ", input_type=" ++ issue.input.kindName ++ "]\n"
    ++ "    For further information visit https://errors.pydantic.dev/2.14/v/" ++ issue.cause.name

end ReplyFlow.Schema
