import ReplyFlow.Json.Value
import ReplyFlow.Text.Quoted

/-! A value named inside a message: a text as it is, any other value by its usual name.

Inside a list or an object texts are quoted.
-/

set_option autoImplicit false

namespace ReplyFlow.Json

mutual

/-- The name of a value inside another one. -/
def inner : Json → String
  | .null => "None"
  | .bool value => if value then "True" else "False"
  | .whole value => toString value
  | .number value => Decimal.plainText value
  | .text value => Text.quoted value
  | .list items => "[" ++ innerItems items ++ "]"
  | .object members => "\x7b" ++ innerMembers members ++ "\x7d"

def innerItems : List Json → String
  | [] => ""
  | [item] => item.inner
  | item :: next :: rest => item.inner ++ ", " ++ innerItems (next :: rest)

def innerMembers : List (String × Json) → String
  | [] => ""
  | [(name, value)] => Text.quoted name ++ ": " ++ value.inner
  | (name, value) :: next :: rest =>
    Text.quoted name ++ ": " ++ value.inner ++ ", " ++ innerMembers (next :: rest)

end

/-- The name of a value that stands alone. -/
def display : Json → String
  | .text value => value
  | other => other.inner

/-- The name of the kind of a value. -/
def kindName : Json → String
  | .null => "NoneType"
  | .bool _ => "bool"
  | .whole _ => "int"
  | .number _ => "float"
  | .text _ => "str"
  | .list _ => "list"
  | .object _ => "dict"

end ReplyFlow.Json
