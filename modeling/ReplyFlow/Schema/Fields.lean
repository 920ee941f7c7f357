import ReplyFlow.Schema.Scalar

/-! Checks of objects, member by member.

A field may have several names; the first name that is present counts, whatever its value, and
names the field in the issues. Members that no field names are ignored.
-/

set_option autoImplicit false

namespace ReplyFlow.Schema

/-- Whether a value was handed over in the body of a request. -/
inductive Setting where
  | direct
  | body
  deriving Repr, DecidableEq

def Setting.notObject (setting : Setting) (model : String) : Cause :=
  match setting with
  | .direct => .notObject model
  | .body => .noAttributes

variable {α : Type}

/-- The members of an object that stands for a `model`. -/
def record (setting : Setting) (model : String) (value : Json)
    (check : Json.Members → Checked α) : Checked α :=
  match value with
  | .object members => check members
  | _ => .fault (setting.notObject model) value

def required (members : Json.Members) (names : List String) (check : Json → Checked α) :
    Checked α :=
  match members.find? names with
  | some (name, value) => (check value).under (.field name)
  | none => (Checked.fault .missing (.object members)).under (.field (names.headD ""))

/-- A field that stands for `default` where it is missing. -/
def optional (members : Json.Members) (names : List String) (default : α)
    (check : Json → Checked α) : Checked α :=
  match members.find? names with
  | some (name, value) => (check value).under (.field name)
  | none => .ok default

end ReplyFlow.Schema
