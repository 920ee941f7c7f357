/-! JSON values.

Whole numbers and binary64 numbers are kept apart, and the members of an object keep their order.
-/

set_option autoImplicit false

namespace ReplyFlow

inductive Json where
  | null
  | bool (value : Bool)
  | whole (value : Int)
  | number (value : Float)
  | text (value : String)
  | list (items : List Json)
  | object (members : List (String × Json))
  deriving Inhabited

namespace Json

abbrev Members := List (String × Json)

/-- The value of the first of `names` that is a member, with that name. -/
def Members.find? (members : Members) : List String → Option (String × Json)
  | [] => none
  | name :: others =>
    match members.lookup name with
    | some value => some (name, value)
    | none => find? members others

/-- Sets a member; one that is there already keeps its place. -/
def Members.set (members : Members) (name : String) (value : Json) : Members :=
  if members.any (·.1 == name) then
    members.map fun member => if member.1 == name then (name, value) else member
  else members ++ [(name, value)]

def ofOption {α : Type} (encode : α → Json) : Option α → Json
  | none => .null
  | some value => encode value

def ofList {α : Type} (encode : α → Json) (items : List α) : Json :=
  .list (items.map encode)

def texts (items : List String) : Json :=
  ofList .text items

/-- Empty and zero values; a table column that holds one of them counts as not set. -/
def isVacant : Json → Bool
  | .null => true
  | .bool value => !value
  | .whole value => value == 0
  | .number value => value == 0
  | .text value => value.isEmpty
  | .list items => items.isEmpty
  | .object members => members.isEmpty

mutual

/-- Replaces numbers that are not finite by `null`. -/
def finite : Json → Json
  | .number value => if value.isFinite then .number value else .null
  | .list items => .list (finiteItems items)
  | .object members => .object (finiteMembers members)
  | .null => .null
  | .bool value => .bool value
  | .whole value => .whole value
  | .text value => .text value

def finiteItems : List Json → List Json
  | [] => []
  | item :: rest => item.finite :: finiteItems rest

def finiteMembers : List (String × Json) → List (String × Json)
  | [] => []
  | (name, value) :: rest => (name, value.finite) :: finiteMembers rest

end

mutual

/-- All numbers pass one test, and all texts and names of members the other one. -/
def every (ofNumber : Float → Bool) (ofText : String → Bool) : Json → Bool
  | .number value => ofNumber value
  | .text value => ofText value
  | .list items => everyItem ofNumber ofText items
  | .object members => everyMember ofNumber ofText members
  | .null => true
  | .bool _ => true
  | .whole _ => true

def everyItem (ofNumber : Float → Bool) (ofText : String → Bool) : List Json → Bool
  | [] => true
  | item :: rest => item.every ofNumber ofText && everyItem ofNumber ofText rest

def everyMember (ofNumber : Float → Bool) (ofText : String → Bool) : List (String × Json) → Bool
  | [] => true
  | (name, value) :: rest =>
    ofText name && value.every ofNumber ofText && everyMember ofNumber ofText rest

end

end Json

end ReplyFlow
