import ReplyFlow.Json.Value

/-! What can be wrong with a value that is given from outside, and where.

Each cause has a short name and a message. A path leads from the value as a whole to the part at
fault, which is kept in the issue; where a member is missing, that part is the object without it.
-/

set_option autoImplicit false

namespace ReplyFlow.Schema

inductive Key where
  | field (name : String)
  | index (position : Nat)
  deriving Repr, DecidableEq

def Key.json : Key → Json
  | .field name => .text name
  | .index position => .whole position

inductive Cause where
  | missing
  | notText
  | brokenText
  | tooShort (least : Nat)
  | tooLong (most : Nat)
  | notWhole
  | unreadableWhole
  | hugeWhole
  | fractional
  | notFinite
  | notNumber
  | unreadableNumber
  | notFlag
  | unreadableFlag
  | notList
  | notObject (model : String)
  | noAttributes
  | notMember (choices : List String)
  | notLiteral (choices : List String)
  | notAbove (bound : Int)
  | below (bound : Int)
  | above (bound : Int)
  | tagMissing (discriminator : String)
  | tagUnknown (discriminator tag : String) (expected : List String)
  | notMoment
  | momentOutOfRange (reason : String)
  | unreadableMoment (reason : String)
  | refused (reason : String)
  | unexpected
  | unreadableBody
  deriving Repr, DecidableEq

def Cause.name : Cause → String
  | .missing => "missing"
  | .notText => "string_type"
  | .brokenText => "string_unicode"
  | .tooShort _ => "string_too_short"
  | .tooLong _ => "string_too_long"
  | .notWhole => "int_type"
  | .unreadableWhole => "int_parsing"
  | .hugeWhole => "int_parsing_size"
  | .fractional => "int_from_float"
  | .notFinite => "finite_number"
  | .notNumber => "float_type"
  | .unreadableNumber => "float_parsing"
  | .notFlag => "bool_type"
  | .unreadableFlag => "bool_parsing"
  | .notList => "list_type"
  | .notObject _ => "model_type"
  | .noAttributes => "model_attributes_type"
  | .notMember _ => "enum"
  | .notLiteral _ => "literal_error"
  | .notAbove _ => "greater_than"
  | .below _ => "greater_than_equal"
  | .above _ => "less_than_equal"
  | .tagMissing _ => "union_tag_not_found"
  | .tagUnknown .. => "union_tag_invalid"
  | .notMoment => "datetime_type"
  | .momentOutOfRange _ => "datetime_parsing"
  | .unreadableMoment _ => "datetime_from_date_parsing"
  | .refused _ => "value_error"
  | .unexpected => "extra_forbidden"
  | .unreadableBody => "json_invalid"

def singleQuoted (text : String) : String :=
  "'" ++ text ++ "'"

/-- Choices in quotes, the last one after an "or". -/
def alternatives : List String → String
  | [] => ""
  | [only] => singleQuoted only
  | [first, last] => singleQuoted first ++ " or " ++ singleQuoted last
  | first :: rest => singleQuoted first ++ ", " ++ alternatives rest

def characters (count : Nat) : String :=
  toString count ++ if count = 1 then " character" else " characters"

def Cause.message : Cause → String
  | .missing => "Field required"
  | .notText => "Input should be a valid string"
  | .brokenText => "Input should be a valid string, unable to parse raw data as a unicode string"
  | .tooShort least => "String should have at least " ++ characters least
  | .tooLong most => "String should have at most " ++ characters most
  | .notWhole => "Input should be a valid integer"
  | .unreadableWhole => "Input should be a valid integer, unable to parse string as an integer"
  | .hugeWhole => "Unable to parse input string as an integer, exceeded maximum size"
  | .fractional => "Input should be a valid integer, got a number with a fractional part"
  | .notFinite => "Input should be a finite number"
  | .notNumber => "Input should be a valid number"
  | .unreadableNumber => "Input should be a valid number, unable to parse string as a number"
  | .notFlag => "Input should be a valid boolean"
  | .unreadableFlag => "Input should be a valid boolean, unable to interpret input"
  | .notList => "Input should be a valid list"
  | .notObject model => "Input should be a valid dictionary or instance of " ++ model
  | .noAttributes => "Input should be a valid dictionary or object to extract fields from"
  | .notMember choices => "Input should be " ++ alternatives choices
  | .notLiteral choices => "Input should be " ++ alternatives choices
  | .notAbove bound => "Input should be greater than " ++ toString bound
  | .below bound => "Input should be greater than or equal to " ++ toString bound
  | .above bound => "Input should be less than or equal to " ++ toString bound
  | .tagMissing discriminator =>
    "Unable to extract tag using discriminator " ++ singleQuoted discriminator
  | .tagUnknown discriminator tag expected =>
    "Input tag " ++ singleQuoted tag ++ " found using " ++ singleQuoted discriminator
      ++ " does not match any of the expected tags: "
      ++ ", ".intercalate (expected.map singleQuoted)
  | .notMoment => "Input should be a valid datetime"
  | .momentOutOfRange reason => "Input should be a valid datetime, " ++ reason
  | .unreadableMoment reason => "Input should be a valid datetime or date, " ++ reason
  | .refused reason => "Value error, " ++ reason
  | .unexpected => "Extra inputs are not permitted"
  | .unreadableBody => "JSON decode error"

structure Issue where
  path : List Key
  cause : Cause
  input : Json

def Issue.under (key : Key) (issue : Issue) : Issue :=
  { issue with path := key :: issue.path }

def Issue.json (issue : Issue) : Json :=
  .object [("type", .text issue.cause.name), ("loc", .ofList Key.json issue.path),
    ("msg", .text issue.cause.message)]

end ReplyFlow.Schema
