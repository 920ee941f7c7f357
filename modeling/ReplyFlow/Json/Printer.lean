import ReplyFlow.Decimal.Numeral
import ReplyFlow.Json.Value
import ReplyFlow.Text.Digits

/-! Writing JSON text.

Only printable ASCII is written; every other character is escaped. Values stand on one line, or
each on its own line with two spaces for every level.
-/

set_option autoImplicit false

namespace ReplyFlow.Json

def escapeUnit (unit : Nat) : List Char :=
  '\\' :: 'u' :: Text.paddedDigits 16 4 unit

def escapeChar (c : Char) : List Char :=
  let code := c.toNat
  if c == '"' || c == '\\' then ['\\', c]
  else if c == '\n' then ['\\', 'n']
  else if c == '\r' then ['\\', 'r']
  else if c == '\t' then ['\\', 't']
  else if code = 8 then ['\\', 'b']
  else if code = 12 then ['\\', 'f']
  else if 0x20 ≤ code && code ≤ 0x7E then [c]
  else if code < 0x10000 then escapeUnit code
  else
    let offset := code - 0x10000
    escapeUnit (0xD800 + offset / 0x400) ++ escapeUnit (0xDC00 + offset % 0x400)

def quoted (text : String) : String :=
  String.ofList ('"' :: text.toList.flatMap escapeChar ++ ['"'])

/-- Numbers that are not finite are written as words. -/
def numberText (value : Float) : String :=
  if value.isFinite then Decimal.plainText value
  else if value.isNaN then "NaN"
  else if value < 0 then "-Infinity"
  else "Infinity"

/-- How the parts of a list or an object are set apart at a given level. -/
inductive Format where
  | line
  | indented
  deriving Repr, DecidableEq

def newline (level : Nat) : String :=
  "\n" ++ String.ofList (List.replicate (2 * level) ' ')

def Format.enter : Format → Nat → String
  | .line, _ => ""
  | .indented, level => newline (level + 1)

def Format.between : Format → Nat → String
  | .line, _ => ", "
  | .indented, level => "," ++ newline (level + 1)

def Format.leave : Format → Nat → String
  | .line, _ => ""
  | .indented, level => newline level

mutual

def write (format : Format) (level : Nat) : Json → String
  | .null => "null"
  | .bool value => if value then "true" else "false"
  | .whole value => toString value
  | .number value => numberText value
  | .text value => quoted value
  | .list [] => "[]"
  | .list (item :: rest) =>
    "[" ++ format.enter level ++ item.write format (level + 1) ++ writeItems format level rest
      ++ format.leave level ++ "]"
  | .object [] => "\x7b\x7d"
  | .object ((name, value) :: rest) =>
    "\x7b" ++ format.enter level ++ quoted name ++ ": " ++ value.write format (level + 1)
      ++ writeMembers format level rest ++ format.leave level ++ "\x7d"

def writeItems (format : Format) (level : Nat) : List Json → String
  | [] => ""
  | item :: rest =>
    format.between level ++ item.write format (level + 1) ++ writeItems format level rest

def writeMembers (format : Format) (level : Nat) : List (String × Json) → String
  | [] => ""
  | (name, value) :: rest =>
    format.between level ++ quoted name ++ ": " ++ value.write format (level + 1)
      ++ writeMembers format level rest

end

/-- The value on one line. -/
def render (value : Json) : String :=
  value.write .line 0

/-- The value over several lines. -/
def renderIndented (value : Json) : String :=
  value.write .indented 0

end ReplyFlow.Json
