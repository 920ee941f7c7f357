import ReplyFlow.Decimal.Numeral
import ReplyFlow.Text.Blank
import ReplyFlow.Text.Digits
import ReplyFlow.Text.Unassigned

/-! Text between single quotes, as it is named inside messages.

Double quotes are used where the text holds a single quote and no double one. Characters without
a visible form are written by their code.
-/

set_option autoImplicit false

namespace ReplyFlow.Text

/-- Controls, formats, separators other than the space, and characters of private use. -/
def controlRanges : List (Nat × Nat) :=
  [(0x00, 0x1F), (0x7F, 0xA0), (0xAD, 0xAD), (0x600, 0x605), (0x61C, 0x61C), (0x6DD, 0x6DD),
    (0x70F, 0x70F), (0x890, 0x891), (0x8E2, 0x8E2), (0x1680, 0x1680), (0x180E, 0x180E),
    (0x2000, 0x200F), (0x2028, 0x202F), (0x205F, 0x2064), (0x2066, 0x206F), (0x3000, 0x3000),
    (0xD800, 0xF8FF), (0xFEFF, 0xFEFF), (0xFFF9, 0xFFFB), (0x110BD, 0x110BD),
    (0x110CD, 0x110CD), (0x13430, 0x13438), (0x1BCA0, 0x1BCA3), (0x1D173, 0x1D17A),
    (0xE0001, 0xE0001), (0xE0020, 0xE007F), (0xF0000, 0xFFFFD), (0x100000, 0x10FFFD)]

/-- Characters without a visible form. -/
def isHidden (c : Char) : Bool :=
  inRanges controlRanges c.toNat || inRanges unassignedRanges c.toNat

def codeEscape (code : Nat) : List Char :=
  if code ≤ 0xFF then ['\\', 'x'] ++ paddedDigits 16 2 code
  else if code ≤ 0xFFFF then ['\\', 'u'] ++ paddedDigits 16 4 code
  else ['\\', 'U'] ++ paddedDigits 16 8 code

def singleQuote : Char := Char.ofNat 0x27

def doubleQuote : Char := Char.ofNat 0x22

def quotedChar (mark c : Char) : List Char :=
  if c == mark || c == '\\' then ['\\', c]
  else if c == '\n' then ['\\', 'n']
  else if c == '\r' then ['\\', 'r']
  else if c == '\t' then ['\\', 't']
  else if isHidden c then codeEscape c.toNat
  else [c]

def quoteMark (s : List Char) : Char :=
  if s.contains singleQuote && !s.contains doubleQuote then doubleQuote else singleQuote

/-- The text with quotes around it. -/
def quoted (text : String) : String :=
  let s := text.toList
  let mark := quoteMark s
  String.ofList (mark :: s.flatMap (quotedChar mark) ++ [mark])

end ReplyFlow.Text
