/-! Halves of surrogate pairs.

A character beyond the first 65536 may be written as two code units, the halves of a pair. A half
alone stands for no character; where a text is given one all the same, a character of a plane in
which none is assigned stands in for it.
-/

set_option autoImplicit false

namespace ReplyFlow.Text

def isHighHalf (unit : Nat) : Bool :=
  0xD800 ≤ unit && unit ≤ 0xDBFF

def isLowHalf (unit : Nat) : Bool :=
  0xDC00 ≤ unit && unit ≤ 0xDFFF

/-- How far a half lies below the character that stands in for it. -/
def standInDistance : Nat := 0xB0000

/-- The character of one code unit, or of a number that is no half. -/
def unitChar (unit : Nat) : Char :=
  if isHighHalf unit || isLowHalf unit then Char.ofNat (standInDistance + unit)
  else Char.ofNat unit

def pairChar (high low : Nat) : Char :=
  Char.ofNat (0x10000 + (high - 0xD800) * 0x400 + (low - 0xDC00))

/-- Joins the halves of each pair. -/
def ofUnits : List Nat → List Char
  | high :: low :: rest =>
    if isHighHalf high && isLowHalf low then pairChar high low :: ofUnits rest
    else unitChar high :: ofUnits (low :: rest)
  | [unit] => [unitChar unit]
  | [] => []

/-- The character stands in for half of a pair. -/
def isHalf (c : Char) : Bool :=
  0xBD800 ≤ c.toNat && c.toNat ≤ 0xBDFFF

/-- No character of the text stands in for half of a pair. -/
def isWhole (text : String) : Bool :=
  text.toList.all fun c => !isHalf c

end ReplyFlow.Text
