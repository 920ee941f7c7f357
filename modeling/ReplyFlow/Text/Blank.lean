/-! Characters that separate words.

Two classes are in use. `isBlank` is the wider one: it also holds the four information
separators U+001C to U+001F. `isWhite` leaves those four out.
-/

set_option autoImplicit false

namespace ReplyFlow.Text

/-- The code points of the wider class, as closed ranges in ascending order. -/
def blankRanges : List (Nat × Nat) :=
  [(0x09, 0x0D), (0x1C, 0x20), (0x85, 0x85), (0xA0, 0xA0), (0x1680, 0x1680), (0x2000, 0x200A),
    (0x2028, 0x2029), (0x202F, 0x202F), (0x205F, 0x205F), (0x3000, 0x3000)]

def inRanges (ranges : List (Nat × Nat)) (code : Nat) : Bool :=
  ranges.any fun range => range.1 ≤ code && code ≤ range.2

/-- Words and reply keys are trimmed and split at these characters. -/
def isBlank (c : Char) : Bool :=
  inRanges blankRanges c.toNat

/-- Numerals may be surrounded by these characters. -/
def isWhite (c : Char) : Bool :=
  isBlank c && !(0x1C ≤ c.toNat && c.toNat ≤ 0x1F)

end ReplyFlow.Text
