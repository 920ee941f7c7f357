/-! Digits in a fixed width, and the values of hexadecimal digits. -/

set_option autoImplicit false

namespace ReplyFlow.Text

/-- The digits of a number, with zeros in front up to the given width. -/
def paddedDigits (base width n : Nat) : List Char :=
  let digits := Nat.toDigits base n
  List.replicate (width - digits.length) '0' ++ digits

theorem length_paddedDigits (base width n : Nat) :
    (paddedDigits base width n).length = max width (Nat.toDigits base n).length := by
  simp only [paddedDigits, List.length_append, List.length_replicate]
  omega

/-- The value of a digit in either case. -/
def hexValue? (c : Char) : Option Nat :=
  if c.isDigit then some (c.toNat - '0'.toNat)
  else if 'a' ≤ c && c ≤ 'f' then some (c.toNat - 'a'.toNat + 10)
  else if 'A' ≤ c && c ≤ 'F' then some (c.toNat - 'A'.toNat + 10)
  else none

end ReplyFlow.Text
