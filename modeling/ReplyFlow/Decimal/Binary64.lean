import ReplyFlow.Decimal.Rounding

/-! The exact value of a binary64 number, and the reading of a decimal numeral as one. -/

set_option autoImplicit false

namespace ReplyFlow.Decimal

/-- What the 64 bits of a number say; a finite one is `mantissa * 2 ^ exponent`, up to its sign. -/
inductive Shape where
  | undefined
  | infinite (negative : Bool)
  | finite (negative : Bool) (mantissa : Nat) (exponent : Int)
  deriving Repr, DecidableEq

def shape (x : Float) : Shape :=
  let bits := x.toBits.toNat
  let negative : Bool := Nat.pow 2 63 ≤ bits
  let biased : Nat := bits / Nat.pow 2 52 % Nat.pow 2 11
  let fraction : Nat := bits % Nat.pow 2 52
  if biased = 2047 then
    if fraction = 0 then .infinite negative else .undefined
  else if biased = 0 then .finite negative fraction (-1074)
  else .finite negative (Nat.pow 2 52 + fraction) (Int.ofNat biased - 1075)

/-- A nonnegative rational number, written `num / den`. -/
structure Ratio where
  num : Nat
  den : Nat
  deriving Repr, DecidableEq

/-- `mantissa * 2 ^ exponent`. -/
def Ratio.ofBinary (mantissa : Nat) (exponent : Int) : Ratio :=
  if 0 ≤ exponent then ⟨mantissa * Nat.pow 2 exponent.toNat, 1⟩
  else ⟨mantissa, Nat.pow 2 (-exponent).toNat⟩

/-- `value * 10 ^ power`. -/
def Ratio.shift (value : Ratio) (power : Int) : Ratio :=
  if 0 ≤ power then ⟨value.num * Nat.pow 10 power.toNat, value.den⟩
  else ⟨value.num, value.den * Nat.pow 10 (-power).toNat⟩

def Ratio.floor (value : Ratio) : Nat :=
  value.num / value.den

def Ratio.round (value : Ratio) : Nat :=
  nearestEven value.num value.den

def withSign (negative : Bool) (x : Float) : Float :=
  if negative then -x else x

def decimalLength (n : Nat) : Nat :=
  (Nat.toDigits 10 n).length

/-- The binary64 number nearest to `digits * 10 ^ power`. Powers far outside the range of the
format are decided by the number of digits alone. -/
def ofDecimal (digits : Nat) (power : Int) : Float :=
  let size : Int := decimalLength digits + power
  if digits = 0 || size < -400 then 0
  else if 400 < size then 1 / 0
  else if 0 ≤ power then Float.ofScientific digits false power.toNat
  else Float.ofScientific digits true (-power).toNat

def ofInt (n : Int) : Float :=
  withSign (n < 0) (ofDecimal n.natAbs 0)

/-- The number nearest to half of `n`. -/
def half (n : Int) : Float :=
  withSign (n < 0) (ofDecimal (5 * n.natAbs) (-1))

/-- The whole number that a number is, if it is one. -/
def whole? (x : Float) : Option Int :=
  match shape x with
  | .finite negative mantissa exponent =>
    let value := Ratio.ofBinary mantissa exponent
    if value.num % value.den = 0 then
      some (if negative then -(value.floor : Int) else value.floor)
    else none
  | _ => none

/-- The number with three decimals nearest to `x`, a tie going to the even last digit. The exact
value of `x` decides, and the result is again the nearest binary64 number. -/
def toThousandth (x : Float) : Float :=
  match shape x with
  | .finite negative mantissa exponent =>
    if 0 ≤ exponent then x
    else withSign negative (ofDecimal ((Ratio.ofBinary mantissa exponent).shift 3).round (-3))
  | _ => x

end ReplyFlow.Decimal
