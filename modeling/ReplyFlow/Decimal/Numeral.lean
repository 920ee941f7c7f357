import ReplyFlow.Decimal.Binary64

/-! Decimal numerals: which digits are chosen and how they are written.

`shortest` takes the fewest digits that read back as the same binary64 number, `significant` a
fixed number of them. `NumeralStyle` holds the conventions of one kind of output.
-/

set_option autoImplicit false

namespace ReplyFlow.Decimal

/-- `d.ddd * 10 ^ exponent`; there is at least one digit and no trailing zero, except in `0`. -/
structure Numeral where
  digits : List Char
  exponent : Int
  deriving Repr, DecidableEq

def Numeral.zero : Numeral :=
  ⟨['0'], 0⟩

/-- The numeral of `count * 10 ^ power`. -/
def Numeral.ofScaled (count : Nat) (power : Int) : Numeral :=
  let all := Nat.toDigits 10 count
  match (all.reverse.dropWhile (· == '0')).reverse with
  | [] => .zero
  | digits => ⟨digits, power + all.length - 1⟩

/-- The power of ten of the leading digit of a positive value. -/
def Ratio.order (value : Ratio) : Int :=
  if value.den ≤ value.num then (decimalLength value.floor : Int) - 1
  else
    let length := decimalLength (value.den / value.num)
    if value.num * Nat.pow 10 (length - 1) = value.den then 1 - (length : Int)
    else -(length : Int)

/-- The given number of leading digits, rounded to nearest. -/
def significant (value : Ratio) (count : Nat) : Numeral :=
  let power := value.order - count + 1
  .ofScaled (value.shift (-power)).round power

/-- The values that read as one binary64 number. Its two ends belong to it iff the mantissa is
even. -/
structure Interval where
  lower : Ratio
  upper : Ratio
  closed : Bool

/-- The neighbour below is half as far away where the mantissa is the least of its binade. -/
def Interval.around (mantissa : Nat) (exponent : Int) : Interval :=
  let below := if mantissa = Nat.pow 2 52 && -1074 < exponent then 1 else 2
  { lower := .ofBinary (4 * mantissa - below) (exponent - 2)
    upper := .ofBinary (4 * mantissa + 2) (exponent - 2)
    closed := mantissa % 2 = 0 }

def Ratio.le (a b : Ratio) : Bool :=
  a.num * b.den ≤ b.num * a.den

def Ratio.lt (a b : Ratio) : Bool :=
  a.num * b.den < b.num * a.den

def Interval.contains (span : Interval) (value : Ratio) : Bool :=
  if span.closed then span.lower.le value && value.le span.upper
  else span.lower.lt value && value.lt span.upper

/-- The point of the grid `10 ^ power` that lies in the interval: of two, the nearer to `value`,
and of two equally near ones the even one. -/
def Interval.onGrid? (span : Interval) (value : Ratio) (power : Int) : Option Nat :=
  let scaled := value.shift (-power)
  let low := scaled.floor
  let hits (count : Nat) : Bool := span.contains (Ratio.shift ⟨count, 1⟩ power)
  match hits low, hits (low + 1) with
  | true, true => some scaled.round
  | true, false => some low
  | false, true => some (low + 1)
  | false, false => none

/-- The fewest digits that read back; seventeen always do. -/
def shortest (mantissa : Nat) (exponent : Int) : Numeral :=
  let value := Ratio.ofBinary mantissa exponent
  let span := Interval.around mantissa exponent
  let order := value.order
  let found := (List.range 17).findSome? fun (more : Nat) =>
    let power : Int := order - more
    (span.onGrid? value power).map (Numeral.ofScaled · power)
  found.getD (significant value 17)

/-- Exponents from -4 up to `positionalBelow` are written without an `e`; a whole number then
ends in `.0` if `wholeMark` is set. -/
structure NumeralStyle where
  positionalBelow : Int
  wholeMark : Bool

def zeros (count : Nat) : List Char :=
  List.replicate count '0'

def NumeralStyle.positional (style : NumeralStyle) (n : Numeral) : List Char :=
  if n.exponent < 0 then ['0', '.'] ++ zeros ((-n.exponent).toNat - 1) ++ n.digits
  else
    let width := n.exponent.toNat + 1
    let front := n.digits.take width ++ zeros (width - n.digits.length)
    match n.digits.drop width with
    | [] => front ++ if style.wholeMark then ['.', '0'] else []
    | rest => front ++ '.' :: rest

/-- The exponent has a sign and at least two digits. -/
def scientific (n : Numeral) : List Char :=
  let exponent := Nat.toDigits 10 n.exponent.natAbs
  let front := match n.digits with
    | lead :: next :: rest => lead :: '.' :: next :: rest
    | digits => digits
  front ++ ['e', if n.exponent < 0 then '-' else '+'] ++ zeros (2 - exponent.length) ++ exponent

def NumeralStyle.write (style : NumeralStyle) (n : Numeral) : List Char :=
  if -4 ≤ n.exponent && n.exponent < style.positionalBelow then style.positional n
  else scientific n

/-- The text of a number, with the digits of a positive one chosen by `choose`. -/
def NumeralStyle.text (style : NumeralStyle) (choose : Nat → Int → Numeral) (x : Float) : String :=
  match shape x with
  | .undefined => "nan"
  | .infinite negative => if negative then "-inf" else "inf"
  | .finite negative mantissa exponent =>
    let n := if mantissa = 0 then .zero else choose mantissa exponent
    String.ofList ((if negative then ['-'] else []) ++ style.write n)

/-- The fewest digits that read back. -/
def NumeralStyle.shortestText (style : NumeralStyle) (x : Float) : String :=
  style.text shortest x

/-- The given number of leading digits, without trailing zeros. -/
def NumeralStyle.roundedText (style : NumeralStyle) (count : Nat) (x : Float) : String :=
  style.text (fun mantissa exponent => significant (.ofBinary mantissa exponent) count) x

/-- The default text of a number: sixteen whole digits at most, and whole numbers marked. -/
def plainStyle : NumeralStyle :=
  ⟨16, true⟩

def plainText (x : Float) : String :=
  plainStyle.shortestText x

end ReplyFlow.Decimal
