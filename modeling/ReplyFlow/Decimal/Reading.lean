import ReplyFlow.Decimal.Binary64
import ReplyFlow.Text.Words

/-! Reading numerals that people type.

A whole number may have a sign, in front or behind zeros, single underscores between its digits
and a fraction of zeros. A number may lack digits on one side of the point, or be one of the words
for infinity and for an undefined value. Blanks around either are ignored.
-/

set_option autoImplicit false

namespace ReplyFlow.Decimal

def digitsValue (digits : List Char) : Nat :=
  digits.foldl (fun value c => 10 * value + (c.toNat - '0'.toNat)) 0

/-- Splits off a sign; `true` means minus. -/
def splitSign : List Char → Bool × List Char
  | '-' :: rest => (true, rest)
  | '+' :: rest => (false, rest)
  | rest => (false, rest)

def splitDigits (s : List Char) : List Char × List Char :=
  (s.takeWhile Char.isDigit, s.dropWhile Char.isDigit)

/-- Removes underscores that stand alone between two other characters. -/
def joinUnderscores? (s : List Char) : Option (List Char) :=
  let groups := s.splitOn '_'
  if groups.any List.isEmpty then none else some groups.flatten

/-- Whole numbers of 64 bits, one of them for the sign, lie below this. -/
def wordLimit : Int := Nat.pow 2 63

def fitsWord (n : Int) : Bool :=
  -wordLimit ≤ n && n < wordLimit

/-- A whole number may have this many digits. -/
def digitLimit : Nat := 4300

/-- Why a text is no whole number. -/
inductive WholeFault where
  | unreadable
  | tooLong
  deriving Repr, DecidableEq

def leads (c : Char) : Bool :=
  c == '0' || c == '_'

/-- A numeral without the zeros in front of it and the underscores among them. One zero is kept
where no digit follows, and a minus may follow as well. -/
def dropLeading? (s : List Char) : Option (List Char) :=
  let front := s.takeWhile leads
  let rest := s.dropWhile leads
  if front.head? == some '_' then none
  else
    match rest with
    | [] => if front.getLast? == some '0' then some ['0'] else none
    | c :: _ =>
      if c.isDigit || (c == '-' && !front.isEmpty) then some rest
      else if c == '.' && front.getLast? == some '0' then some ('0' :: rest)
      else none

/-- A numeral without decimals that are all zero. -/
def dropZeroDecimals (s : List Char) : List Char :=
  match s.dropWhile (· != '.') with
  | _ :: decimals =>
    if !decimals.isEmpty && decimals.all (· == '0') then s.takeWhile (· != '.') else s
  | [] => s

/-- The number that digits without needless zeros stand for. -/
def readWholeDigits (negative : Bool) (s : List Char) : Except WholeFault Int :=
  let (digits, rest) := splitDigits s
  if digits.isEmpty || (digits.head? == some '0' && digits != ['0']) then .error .unreadable
  else if digitLimit < digits.length then .error .tooLong
  else if !rest.isEmpty then .error .unreadable
  else .ok (if negative then -(digitsValue digits : Int) else digitsValue digits)

/-- A whole number as typed. -/
def readWhole (s : List Char) : Except WholeFault Int :=
  let (negative, body) := splitSign (Text.trim Text.isWhite s)
  match dropLeading? body with
  | none => .error .unreadable
  | some body =>
    let body := dropZeroDecimals body
    match (joinUnderscores? body).getD body with
    | '-' :: digits => if negative then .error .unreadable else readWholeDigits true digits
    | digits => readWholeDigits negative digits

/-- The power of ten after an `e`; nothing at all stands for zero. -/
def readExponent? : List Char → Option Int
  | [] => some 0
  | mark :: rest =>
    let (negative, digits) := splitSign rest
    if (mark == 'e' || mark == 'E') && !digits.isEmpty && digits.all Char.isDigit then
      some (if negative then -(digitsValue digits : Int) else digitsValue digits)
    else none

/-- The number written with these digits around the point, times a power of ten. -/
def assemble (negative : Bool) (front decimals : List Char) (power : Int) : Float :=
  withSign negative (ofDecimal (digitsValue (front ++ decimals)) (power - decimals.length))

def readDigits? (negative : Bool) (s : List Char) : Option Float :=
  let (front, rest) := splitDigits s
  let (decimals, tail) := match rest with
    | '.' :: more => splitDigits more
    | _ => ([], rest)
  if front.isEmpty && decimals.isEmpty then none
  else (readExponent? tail).map (assemble negative front decimals)

def infinityWords : List String :=
  ["inf", "infinity"]

def readPlain? (s : List Char) : Option Float :=
  let (negative, body) := splitSign s
  let word := (String.ofList body).toLower
  if infinityWords.contains word then some (withSign negative (1 / 0))
  else if word == "nan" then some (0 / 0)
  else readDigits? negative body

/-- Underscores are looked at only where the trimmed text is no number, and then blanks are not
ignored any more. -/
def readNumber? (s : List Char) : Option Float :=
  match readPlain? (Text.trim Text.isWhite s) with
  | some x => some x
  | none => if s.contains '_' then (joinUnderscores? s).bind readPlain? else none

end ReplyFlow.Decimal
