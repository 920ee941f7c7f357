import ReplyFlow.Decimal.Reading
import ReplyFlow.Time.Timestamp

/-! Reading moments: dates with a time, dates alone, and counts of seconds from 1970.

A count beyond twenty thousand million is taken for milliseconds. A text is examined octet by
octet, each octet standing here for the character of its value. The year before the first one can
be read, but is no year of the calendar.
-/

set_option autoImplicit false

namespace ReplyFlow.Time

inductive DateFault where
  | tooShort
  | extraCharacters
  | yearCharacter
  | monthCharacter
  | dayCharacter
  | separator
  | monthRange
  | dayRange
  | yearZero
  | beforeLimit
  | afterLimit
  | undefined
  deriving Repr, DecidableEq

def DateFault.message : DateFault → String
  | .tooShort => "input is too short"
  | .extraCharacters => "unexpected extra characters at the end of the input"
  | .yearCharacter => "invalid character in year"
  | .monthCharacter => "invalid character in month"
  | .dayCharacter => "invalid character in day"
  | .separator => "invalid date separator, expected `-`"
  | .monthRange => "month value is outside expected range of 1-12"
  | .dayRange => "day value is outside expected range"
  | .yearZero => "year 0 is out of range"
  | .beforeLimit => "dates before 0000 are not supported as unix timestamps"
  | .afterLimit => "dates after 9999 are not supported as unix timestamps"
  | .undefined => "NaN values not permitted"

def octets (text : String) : List Char :=
  text.toUTF8.data.toList.map fun octet => Char.ofNat octet.toNat

def number? (digits : List Char) : Option Nat :=
  if digits.all Char.isDigit then some (Decimal.digitsValue digits) else none

/-- The date in the first ten octets, and the rest. -/
def readDate (s : List Char) : Except DateFault (Date × List Char) :=
  match s with
  | a :: b :: c :: d :: firstMark :: e :: f :: secondMark :: g :: h :: rest =>
    match number? [a, b, c, d] with
    | none => .error .yearCharacter
    | some year =>
      if firstMark != '-' then .error .separator
      else
        match number? [e, f] with
        | none => .error .monthCharacter
        | some month =>
          if secondMark != '-' then .error .separator
          else
            match number? [g, h] with
            | none => .error .dayCharacter
            | some day =>
              if month < 1 || 12 < month then .error .monthRange
              else if day < 1 || daysInMonth year month < day then .error .dayRange
              else .ok (⟨year, month, day⟩, rest)
  | _ => .error .tooShort

/-- Decimals of a second in microseconds; digits after the sixth are dropped. -/
def readFraction? : List Char → Option (Nat × List Char)
  | mark :: rest =>
    if mark == '.' || mark == ',' then
      let (digits, rest) := Decimal.splitDigits rest
      if digits.isEmpty then none
      else
        let kept := digits.take 6
        some (Decimal.digitsValue kept * Nat.pow 10 (6 - kept.length), rest)
    else some (0, mark :: rest)
  | [] => some (0, [])

/-- Seconds and microseconds after the minutes. -/
def readSeconds? (s : List Char) : Option (Nat × Nat × List Char) :=
  match s with
  | ':' :: a :: b :: rest =>
    match number? [a, b] with
    | some seconds =>
      if 59 < seconds then none
      else (readFraction? rest).map fun (micros, rest) => (seconds, micros, rest)
    | none => none
  | ':' :: _ => none
  | _ => some (0, 0, s)

def offsetMinutes? (sign : Int) (hours minutes : List Char) (rest : List Char) : Option Int :=
  match number? hours, number? minutes with
  | some hours, some minutes =>
    if 59 < minutes || 24 * 60 ≤ hours * 60 + minutes || !rest.isEmpty then none
    else some (sign * (hours * 60 + minutes))
  | _, _ => none

def signedOffset? (sign : Int) : List Char → Option Int
  | a :: b :: ':' :: c :: d :: rest => offsetMinutes? sign [a, b] [c, d] rest
  | a :: b :: c :: d :: rest => offsetMinutes? sign [a, b] [c, d] rest
  | _ => none

/-- The distance from universal time at the end of a text; the outer `none` is a fault. The minus
sign of typographers, three octets long, is allowed. -/
def readOffset? (s : List Char) : Option (Option Int) :=
  match s with
  | [] => some none
  | ['Z'] | ['z'] => some (some 0)
  | '+' :: rest => (signedOffset? 1 rest).map some
  | '-' :: rest => (signedOffset? (-1) rest).map some
  | a :: b :: c :: rest =>
    if [a.toNat, b.toNat, c.toNat] = [226, 136, 146] then (signedOffset? (-1) rest).map some
    else none
  | _ => none

def readClock? (date : Date) (s : List Char) : Option Timestamp :=
  match s with
  | a :: b :: ':' :: c :: d :: rest =>
    match number? [a, b], number? [c, d] with
    | some hours, some minutes =>
      if 23 < hours || 59 < minutes then none
      else do
        let (seconds, micros, rest) ← readSeconds? rest
        let offset ← readOffset? rest
        some (.ofDate date ((hours * 60 + minutes) * 60 + seconds : Nat) micros offset)
    | _, _ => none
  | _ => none

/-- A date and a time with a letter, an underscore or a space between them. -/
def readMoment? (s : List Char) : Option Timestamp :=
  match readDate s with
  | .ok (date, mark :: rest) =>
    if ['T', 't', ' ', '_'].contains mark then readClock? date rest else none
  | _ => none

/-- Counts beyond this are milliseconds. -/
def millisecondsAbove : Nat := 20000000000

def firstSecond : Int := -62167219200

def lastSecond : Int := 253402300799

/-- The moment so many microseconds from 1970. -/
def ofMicros (total : Int) : Except DateFault Timestamp :=
  let seconds := total / microsPerSecond
  if seconds < firstSecond then .error .beforeLimit
  else if lastSecond < seconds then .error .afterLimit
  else .ok (.universal total)

/-- The moment of a whole count from 1970. -/
def ofCount (count : Int) : Except DateFault Timestamp :=
  ofMicros (if count.natAbs ≤ millisecondsAbove then count * microsPerSecond else count * 1000)

def clampWord (n : Int) : Int :=
  max (-Decimal.wordLimit) (min (Decimal.wordLimit - 1) n)

/-- The whole number nearest to `x`, which is not negative; half of one counts as one. -/
def nearestWhole (x : Float) : Nat :=
  match Decimal.shape x with
  | .finite _ mantissa exponent =>
    let value := Decimal.Ratio.ofBinary mantissa exponent
    (2 * value.num + value.den) / (2 * value.den)
  | _ => 0

/-- The greatest whole number that is not above `x`, within 64 bits. -/
def floorWhole (x : Float) : Int :=
  match Decimal.shape x with
  | .undefined => 0
  | .infinite negative => clampWord (if negative then -Decimal.wordLimit else Decimal.wordLimit)
  | .finite negative mantissa exponent =>
    let value := Decimal.Ratio.ofBinary mantissa exponent
    clampWord (if negative then -((value.num + value.den - 1) / value.den : Nat) else value.floor)

/-- The moment of a count that need not be whole. What it exceeds a whole count by is rounded to
microseconds. -/
def ofNumber (x : Float) : Except DateFault Timestamp :=
  let excess := x - x.floor
  if x.isNaN then .error .undefined
  else if x.abs ≤ Decimal.ofInt millisecondsAbove then
    ofMicros (floorWhole x * microsPerSecond + nearestWhole (excess * 1000000))
  else ofMicros (floorWhole x * 1000 + nearestWhole (excess * 1000))

/-- A whole number of 64 bits, possibly with a sign. -/
def wholeCount? (s : List Char) : Option Int :=
  let (negative, digits) := Decimal.splitSign s
  if digits.isEmpty || !digits.all Char.isDigit then none
  else
    let size : Int := Decimal.digitsValue digits
    let value := if negative then -size else size
    if Decimal.fitsWord value then some value else none

/-- A number with a point among or beside its digits, possibly with a sign. -/
def pointCount? (s : List Char) : Option Float :=
  let (negative, body) := Decimal.splitSign s
  let (front, rest) := Decimal.splitDigits body
  match rest with
  | '.' :: decimals =>
    if (front.isEmpty && decimals.isEmpty) || !decimals.all Char.isDigit then none
    else some (Decimal.assemble negative front decimals 0)
  | _ => none

/-- A count written as text. -/
def readCount? (s : List Char) : Option Timestamp :=
  match wholeCount? s with
  | some count => (ofCount count).toOption
  | none => (pointCount? s).bind fun x => (ofNumber x).toOption

/-- A date alone, which is the start of its day. -/
def readDay (s : List Char) : Except DateFault Timestamp :=
  match readDate s with
  | .ok (date, []) => .ok (.ofDate date 0 0 none)
  | .ok (_, _ :: _) => .error .extraCharacters
  | .error fault =>
    match wholeCount? s with
    | some count => ofCount count
    | none => .error fault

/-- A moment as text. The fault reported is that of the reading as a date alone. -/
def read (text : String) : Except DateFault Timestamp :=
  let s := octets text
  match (readMoment? s).or (readCount? s) with
  | some moment => .ok moment
  | none => readDay s

end ReplyFlow.Time
