import ReplyFlow.Json.Display
import ReplyFlow.Schema.Checked
import ReplyFlow.Text.Surrogate
import ReplyFlow.Time.Reading

/-! Checks of single values.

They are lenient: numerals and words for yes and no are accepted as text, whole numbers in the
place of numbers, numbers without a fraction in the place of whole ones.
-/

set_option autoImplicit false

namespace ReplyFlow.Schema

def text : Json → Checked String
  | .text value => .ok value
  | value => .fault .notText value

/-- A text of limited length, counted in characters. -/
def textWithin (least most : Nat) (value : Json) : Checked String :=
  (text value).andThen fun content =>
    if !Text.isWhole content then .fault .brokenText value
    else if content.length < least then .fault (.tooShort least) value
    else if most < content.length then .fault (.tooLong most) value
    else .ok content

/-- Numbers beyond 64 bits are not taken for whole ones. -/
def wholeOfNumber (x : Float) : Checked Int :=
  if !x.isFinite then .fault .notFinite (.number x)
  else
    match Decimal.whole? x with
    | none => .fault .fractional (.number x)
    | some n => if n.natAbs < Nat.pow 2 63 then .ok n else .fault .hugeWhole (.number x)

def wholeOfText (content : String) : Checked Int :=
  match Decimal.readWhole content.toList with
  | .ok n => .ok n
  | .error .unreadable => .fault .unreadableWhole (.text content)
  | .error .tooLong => .fault .hugeWhole (.text content)

def whole : Json → Checked Int
  | .whole value => .ok value
  | .bool value => .ok (if value then 1 else 0)
  | .number value => wholeOfNumber value
  | .text value => wholeOfText value
  | value => .fault .notWhole value

def wholeFrom (least : Int) (value : Json) : Checked Int :=
  (whole value).andThen fun n => if n < least then .fault (.below least) value else .ok n

/-- A whole number that is not negative. -/
def count (value : Json) : Checked Nat :=
  (wholeFrom 0 value).map Int.toNat

def wholeWithin (least most : Int) (value : Json) : Checked Int :=
  (wholeFrom least value).andThen fun n => if most < n then .fault (.above most) value else .ok n

def number : Json → Checked Float
  | .number value => .ok value
  | .whole value =>
    let x := Decimal.ofInt value
    if x.isFinite then .ok x else .fault .notNumber (.whole value)
  | .bool value => .ok (if value then 1 else 0)
  | .text value =>
    match Decimal.readNumber? value.toList with
    | some x => .ok x
    | none => .fault .unreadableNumber (.text value)
  | value => .fault .notNumber value

def positiveNumber (value : Json) : Checked Float :=
  (number value).andThen fun x => if 0 < x then .ok x else .fault (.notAbove 0) value

def yesWords : List String :=
  ["true", "t", "yes", "y", "on", "1"]

def noWords : List String :=
  ["false", "f", "no", "n", "off", "0"]

def flagOfWhole (n : Int) : Checked Bool :=
  if n = 0 then .ok false
  else if n = 1 then .ok true
  else if Decimal.fitsWord n then .fault .unreadableFlag (.whole n)
  else .fault .notFlag (.whole n)

def flagOfText (content : String) : Checked Bool :=
  let word := content.toLower
  if yesWords.contains word then .ok true
  else if noWords.contains word then .ok false
  else .fault .unreadableFlag (.text content)

def flagOfNumber (x : Float) : Checked Bool :=
  match wholeOfNumber x with
  | .ok n => if n = 0 || n = 1 then .ok (n = 1) else .fault .unreadableFlag (.number x)
  | .bad _ => .fault .notFlag (.number x)

def flag : Json → Checked Bool
  | .bool value => .ok value
  | .text value => flagOfText value
  | .whole value => flagOfWhole value
  | .number value => flagOfNumber value
  | value => .fault .notFlag value

/-- A moment that was read from `value` has to lie in the calendar. -/
def momentWithin (value : Json) (moment : Time.Timestamp) : Checked Time.Timestamp :=
  if moment.inCalendar then .ok moment
  else .fault (.momentOutOfRange Time.DateFault.yearZero.message) value

def momentOfText (content : String) : Checked Time.Timestamp :=
  match Time.read content with
  | .ok moment => momentWithin (.text content) moment
  | .error fault => .fault (.unreadableMoment fault.message) (.text content)

/-- The moment that a number stands for. -/
def momentOfNumber (value : Json) (moment : Except Time.DateFault Time.Timestamp) :
    Checked Time.Timestamp :=
  match moment with
  | .ok moment => momentWithin value moment
  | .error fault => .fault (.momentOutOfRange fault.message) value

def momentOfWhole (n : Int) : Checked Time.Timestamp :=
  if Decimal.fitsWord n then momentOfNumber (.whole n) (Time.ofCount n)
  else if (Decimal.ofInt n).isFinite then
    momentOfNumber (.whole n) (Time.ofNumber (Decimal.ofInt n))
  else .fault .notMoment (.whole n)

def moment : Json → Checked Time.Timestamp
  | .text value => momentOfText value
  | .whole value => momentOfWhole value
  | .number value => momentOfNumber (.number value) (Time.ofNumber value)
  | value => .fault .notMoment value

/-- `null`, or what `check` accepts. -/
def nullable {α : Type} (check : Json → Checked α) : Json → Checked (Option α)
  | .null => .ok none
  | value => (check value).map some

/-- One of the named constants. -/
def oneOf {α : Type} (cause : List String → Cause) (choices : List (String × α)) (value : Json) :
    Checked α :=
  let refused := Checked.fault (cause (choices.map Prod.fst)) value
  match value with
  | .text name =>
    match choices.lookup name with
    | some meaning => .ok meaning
    | none => refused
  | _ => refused

def member {α : Type} (choices : List (String × α)) : Json → Checked α :=
  oneOf .notMember choices

def literal {α : Type} (choices : List (String × α)) : Json → Checked α :=
  oneOf .notLiteral choices

def list {α : Type} (check : Json → Checked α) : Json → Checked (List α)
  | .list items => checkItems check 0 items
  | value => .fault .notList value

end ReplyFlow.Schema
