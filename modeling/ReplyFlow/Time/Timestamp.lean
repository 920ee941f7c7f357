import ReplyFlow.Text.Digits
import ReplyFlow.Time.Calendar

/-! A moment as it is written: the reading of a local clock, and how far that clock is ahead of
universal time, if this is known. -/

set_option autoImplicit false

namespace ReplyFlow.Time

/-- `micros` are local microseconds from the start of 1970, `offset` is in minutes. -/
structure Timestamp where
  micros : Int
  offset : Option Int
  deriving Repr, DecidableEq, Inhabited

def Timestamp.universal (micros : Int) : Timestamp :=
  ⟨micros, some 0⟩

def microsPerSecond : Int := 1000000

def secondsPerDay : Int := 86400

def Timestamp.ofDate (date : Date) (seconds micros : Int) (offset : Option Int) : Timestamp :=
  ⟨(date.dayNumber * secondsPerDay + seconds) * microsPerSecond + micros, offset⟩

/-- The local clock shows a year of the calendar, which begins with the year 1. -/
def Timestamp.inCalendar (moment : Timestamp) : Bool :=
  (⟨1, 1, 1⟩ : Date).dayNumber * secondsPerDay * microsPerSecond ≤ moment.micros

def fixedWidth (width n : Nat) : String :=
  String.ofList (Text.paddedDigits 10 width n)

def clockText (seconds : Nat) : String :=
  fixedWidth 2 (seconds / 3600) ++ ":" ++ fixedWidth 2 (seconds / 60 % 60) ++ ":"
    ++ fixedWidth 2 (seconds % 60)

/-- Six digits, or nothing at all on a full second. -/
def fractionText (micros : Nat) : String :=
  if micros = 0 then "" else "." ++ fixedWidth 6 micros

def offsetText (minutes : Int) : String :=
  (if minutes < 0 then "-" else "+") ++ fixedWidth 2 (minutes.natAbs / 60) ++ ":"
    ++ fixedWidth 2 (minutes.natAbs % 60)

def Timestamp.localText (moment : Timestamp) : String :=
  let seconds := moment.micros / microsPerSecond
  let date := Date.ofDayNumber (seconds / secondsPerDay)
  fixedWidth 4 date.year ++ "-" ++ fixedWidth 2 date.month ++ "-" ++ fixedWidth 2 date.day ++ "T"
    ++ clockText (seconds % secondsPerDay).toNat
    ++ fractionText (moment.micros % microsPerSecond).toNat

/-- The text with a numeric offset, as it stands in table rows. -/
def Timestamp.rowText (moment : Timestamp) : String :=
  moment.localText ++ match moment.offset with
    | none => ""
    | some minutes => offsetText minutes

/-- The text in which universal time is marked by the letter `Z`. -/
def Timestamp.text (moment : Timestamp) : String :=
  moment.localText ++ match moment.offset with
    | none => ""
    | some minutes => if minutes = 0 then "Z" else offsetText minutes

end ReplyFlow.Time
