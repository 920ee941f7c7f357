/-! Days of the Gregorian calendar, counted from 1 January 1970. -/

set_option autoImplicit false

namespace ReplyFlow.Time

structure Date where
  year : Nat
  month : Nat
  day : Nat
  deriving Repr, DecidableEq

def isLeap (year : Nat) : Bool :=
  year % 4 = 0 && (year % 100 ≠ 0 || year % 400 = 0)

def daysInMonth (year : Nat) : Nat → Nat
  | 2 => if isLeap year then 29 else 28
  | 4 | 6 | 9 | 11 => 30
  | _ => 31

/-- Days from 1 January 1970. Years begin in March here, so that a leap day ends one. -/
def Date.dayNumber (date : Date) : Int :=
  let year : Int := if date.month ≤ 2 then (date.year : Int) - 1 else date.year
  let month : Int := ((date.month : Int) + 9) % 12
  let dayOfYear := (153 * month + 2) / 5 + date.day - 1
  365 * year + year / 4 - year / 100 + year / 400 + dayOfYear - 719468

/-- The date of a day number. -/
def Date.ofDayNumber (number : Int) : Date :=
  let shifted := number + 719468
  let era := shifted / 146097
  let dayOfEra := shifted % 146097
  let yearOfEra :=
    (dayOfEra - dayOfEra / 1460 + dayOfEra / 36524 - dayOfEra / 146096) / 365
  let dayOfYear := dayOfEra - (365 * yearOfEra + yearOfEra / 4 - yearOfEra / 100)
  let month := (5 * dayOfYear + 2) / 153
  let day := dayOfYear - (153 * month + 2) / 5 + 1
  let year := yearOfEra + 400 * era
  if month < 10 then ⟨year.toNat, (month + 3).toNat, day.toNat⟩
  else ⟨(year + 1).toNat, (month - 9).toNat, day.toNat⟩

end ReplyFlow.Time
