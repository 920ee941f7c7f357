import Mathlib.Tactic.IntervalCases
import ReplyFlow.Time.Calendar

/-! Dates and day numbers.

Both are turned into each other by way of years that begin in March: a day is given by such a year
and by its number in it. Four hundred of these years always have the same number of days, and within
them the year is found by leaving out the leap days.
-/

set_option autoImplicit false

namespace ReplyFlow.Time

/-- Days up to 1 March of a year, from 1 March of the year 0. -/
def daysBefore (year : Int) : Int :=
  365 * year + year / 4 - year / 100 + year / 400

theorem daysBefore_add (year era : Int) :
    daysBefore (year + 400 * era) = daysBefore year + 146097 * era := by
  simp only [daysBefore]
  omega

/-- The year of a day among the first four hundred years. -/
theorem year_of_era {day : Int} (low : 0 ≤ day) (high : day < 146097) {year : Int}
    (found : year = (day - day / 1460 + day / 36524 - day / 146096) / 365) :
    0 ≤ year ∧ year < 400 ∧ daysBefore year ≤ day ∧ day < daysBefore (year + 1) := by
  -- the last day of all would begin a fifth century, the others are in the century of their year
  have century : 0 ≤ year - 100 * (day / 36524) ∧ year - 100 * (day / 36524) < 100 ∨
      day = 146096 := by omega
  rcases century with inside | rfl
  · have notLast : day / 146096 = 0 := by omega
    have hundreds : year / 100 = day / 36524 := by omega
    have era : year / 400 = 0 := by omega
    rw [notLast] at found
    refine ⟨by omega, by omega, ?_, ?_⟩
    · rw [daysBefore, hundreds, era]
      clear hundreds era
      omega
    · rw [daysBefore]
      by_cases turn : year + 1 = 100 * (day / 36524 + 1)
      · rw [turn]
        omega
      · have hundreds : (year + 1) / 100 = day / 36524 := by omega
        have era : (year + 1) / 400 = 0 := by omega
        rw [hundreds, era]
        omega
  · subst found
    decide

namespace Date

/-- There is such a day in the calendar. -/
structure Valid (date : Date) : Prop where
  month : 1 ≤ date.month ∧ date.month ≤ 12
  day : 1 ≤ date.day ∧ date.day ≤ daysInMonth date.year date.month

/-- The date of a day in a year that begins in March. -/
def ofYearDay (year dayOfYear : Int) : Date :=
  let month := (5 * dayOfYear + 2) / 153
  let day := dayOfYear - (153 * month + 2) / 5 + 1
  if month < 10 then ⟨year.toNat, (month + 3).toNat, day.toNat⟩
  else ⟨(year + 1).toNat, (month - 9).toNat, day.toNat⟩

theorem exists_yearDay (number : Int) :
    ∃ year dayOfYear, ofDayNumber number = ofYearDay year dayOfYear ∧
      number + 719468 = daysBefore year + dayOfYear ∧
      0 ≤ dayOfYear ∧ daysBefore year + dayOfYear < daysBefore (year + 1) := by
  let era := (number + 719468) / 146097
  let day := (number + 719468) % 146097
  let year := (day - day / 1460 + day / 36524 - day / 146096) / 365
  have split : number + 719468 = 146097 * era + day := (Int.mul_ediv_add_emod _ _).symm
  have low : 0 ≤ day := Int.emod_nonneg _ (by decide)
  have high : day < 146097 := Int.emod_lt_of_pos _ (by decide)
  obtain ⟨first, last, after, before⟩ := year_of_era low high (rfl : year = _)
  have shown : day - (365 * year + year / 4 - year / 100) = day - daysBefore year := by
    rw [daysBefore]
    omega
  refine ⟨year + 400 * era, day - (365 * year + year / 4 - year / 100), rfl, ?_⟩
  rw [shown, Int.add_right_comm, daysBefore_add, daysBefore_add]
  omega

section

variable {year dayOfYear : Int}

theorem daysBefore_succ_le (year : Int) : daysBefore (year + 1) ≤ daysBefore year + 366 := by
  simp only [daysBefore]
  omega

theorem dayNumber_ofYearDay (early : 0 ≤ year) (low : 0 ≤ dayOfYear) (high : dayOfYear ≤ 365) :
    (ofYearDay year dayOfYear).dayNumber + 719468 = daysBefore year + dayOfYear := by
  have first : 0 ≤ (5 * dayOfYear + 2) / 153 := by omega
  have last : (5 * dayOfYear + 2) / 153 ≤ 11 := by omega
  have inside : (153 * ((5 * dayOfYear + 2) / 153) + 2) / 5 ≤ dayOfYear := by omega
  simp only [ofYearDay]
  generalize (5 * dayOfYear + 2) / 153 = month at first last inside ⊢
  split
  · have late : ¬ (month + 3).toNat ≤ 2 := by omega
    have index : ((month + 3).toNat + 9 : Int) % 12 = month := by omega
    simp only [dayNumber, daysBefore, if_neg late, index, Int.toNat_of_nonneg early]
    omega
  · have turned : (month - 9).toNat ≤ 2 := by omega
    have index : ((month - 9).toNat + 9 : Int) % 12 = month := by omega
    have before : ((year + 1).toNat - 1 : Int) = year := by omega
    simp only [dayNumber, daysBefore, if_pos turned, index, before]
    omega

theorem isLeap_of_long (early : 0 ≤ year) (long : daysBefore year + 365 < daysBefore (year + 1)) :
    isLeap (year + 1).toNat := by
  simp only [daysBefore] at long
  simp only [isLeap, Bool.and_eq_true, Bool.or_eq_true, decide_eq_true_eq]
  omega

theorem valid_ofYearDay (early : 0 ≤ year) (low : 0 ≤ dayOfYear)
    (high : daysBefore year + dayOfYear < daysBefore (year + 1)) :
    (ofYearDay year dayOfYear).Valid := by
  have bound := daysBefore_succ_le year
  have leap : dayOfYear = 365 → isLeap (year + 1).toNat := by
    rintro rfl
    exact isLeap_of_long early high
  have first : 0 ≤ (5 * dayOfYear + 2) / 153 := by omega
  have last : (5 * dayOfYear + 2) / 153 ≤ 11 := by omega
  simp only [ofYearDay]
  generalize same : (5 * dayOfYear + 2) / 153 = month at first last ⊢
  by_cases february : month = 11
  · subst february
    refine ⟨by simp, ?_⟩
    change 1 ≤ (dayOfYear - 337 + 1).toNat ∧
      (dayOfYear - 337 + 1).toNat ≤ if isLeap (year + 1).toNat then 29 else 28
    split
    next => omega
    next common =>
      have short : dayOfYear ≠ 365 := mt leap common
      omega
  · interval_cases month
    all_goals constructor
    all_goals simp [daysInMonth]
    all_goals omega

end

theorem daysInMonth_le (year month : Nat) : daysInMonth year month ≤ 31 := by
  rw [daysInMonth.eq_def]
  split
  · split <;> omega
  all_goals omega

/-- What begins the calendar, and what would come after its last day. -/
def first : Date := ⟨1, 1, 1⟩

def beyond : Date := ⟨10000, 1, 1⟩

theorem dayNumber_lt_beyond {date : Date} (valid : date.Valid) (late : date.year ≤ 9999) :
    date.dayNumber < beyond.dayNumber := by
  obtain ⟨year, month, day⟩ := date
  obtain ⟨⟨_, months⟩, _, days⟩ := valid
  have days := days.trans (daysInMonth_le year month)
  simp only at months days late
  have last : beyond.dayNumber = 2932897 := rfl
  rw [last]
  simp only [dayNumber]
  by_cases turn : year = 9999
  · subst turn
    split <;> omega
  · split <;> omega

/-- Every day of the calendar has a date, and the date has its number. -/
theorem ofDayNumber_spec {number : Int} (low : first.dayNumber ≤ number)
    (high : number < beyond.dayNumber) :
    (ofDayNumber number).Valid ∧ (ofDayNumber number).dayNumber = number ∧
      (ofDayNumber number).year ≤ 9999 := by
  obtain ⟨year, dayOfYear, same, sum, start, short⟩ := exists_yearDay number
  have bound := daysBefore_succ_le year
  have low : -719162 ≤ number := low
  have high : number < 2932897 := high
  have early : 0 ≤ year := by
    by_contra! negative
    simp only [daysBefore] at sum bound short
    omega
  have back := dayNumber_ofYearDay early start (by omega)
  rw [same]
  refine ⟨valid_ofYearDay early start short, by omega, ?_⟩
  have within : year ≤ 9999 := by
    by_contra! later
    simp only [daysBefore] at sum
    omega
  simp only [ofYearDay]
  split
  · change year.toNat ≤ 9999
    omega
  · change (year + 1).toNat ≤ 9999
    have turned : year ≠ 9999 := by
      rintro rfl
      have started : daysBefore 9999 = 3652059 := rfl
      omega
    omega

end Date

end ReplyFlow.Time
