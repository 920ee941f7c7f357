import ReplyFlow.Proofs.Time.Reading
import ReplyFlow.Schema.Scalar

/-! Whatever is accepted as a moment can be shown by the calendar and the clocks of the world. -/

set_option autoImplicit false

namespace ReplyFlow

open Text

namespace Time

theorem lt_of_number? {digits : List Char} {n : Nat} (read : number? digits = some n) :
    n < 10 ^ digits.length := by
  rw [number?] at read
  split at read
  next all =>
    cases read
    exact Decimal.digitsValue_lt (List.all_eq_true.mp all)
  next => cases read

theorem readDate_spec {s rest : List Char} {date : Date} (read : readDate s = .ok (date, rest)) :
    date.Valid ∧ date.year ≤ 9999 := by
  unfold readDate at read
  split at read
  next a b c d _ e f _ g h rest =>
    split at read
    · cases read
    next year years =>
    split at read
    · cases read
    split at read
    · cases read
    next month months =>
    split at read
    · cases read
    split at read
    · cases read
    next day days =>
    split at read
    · cases read
    next month =>
    split at read
    · cases read
    next day =>
    cases read
    simp only [Bool.or_eq_true, decide_eq_true_eq, not_or, not_lt] at month day
    have late : year < 10 ^ 4 := lt_of_number? years
    exact ⟨⟨month, day⟩, Nat.le_of_lt_succ (m := year) (n := 9999) late⟩
  next => cases read

theorem lt_of_readFraction? {s rest : List Char} {micros : Nat}
    (read : readFraction? s = some (micros, rest)) : micros < 1000000 := by
  unfold readFraction? at read
  split at read
  next mark tail =>
    split at read
    · rcases parts : Decimal.splitDigits tail with ⟨digits, after⟩
      have front : tail.takeWhile Char.isDigit = digits := congrArg Prod.fst parts
      rw [parts] at read
      simp only [Option.ite_none_left_eq_some, Option.some.injEq, Prod.mk.injEq] at read
      obtain ⟨-, rfl, -⟩ := read
      let kept := digits.take 6
      have all : ∀ c ∈ kept, c.isDigit := fun c member =>
        List.all_eq_true.mp List.all_takeWhile c (front ▸ List.mem_of_mem_take member)
      have short : kept.length ≤ 6 := List.length_take_le _ _
      calc Decimal.digitsValue kept * Nat.pow 10 (6 - kept.length)
          < 10 ^ kept.length * 10 ^ (6 - kept.length) :=
            Nat.mul_lt_mul_of_pos_right (Decimal.digitsValue_lt all) (Nat.pow_pos (by decide))
        _ = 1000000 := by rw [← Nat.pow_add, Nat.add_sub_cancel' short]
    · cases read
      decide
  next =>
    cases read
    decide

theorem lt_of_readSeconds? {s rest : List Char} {seconds micros : Nat}
    (read : readSeconds? s = some (seconds, micros, rest)) : seconds < 60 ∧ micros < 1000000 := by
  unfold readSeconds? at read
  split at read
  next a b tail =>
    split at read
    · simp only [Option.ite_none_left_eq_some, Option.map_eq_some_iff, Prod.exists,
        Prod.mk.injEq] at read
      obtain ⟨bound, _, _, fraction, rfl, rfl, rfl⟩ := read
      exact ⟨by omega, lt_of_readFraction? fraction⟩
    · cases read
  · cases read
  · cases read
    decide

theorem natAbs_lt_of_offsetMinutes? {sign value : Int} {hours minutes rest : List Char}
    (unit : sign.natAbs = 1) (read : offsetMinutes? sign hours minutes rest = some value) :
    value.natAbs < 24 * 60 := by
  unfold offsetMinutes? at read
  split at read
  · simp only [Option.ite_none_left_eq_some, Option.some.injEq, Bool.or_eq_true,
      decide_eq_true_eq, not_or, not_le] at read
    obtain ⟨⟨⟨_, bound⟩, _⟩, rfl⟩ := read
    rw [Int.natAbs_mul, unit, Nat.one_mul]
    omega
  · cases read

theorem natAbs_lt_of_signedOffset? {sign value : Int} {s : List Char} (unit : sign.natAbs = 1)
    (read : signedOffset? sign s = some value) : value.natAbs < 24 * 60 := by
  unfold signedOffset? at read
  split at read
  · exact natAbs_lt_of_offsetMinutes? unit read
  · exact natAbs_lt_of_offsetMinutes? unit read
  · cases read

theorem natAbs_lt_of_readOffset? {s : List Char} {offset : Option Int}
    (read : readOffset? s = some offset) : ∀ minutes ∈ offset, minutes.natAbs < 24 * 60 := by
  have signed (sign : Int) (unit : sign.natAbs = 1) (rest : List Char)
      (read : (signedOffset? sign rest).map some = some offset) :
      ∀ minutes ∈ offset, minutes.natAbs < 24 * 60 := by
    obtain ⟨value, known, rfl⟩ := Option.map_eq_some_iff.mp read
    rintro _ ⟨⟩
    exact natAbs_lt_of_signedOffset? unit known
  unfold readOffset? at read
  split at read
  · cases read
    exact nofun
  · cases read
    rintro _ ⟨⟩
    decide
  · cases read
    rintro _ ⟨⟩
    decide
  · exact signed 1 rfl _ read
  · exact signed (-1) rfl _ read
  · split at read
    · exact signed (-1) rfl _ read
    · cases read
  · cases read

/-! ## Moments -/

theorem bounded_ofDate {date : Date} (valid : date.Valid) (late : date.year ≤ 9999)
    {seconds micros : Nat} (inside : seconds < 86400) (bound : micros < 1000000)
    {offset : Option Int} (known : ∀ minutes ∈ offset, minutes.natAbs < 24 * 60) :
    (Timestamp.ofDate date seconds micros offset).Bounded := by
  refine ⟨?_, known⟩
  have before := Date.dayNumber_lt_beyond valid late
  simp only [Timestamp.ofDate, secondsPerDay, microsPerSecond]
  omega

theorem bounded_of_readClock? {date : Date} (valid : date.Valid) (late : date.year ≤ 9999)
    {s : List Char} {moment : Timestamp} (read : readClock? date s = some moment) :
    moment.Bounded := by
  unfold readClock? at read
  split at read
  · split at read
    next hours minutes _ _ =>
      split at read
      · cases read
      next clock =>
      simp only [Option.bind_eq_bind, Option.bind_eq_some_iff, Option.some.injEq, Prod.exists]
        at read
      obtain ⟨seconds, micros, rest, second, offset, known, rfl⟩ := read
      obtain ⟨below, bound⟩ := lt_of_readSeconds? second
      simp only [Bool.or_eq_true, decide_eq_true_eq, not_or, not_lt] at clock
      exact bounded_ofDate valid late (by omega) bound (natAbs_lt_of_readOffset? known)
    · cases read
  · cases read

theorem bounded_of_readMoment? {s : List Char} {moment : Timestamp}
    (read : readMoment? s = some moment) : moment.Bounded := by
  unfold readMoment? at read
  split at read
  next date mark rest dated =>
    split at read
    · obtain ⟨valid, late⟩ := readDate_spec dated
      exact bounded_of_readClock? valid late read
    · cases read
  · cases read

theorem bounded_ofMicros {total : Int} {moment : Timestamp} (read : ofMicros total = .ok moment) :
    moment.Bounded := by
  simp only [ofMicros] at read
  split at read
  · cases read
  split at read
  · cases read
  next late =>
  cases read
  refine ⟨?_, by rintro _ ⟨⟩; decide⟩
  have stop : Date.beyond.dayNumber = 2932897 := rfl
  simp only [Timestamp.universal, stop, lastSecond, secondsPerDay, microsPerSecond] at late ⊢
  omega

theorem bounded_ofNumber {x : Float} {moment : Timestamp} (read : ofNumber x = .ok moment) :
    moment.Bounded := by
  simp only [ofNumber] at read
  split at read
  · cases read
  split at read
  · exact bounded_ofMicros read
  · exact bounded_ofMicros read

theorem bounded_of_readCount? {s : List Char} {moment : Timestamp}
    (read : readCount? s = some moment) : moment.Bounded := by
  have kept (result : Except DateFault Timestamp) (known : result.toOption = some moment)
      (bounded : ∀ other, result = .ok other → other.Bounded) : moment.Bounded := by
    cases result with
    | ok other =>
      cases known
      exact bounded _ rfl
    | error => cases known
  unfold readCount? at read
  split at read
  · exact kept _ read fun _ => bounded_ofMicros
  · obtain ⟨x, _, counted⟩ := Option.bind_eq_some_iff.mp read
    exact kept _ counted fun _ => bounded_ofNumber

theorem bounded_of_readDay {s : List Char} {moment : Timestamp}
    (read : readDay s = .ok moment) : moment.Bounded := by
  unfold readDay at read
  split at read
  next date dated =>
    cases read
    obtain ⟨valid, late⟩ := readDate_spec dated
    exact bounded_ofDate valid late (by decide : 0 < 86400) (by decide : 0 < 1000000) nofun
  · cases read
  · split at read
    · exact bounded_ofMicros read
    · cases read

theorem bounded_of_read {text : String} {moment : Timestamp} (known : read text = .ok moment) :
    moment.Bounded := by
  rw [read] at known
  cases moments : readMoment? (octets text) with
  | some other =>
    rw [moments] at known
    cases known
    exact bounded_of_readMoment? moments
  | none =>
    rw [moments] at known
    cases counts : readCount? (octets text) with
    | some other =>
      rw [counts] at known
      cases known
      exact bounded_of_readCount? counts
    | none =>
      rw [counts] at known
      exact bounded_of_readDay known

end Time

namespace Schema

open Time

theorem inRange_of_momentWithin {value : Json} {found moment : Timestamp} (bounded : found.Bounded)
    (accepted : momentWithin value found = .ok moment) : moment.InRange := by
  rw [momentWithin] at accepted
  split at accepted
  next inCalendar =>
    cases accepted
    exact ⟨bounded, inCalendar⟩
  · cases accepted

theorem inRange_of_momentOfNumber {value : Json} {result : Except DateFault Timestamp}
    {found : Timestamp} (bounded : ∀ other, result = .ok other → other.Bounded)
    (accepted : momentOfNumber value result = .ok found) : found.InRange := by
  cases result with
  | ok other => exact inRange_of_momentWithin (bounded other rfl) accepted
  | error => cases accepted

/-- What is accepted as a moment is one that can be shown. -/
theorem inRange_of_moment {value : Json} {found : Timestamp}
    (accepted : moment value = .ok found) : found.InRange := by
  cases value with
  | text content =>
    change momentOfText content = .ok found at accepted
    rw [momentOfText] at accepted
    cases known : read content with
    | ok other =>
      rw [known] at accepted
      exact inRange_of_momentWithin (bounded_of_read known) accepted
    | error =>
      rw [known] at accepted
      cases accepted
  | whole n =>
    change momentOfWhole n = .ok found at accepted
    rw [momentOfWhole] at accepted
    split at accepted
    · exact inRange_of_momentOfNumber (fun _ => bounded_ofMicros) accepted
    split at accepted
    · exact inRange_of_momentOfNumber (fun _ => bounded_ofNumber) accepted
    · cases accepted
  | number x => exact inRange_of_momentOfNumber (fun _ => bounded_ofNumber) accepted
  | null | bool | list | object => cases accepted

end Schema

end ReplyFlow
