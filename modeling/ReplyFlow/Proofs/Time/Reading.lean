import Mathlib.Data.List.Basic
import ReplyFlow.Proofs.Decimal.Digits
import ReplyFlow.Proofs.Time.Calendar
import ReplyFlow.Time.Reading

/-! A moment is read as it was written.

Both ways of writing one differ only in what they put at the end, and any end that is read as an
offset will do. All fields have a fixed width, except the decimals of a second: these are left out
where they are all zero, so what follows them must not look like decimals.
-/

set_option autoImplicit false

namespace ReplyFlow

/-! ## Digits -/

namespace Text

variable {width n : Nat}

theorem isDigit_of_mem_paddedDigits {c : Char} (member : c ∈ paddedDigits 10 width n) :
    c.isDigit := by
  rcases List.mem_append.mp member with padding | digit
  · rw [List.eq_of_mem_replicate padding]
    rfl
  · exact Nat.isDigit_of_mem_toDigits (by decide) (by decide) digit

theorem digitsValue_paddedDigits (width n : Nat) :
    Decimal.digitsValue (paddedDigits 10 width n) = n := by
  rw [paddedDigits]
  exact (Decimal.digitsValue_zeros_append _ _).trans (Decimal.digitsValue_toDigits n)

theorem length_paddedDigits_of_lt (positive : 0 < width) (bound : n < 10 ^ width) :
    (paddedDigits 10 width n).length = width := by
  have short := (Nat.length_toDigits_le_iff (by decide : 1 < 10) positive).mpr bound
  rw [length_paddedDigits, max_eq_left short]

end Text

namespace Time

open Text

theorem number?_paddedDigits (width n : Nat) : number? (paddedDigits 10 width n) = some n := by
  rw [number?, if_pos (List.all_eq_true.mpr fun c member => isDigit_of_mem_paddedDigits member),
    digitsValue_paddedDigits]

/-- Two digits. -/
theorem exists_pair {n : Nat} (bound : n < 100) :
    ∃ a b, paddedDigits 10 2 n = [a, b] ∧ number? [a, b] = some n := by
  have value := number?_paddedDigits 2 n
  obtain ⟨a, b, same⟩ := List.length_eq_two.mp (length_paddedDigits_of_lt (by decide) bound)
  exact ⟨a, b, same, same ▸ value⟩

/-! ## Texts and octets -/

/-- An ASCII text is examined character by character. -/
theorem octets_eq {text : String} (ascii : ∀ c ∈ text.toList, c.toNat < 128) :
    octets text = text.toList := by
  have encoded : text.toUTF8 = (text.toList.flatMap String.utf8EncodeChar).toByteArray := by
    conv_lhs => rw [← String.ofList_toList (s := text)]
    exact String.toByteArray_ofList
  rw [octets, encoded, List.data_toByteArray]
  generalize text.toList = s at ascii ⊢
  induction s with
  | nil => rfl
  | cons c rest ih =>
    obtain ⟨here, later⟩ := List.forall_mem_cons.mp ascii
    have single : c.utf8Size = 1 := Char.utf8Size_eq_one_iff.mpr (Nat.le_of_lt_succ here)
    have octet : c.val.toUInt8.toNat = c.toNat :=
      Nat.mod_eq_of_lt (here.trans (by decide : 128 < 2 ^ 8))
    rw [List.flatMap_cons, String.utf8EncodeChar_eq_singleton single, List.singleton_append,
      List.map_cons, octet, Char.ofNat_toNat]
    exact congrArg (List.cons c) (ih later)

/-! ## Dates -/

theorem readDate_append {date : Date} (valid : date.Valid) (late : date.year ≤ 9999)
    (rest : List Char) :
    readDate (paddedDigits 10 4 date.year ++ '-' :: (paddedDigits 10 2 date.month
      ++ '-' :: (paddedDigits 10 2 date.day ++ rest))) = .ok (date, rest) := by
  obtain ⟨⟨firstMonth, lastMonth⟩, firstDay, lastDay⟩ := valid
  have days := lastDay.trans (Date.daysInMonth_le date.year date.month)
  have year := number?_paddedDigits 4 date.year
  obtain ⟨a, b, c, d, years⟩ :=
    List.length_eq_four.mp (length_paddedDigits_of_lt (n := date.year) (by decide) (by omega))
  obtain ⟨e, f, months, month⟩ := exists_pair (n := date.month) (by omega)
  obtain ⟨g, h, dayDigits, day⟩ := exists_pair (n := date.day) (by omega)
  rw [years] at year ⊢
  rw [months, dayDigits]
  have inside : ¬ (date.month < 1 || 12 < date.month) := by simp; omega
  have known : ¬ (date.day < 1 || daysInMonth date.year date.month < date.day) := by simp; omega
  simp only [List.cons_append, List.nil_append, readDate, year, month, day, bne_self_eq_false,
    Bool.false_eq_true, if_false]
  rw [if_neg inside, if_neg known]

/-! ## Clocks -/

/-- What follows the decimals of a second must not be taken for one of them. -/
def Ends (s : List Char) : Prop :=
  ∀ c ∈ s.head?, c.isDigit = false ∧ c ≠ '.' ∧ c ≠ ','

theorem Ends.splitDigits {digits s : List Char} (ends : Ends s)
    (all : ∀ c ∈ digits, c.isDigit) : Decimal.splitDigits (digits ++ s) = (digits, s) :=
  Decimal.splitDigits_append all fun c first => (ends c first).1

theorem readFraction?_append {micros : Nat} (bound : micros < 1000000) {s : List Char}
    (ends : Ends s) : readFraction? ((fractionText micros).toList ++ s) = some (micros, s) := by
  rw [fractionText]
  split
  next whole =>
    subst whole
    cases s with
    | nil => rfl
    | cons c rest =>
      obtain ⟨_, point, comma⟩ := ends c rfl
      simp [readFraction?, point, comma]
  next =>
    have all : ∀ c ∈ paddedDigits 10 6 micros, c.isDigit :=
      fun _ member => isDigit_of_mem_paddedDigits member
    have digits := ends.splitDigits all
    have length : (paddedDigits 10 6 micros).length = 6 :=
      length_paddedDigits_of_lt (by decide) bound
    have some : (paddedDigits 10 6 micros).isEmpty = false := by
      rw [List.isEmpty_eq_false_iff_exists_mem]
      exact List.exists_mem_of_length_pos (by omega)
    simp [fixedWidth, readFraction?, digits, some, List.take_of_length_le, length,
      digitsValue_paddedDigits]

theorem readSeconds?_append {seconds micros : Nat} (second : seconds < 60)
    (bound : micros < 1000000) {s : List Char} (ends : Ends s) :
    readSeconds? (':' :: (paddedDigits 10 2 seconds ++ ((fractionText micros).toList ++ s))) =
      some (seconds, micros, s) := by
  obtain ⟨a, b, digits, value⟩ := exists_pair (n := seconds) (by omega)
  have late : ¬ 59 < seconds := by omega
  rw [digits]
  simp only [List.cons_append, List.nil_append, readSeconds?, value, if_neg late,
    readFraction?_append bound ends, Option.map_some]

theorem readClock?_append (date : Date) {seconds micros : Nat} (inside : seconds < 86400)
    (bound : micros < 1000000) {s : List Char} (ends : Ends s) {offset : Option Int}
    (read : readOffset? s = some offset) :
    readClock? date ((clockText seconds).toList ++ ((fractionText micros).toList ++ s)) =
      some (.ofDate date seconds micros offset) := by
  obtain ⟨a, b, hourDigits, hours⟩ := exists_pair (n := seconds / 3600) (by omega)
  obtain ⟨c, d, minuteDigits, minutes⟩ := exists_pair (n := seconds / 60 % 60) (by omega)
  have early : ¬ (23 < seconds / 3600 || 59 < seconds / 60 % 60) := by simp; omega
  have sum : (seconds / 3600 * 60 + seconds / 60 % 60) * 60 + seconds % 60 = seconds := by omega
  have rest := readSeconds?_append (Nat.mod_lt seconds (by decide)) bound ends
  have colon : ":".toList = [':'] := rfl
  simp only [clockText, fixedWidth, String.toList_append, String.toList_ofList, hourDigits,
    minuteDigits, colon, List.cons_append, List.nil_append, readClock?, hours, minutes, rest]
  rw [if_neg early, Option.bind_eq_bind, Option.bind_some, read, Option.bind_eq_bind,
    Option.bind_some, sum]

/-! ## Offsets -/

theorem signedOffset?_digits (sign : Int) {minutes : Nat} (bound : minutes < 1440) :
    signedOffset? sign (paddedDigits 10 2 (minutes / 60)
      ++ ':' :: paddedDigits 10 2 (minutes % 60)) = some (sign * minutes) := by
  obtain ⟨a, b, hourDigits, hours⟩ := exists_pair (n := minutes / 60) (by omega)
  obtain ⟨c, d, minuteDigits, rest⟩ := exists_pair (n := minutes % 60) (by omega)
  have inside : ¬ (59 < minutes % 60 || 24 * 60 ≤ minutes / 60 * 60 + minutes % 60
      || !([] : List Char).isEmpty) := by
    simp
    omega
  have sum : ((minutes / 60 : ℕ) * 60 + (minutes % 60 : ℕ) : Int) = minutes := by omega
  rw [hourDigits, minuteDigits]
  simp only [List.cons_append, List.nil_append, signedOffset?, offsetMinutes?, hours, rest]
  rw [if_neg inside, sum]

theorem toList_offsetText (minutes : Int) :
    (offsetText minutes).toList = (if minutes < 0 then '-' else '+')
      :: (paddedDigits 10 2 (minutes.natAbs / 60)
        ++ ':' :: paddedDigits 10 2 (minutes.natAbs % 60)) := by
  rw [offsetText]
  split <;> simp [fixedWidth]

theorem ends_offsetText (minutes : Int) : Ends (offsetText minutes).toList := by
  rw [toList_offsetText]
  rintro _ ⟨⟩
  split <;> decide

theorem readOffset?_offsetText {minutes : Int} (bound : minutes.natAbs < 1440) :
    readOffset? (offsetText minutes).toList = some (some minutes) := by
  rw [toList_offsetText]
  split
  next behind =>
    have value : (-1 : Int) * minutes.natAbs = minutes := by omega
    rw [readOffset?, signedOffset?_digits (-1) bound, value, Option.map_some]
  next ahead =>
    have value : (1 : Int) * minutes.natAbs = minutes := by omega
    rw [readOffset?, signedOffset?_digits 1 bound, value, Option.map_some]

/-! ## Texts without other characters -/

def Ascii (text : String) : Prop :=
  ∀ c ∈ text.toList, c.toNat < 128

theorem Ascii.append {first second : String} (front : Ascii first) (back : Ascii second) :
    Ascii (first ++ second) := by
  intro c member
  rw [String.toList_append] at member
  exact (List.mem_append.mp member).elim (front c) (back c)

theorem ascii_fixedWidth (width n : Nat) : Ascii (fixedWidth width n) := by
  intro c member
  rw [fixedWidth, String.toList_ofList] at member
  obtain ⟨_, high⟩ := isDigit_iff_toNat.mp (isDigit_of_mem_paddedDigits member)
  omega

theorem ascii_mark : ∀ mark ∈ ["", "-", ":", "T", ".", "+", "Z"], Ascii mark := by
  simp [Ascii]

theorem ascii_clockText (seconds : Nat) : Ascii (clockText seconds) := by
  have colon := ascii_mark ":" (by decide)
  exact ((((ascii_fixedWidth _ _).append colon).append (ascii_fixedWidth _ _)).append colon).append
    (ascii_fixedWidth _ _)

theorem ascii_fractionText (micros : Nat) : Ascii (fractionText micros) := by
  rw [fractionText]
  split
  · exact ascii_mark "" (by decide)
  · exact (ascii_mark "." (by decide)).append (ascii_fixedWidth _ _)

theorem ascii_offsetText (minutes : Int) : Ascii (offsetText minutes) := by
  have sign : Ascii (if minutes < 0 then "-" else "+") := by
    split
    · exact ascii_mark "-" (by decide)
    · exact ascii_mark "+" (by decide)
  exact ((sign.append (ascii_fixedWidth _ _)).append (ascii_mark ":" (by decide))).append
    (ascii_fixedWidth _ _)

theorem ascii_localText (moment : Timestamp) : Ascii moment.localText := by
  have dash := ascii_mark "-" (by decide)
  have date (year month day : Nat) :
      Ascii (fixedWidth 4 year ++ "-" ++ fixedWidth 2 month ++ "-" ++ fixedWidth 2 day ++ "T") :=
    (((((ascii_fixedWidth _ _).append dash).append (ascii_fixedWidth _ _)).append dash).append
      (ascii_fixedWidth _ _)).append (ascii_mark "T" (by decide))
  exact ((date _ _ _).append (ascii_clockText _)).append (ascii_fractionText _)

/-! ## Moments -/

/-- A local time that is no later than the calendar, and an offset of less than a day. -/
structure Timestamp.Bounded (moment : Timestamp) : Prop where
  beforeEnd : moment.micros < Date.beyond.dayNumber * secondsPerDay * microsPerSecond
  offset : ∀ minutes ∈ moment.offset, minutes.natAbs < 24 * 60

/-- A moment as the calendar and the clocks of the world can show it. -/
structure Timestamp.InRange (moment : Timestamp) : Prop extends moment.Bounded where
  inCalendar : moment.inCalendar

theorem readMoment?_append {moment : Timestamp} (inRange : moment.InRange) {s : List Char}
    (ends : Ends s) (offset : readOffset? s = some moment.offset) :
    readMoment? (moment.localText.toList ++ s) = some moment := by
  obtain ⟨⟨high, -⟩, low⟩ := inRange
  obtain ⟨micros, minutes⟩ := moment
  have start : Date.first.dayNumber = -719162 := rfl
  have stop : Date.beyond.dayNumber = 2932897 := rfl
  rw [Timestamp.inCalendar, decide_eq_true_eq] at low
  change Date.first.dayNumber * secondsPerDay * microsPerSecond ≤ micros at low
  change micros < Date.beyond.dayNumber * secondsPerDay * microsPerSecond at high
  have early : Date.first.dayNumber ≤ micros / microsPerSecond / secondsPerDay := by
    simp only [start, microsPerSecond, secondsPerDay] at low ⊢
    omega
  have late : micros / microsPerSecond / secondsPerDay < Date.beyond.dayNumber := by
    simp only [stop, microsPerSecond, secondsPerDay] at high ⊢
    omega
  have inside : (micros / microsPerSecond % secondsPerDay).toNat < 86400 := by
    simp only [microsPerSecond, secondsPerDay]
    omega
  have bound : (micros % microsPerSecond).toNat < 1000000 := by
    simp only [microsPerSecond]
    omega
  have sum : (micros / microsPerSecond / secondsPerDay * secondsPerDay
      + (micros / microsPerSecond % secondsPerDay).toNat) * microsPerSecond
      + (micros % microsPerSecond).toNat = micros := by
    simp only [microsPerSecond, secondsPerDay]
    omega
  obtain ⟨valid, number, year⟩ := Date.ofDayNumber_spec early late
  have dash : "-".toList = ['-'] := rfl
  have letter : "T".toList = ['T'] := rfl
  simp only [Timestamp.localText, fixedWidth, String.toList_append, String.toList_ofList, dash,
    letter, List.append_assoc, List.cons_append, List.nil_append, readMoment?,
    readDate_append valid year, readClock?_append _ inside bound ends offset]
  rw [if_pos (by decide), Timestamp.ofDate, number, sum]

/-- A moment is read with any end that stands for its offset. -/
theorem read_append {moment : Timestamp} (inRange : moment.InRange) {suffix : String}
    (ascii : Ascii suffix) (ends : Ends suffix.toList)
    (offset : readOffset? suffix.toList = some moment.offset) :
    read (moment.localText ++ suffix) = .ok moment := by
  rw [read, octets_eq ((ascii_localText moment).append ascii), String.toList_append,
    readMoment?_append inRange ends offset]
  rfl

theorem ends_nil : Ends [] := nofun

theorem read_text {moment : Timestamp} (inRange : moment.InRange) :
    read moment.text = .ok moment := by
  cases offset : moment.offset with
  | none =>
    rw [Timestamp.text, offset]
    exact read_append inRange (ascii_mark "" (by decide)) ends_nil (by rw [offset]; rfl)
  | some minutes =>
    rw [Timestamp.text, offset]
    by_cases universal : minutes = 0
    · subst universal
      exact read_append inRange (ascii_mark "Z" (by decide)) (by rintro _ ⟨⟩; decide)
        (by rw [offset]; rfl)
    · simp only [if_neg universal]
      exact read_append inRange (ascii_offsetText minutes) (ends_offsetText minutes)
        (offset ▸ readOffset?_offsetText (inRange.offset minutes offset))

theorem read_rowText {moment : Timestamp} (inRange : moment.InRange) :
    read moment.rowText = .ok moment := by
  cases offset : moment.offset with
  | none =>
    rw [Timestamp.rowText, offset]
    exact read_append inRange (ascii_mark "" (by decide)) ends_nil (by rw [offset]; rfl)
  | some minutes =>
    rw [Timestamp.rowText, offset]
    exact read_append inRange (ascii_offsetText minutes) (ends_offsetText minutes)
      (by rw [offset]; exact readOffset?_offsetText (inRange.offset minutes offset))

end Time

end ReplyFlow
