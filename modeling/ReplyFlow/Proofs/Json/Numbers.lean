import ReplyFlow.Json.Parser
import ReplyFlow.Json.Printer
import ReplyFlow.Proofs.Decimal.Written

/-! Numbers are read back from the numerals that are written of them. -/

set_option autoImplicit false

namespace ReplyFlow.Json

open Decimal

/-- What follows a value: nothing, or a character that belongs to no number. -/
def Stops (s : List Char) : Prop :=
  ∀ c ∈ s.head?, c = ',' ∨ c = ']' ∨ c = '\x7d'

variable {rest : List Char}

theorem Stops.not_isDigit (stops : Stops rest) : ∀ c ∈ rest.head?, c.isDigit = false := by
  intro c first
  rcases stops c first with rfl | rfl | rfl <;> rfl

theorem Stops.readDecimals_eq (stops : Stops rest) : readDecimals rest = ([], rest) := by
  cases rest with
  | nil => rfl
  | cons c rest => rcases stops c rfl with rfl | rfl | rfl <;> rfl

theorem Stops.readPower_eq (stops : Stops rest) : readPower rest = (none, rest) := by
  cases rest with
  | nil => rfl
  | cons c rest => rcases stops c rfl with rfl | rfl | rfl <;> rfl

/-- Digits without a zero in front that could be left out. -/
structure Front (digits : List Char) : Prop where
  all : ∀ c ∈ digits, c.isDigit
  nonempty : digits ≠ []
  lead : digits.head? = some '0' → digits = ['0']

theorem front_singleton {c : Char} (digit : c.isDigit) : Front [c] where
  all := by
    intro other member
    rwa [List.mem_singleton.mp member]
  nonempty := List.cons_ne_nil _ _
  lead first := by rw [Option.some.inj first]

/-- What is made of a numeral whose digits are read up to `tail`. -/
def finish (negative : Bool) (digits tail : List Char) : Step Json :=
  let (decimals, rest) := readDecimals tail
  let (power, rest) := readPower rest
  if decimals.isEmpty && power.isNone then
    .ok (.whole (if negative then -(digitsValue digits : Int) else digitsValue digits), rest)
  else .ok (.number (assemble negative digits decimals (power.getD 0)), rest)

theorem readNumeral_eq (negative : Bool) {digits : List Char} (front : Front digits)
    (few : digits.length ≤ digitLimit) {tail : List Char}
    (stop : ∀ c ∈ tail.head?, c.isDigit = false) :
    readNumeral (signText negative ++ (digits ++ tail)) = finish negative digits tail := by
  obtain ⟨first, more, rfl⟩ := List.exists_cons_of_ne_nil front.nonempty
  rw [List.length_cons] at few
  have short := Nat.not_lt.mpr few
  have minus : first ≠ '-' := by
    rintro rfl
    exact absurd (front.all '-' List.mem_cons_self) (by decide)
  by_cases zero : first = '0'
  · subst zero
    obtain rfl : more = [] := List.tail_eq_of_cons_eq (front.lead rfl)
    cases negative <;> rfl
  · have parts := splitDigits_append front.all stop
    rw [List.cons_append] at parts
    cases negative <;>
      simp [readNumeral, signText, finish, zero, minus, parts, short]

theorem readDecimals_point {decimals : List Char} (all : ∀ c ∈ decimals, c.isDigit)
    (nonempty : decimals ≠ []) {tail : List Char} (stop : ∀ c ∈ tail.head?, c.isDigit = false) :
    readDecimals ('.' :: (decimals ++ tail)) = (decimals, tail) := by
  obtain ⟨first, more, rfl⟩ := List.exists_cons_of_ne_nil nonempty
  obtain ⟨digit, others⟩ := List.forall_mem_cons.mp all
  simp [readDecimals, digit, splitDigits_append others stop]

theorem readPower_powerText (power : Int) (stops : Stops rest) :
    readPower (powerText power ++ rest) = (some power, rest) := by
  have parts := splitDigits_append (all_powerDigits power) stops.not_isDigit
  have nonempty : zeros (2 - (Nat.toDigits 10 power.natAbs).length)
      ++ Nat.toDigits 10 power.natAbs ≠ [] :=
    List.append_ne_nil_of_right_ne_nil _ Nat.toDigits_ne_nil
  have value := (digitsValue_zeros_append (2 - (Nat.toDigits 10 power.natAbs).length) _).trans
    (digitsValue_toDigits power.natAbs)
  rw [powerText, List.cons_append, List.cons_append]
  generalize zeros _ ++ Nat.toDigits 10 power.natAbs = digits at parts nonempty value
  have empty : digits.isEmpty = false := List.isEmpty_eq_false_iff.mpr nonempty
  split
  · next below => simp [readPower, splitSign, parts, empty, value, abs_of_neg below]
  · next above => simp [readPower, splitSign, parts, empty, value, abs_of_nonneg (not_lt.mp above)]

/-- No digit follows the decimals, nor the digits before a point. -/
theorem Stops.not_isDigit_power (stops : Stops rest) (power : Option Int) :
    ∀ c ∈ (power.elim [] powerText ++ rest).head?, c.isDigit = false := by
  cases power with
  | none => exact stops.not_isDigit
  | some power =>
    rintro _ ⟨⟩
    rfl

theorem Stops.not_isDigit_point (stops : Stops rest) (decimals : List Char) (power : Option Int) :
    ∀ c ∈ (pointText decimals ++ (power.elim [] powerText ++ rest)).head?, c.isDigit = false := by
  rw [pointText]
  split
  · exact stops.not_isDigit_power power
  · rintro _ ⟨⟩
    rfl

/-- A numeral that has neither decimals nor a power of ten is a whole number. -/
theorem finish_text (negative : Bool) (digits : List Char) {decimals : List Char}
    (all : ∀ c ∈ decimals, c.isDigit) (power : Option Int) (stops : Stops rest) :
    finish negative digits (pointText decimals ++ (power.elim [] powerText ++ rest)) =
      if decimals.isEmpty && power.isNone then
        .ok (.whole (if negative then -(digitsValue digits : Int) else digitsValue digits), rest)
      else .ok (.number (assemble negative digits decimals (power.getD 0)), rest) := by
  have tail : readPower (power.elim [] powerText ++ rest) = (power, rest) := by
    cases power with
    | none => exact stops.readPower_eq
    | some power => exact readPower_powerText power stops
  have point : readDecimals (pointText decimals ++ (power.elim [] powerText ++ rest)) =
      (decimals, power.elim [] powerText ++ rest) := by
    rw [pointText]
    split
    · next none =>
      rw [none]
      cases power with
      | none => exact stops.readDecimals_eq
      | some power => rfl
    · next some => exact readDecimals_point all some (stops.not_isDigit_power power)
  rw [finish, point]
  dsimp only
  rw [tail]

/-! ### Written numerals -/

/-- What is read of a numeral: a number with its value, in digits and a power of ten. -/
def Reads (negative : Bool) (n : Numeral) (text rest : List Char) : Prop :=
  ∃ (count : Nat) (power : Int), (count : ℚ) * 10 ^ power = n.value ∧
    readNumeral (signText negative ++ (text ++ rest)) =
      .ok (.number (withSign negative (ofDecimal count power)), rest)

variable {n : Numeral}

/-- A number is read from what is written of its numeral. -/
theorem reads_write (proper : n.Proper) (negative : Bool) (stops : Stops rest) :
    Reads negative n (plainStyle.write n) rest := by
  obtain ⟨parts, writes⟩ := plainStyle.exists_parts proper
  obtain ⟨all, nonempty, lead, decimals⟩ := writes.proper
  have few : parts.front.length ≤ digitLimit := writes.width.trans (by decide)
  have read := readNumeral_eq negative ⟨all, nonempty, lead⟩ few
    (stops.not_isDigit_point parts.decimals parts.power)
  have number : (parts.decimals.isEmpty && parts.power.isNone) = false := by
    rw [Bool.and_eq_false_imp, List.isEmpty_iff]
    intro whole
    rw [Option.isNone_eq_false_iff]
    exact writes.marked rfl whole
  rw [finish_text negative _ decimals _ stops, number, if_neg Bool.false_ne_true] at read
  refine ⟨_, _, writes.value, ?_⟩
  rw [writes.text, Parts.text, List.append_assoc, List.append_assoc]
  exact read

/-! ### Numbers -/

theorem front_toDigits (n : Nat) : Front (Nat.toDigits 10 n) where
  all _ member := Nat.isDigit_of_mem_toDigits (by decide) (by decide) member
  nonempty := Nat.toDigits_ne_nil
  lead first := by rw [eq_zero_of_head?_toDigits first, Nat.toDigits_zero]

/-- A whole number is read back if it has no more digits than one may have. -/
theorem readNumeral_whole {value : Int} (short : decimalLength value.natAbs ≤ digitLimit)
    (stops : Stops rest) :
    readNumeral ((toString value).toList ++ rest) = .ok (.whole value, rest) := by
  have shown : (toString value).toList = numeral value := toList_repr value
  rw [shown]
  cases value with
  | ofNat n =>
    have read := readNumeral_eq false (front_toDigits n) short stops.not_isDigit
    have whole := finish_text false (Nat.toDigits 10 n) (List.forall_mem_nil _) none stops
    rw [digitsValue_toDigits] at whole
    exact read.trans whole
  | negSucc n =>
    have read := readNumeral_eq true (front_toDigits (n + 1)) short stops.not_isDigit
    have whole := finish_text true (Nat.toDigits 10 (n + 1)) (List.forall_mem_nil _) none
      stops
    rw [digitsValue_toDigits] at whole
    exact read.trans whole

/-- A finite number is read back. -/
theorem readNumeral_number {value : Float} (finite : value.isFinite) (stops : Stops rest) :
    readNumeral ((numberText value).toList ++ rest) = .ok (.number value, rest) := by
  have stored := stored_unpack value
  have shown := shape_eq value
  rw [numberText, if_pos finite, plainText, NumeralStyle.shortestText, NumeralStyle.text, shown]
  have finite : value.toModel.unpack.isFinite := finite
  cases same : value.toModel.unpack with
  | notANumber | infinity =>
    rw [same] at finite
    cases finite
  | zero sign =>
    rw [shapeOf, String.toList_ofList, List.append_assoc]
    obtain ⟨count, power, worth, read⟩ := reads_write Numeral.proper_zero (minus sign) stops
    have none : count = 0 := by
      have zero : Numeral.zero.value = 0 := by
        rw [Numeral.value]
        exact zero_mul _
      rw [zero] at worth
      simpa [zpow_ne_zero] using worth
    refine read.trans ?_
    have least : ofDecimal count power = 0 := by
      rw [none]
      rfl
    rw [least]
    have number : withSign (minus sign) 0 = value :=
      eq_of_unpack ((unpack_withSign_zero sign).trans same.symm)
    rw [number]
  | finite sign mantissa exponent positive =>
    rw [same] at stored
    cases stored with
    | finite canonical range =>
      obtain ⟨depth, deepest⟩ : ∃ depth : Nat, depth = 1074 := ⟨1074, rfl⟩
      cases canonical with
      | finite few least many =>
        obtain ⟨last, rfl⟩ : ∃ last : Nat, exponent = (last : Int) - depth :=
          ⟨(exponent + depth).toNat, by omega⟩
        rw [shapeOf, String.toList_ofList, List.append_assoc]
        rw [if_neg positive.ne']
        obtain ⟨proper, near⟩ := shortest_spec deepest positive few
        obtain ⟨count, power, worth, read⟩ := reads_write proper (minus sign) stops
        rw [← worth] at near
        have full : 2 ^ 52 ≤ mantissa ∨ last = 0 := by omega
        have unsigned := unpack_ofDecimal deepest positive few full (by omega) near
        have exponent : (last : Int) - 1074 = (last : Int) - depth := by omega
        rw [exponent] at unsigned
        have number : withSign (minus sign) (ofDecimal count power) = value :=
          eq_of_unpack ((unpack_withSign sign unsigned (.finite few least many) range).trans
            same.symm)
        refine read.trans ?_
        rw [number]

end ReplyFlow.Json
