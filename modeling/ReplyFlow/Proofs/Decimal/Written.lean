import ReplyFlow.Proofs.Decimal.Numerals
import ReplyFlow.Proofs.Decimal.Significant
import ReplyFlow.Proofs.Decimal.Sums

/-! How numerals are written: digits around a point and a power of ten, with the value that these
parts have together, and how this value is read from the text.
-/

set_option autoImplicit false

namespace ReplyFlow.Decimal

/-- The sign of a numeral. -/
def signText (negative : Bool) : List Char :=
  if negative then ['-'] else []

/-- How a power of ten is written. -/
def powerText (power : Int) : List Char :=
  'e' :: (if power < 0 then '-' else '+') ::
    (zeros (2 - (Nat.toDigits 10 power.natAbs).length) ++ Nat.toDigits 10 power.natAbs)

/-- A point is written only before digits. -/
def pointText (decimals : List Char) : List Char :=
  if decimals = [] then [] else '.' :: decimals

/-- What a numeral without a sign is made up of: digits before and behind the point, and perhaps a
power of ten. -/
structure Parts where
  front : List Char
  decimals : List Char
  power : Option Int

namespace Parts

def text (parts : Parts) : List Char :=
  parts.front ++ (pointText parts.decimals ++ parts.power.elim [] powerText)

def value (parts : Parts) : ℚ :=
  digitsValue (parts.front ++ parts.decimals) * 10 ^ (parts.power.getD 0 - parts.decimals.length)

/-- Digits stand before the point, and no zero is among them that could be left out. -/
structure Proper (parts : Parts) : Prop where
  front : ∀ c ∈ parts.front, c.isDigit
  nonempty : parts.front ≠ []
  lead : parts.front.head? = some '0' → parts.front = ['0']
  decimals : ∀ c ∈ parts.decimals, c.isDigit

/-- The parts of a numeral in some style; if whole numbers are marked there, the parts show that
the number need not be one. -/
structure Writes (parts : Parts) (style : NumeralStyle) (n : Numeral) : Prop where
  text : style.write n = parts.text
  value : parts.value = n.value
  proper : parts.Proper
  width : parts.front.length ≤ max 1 style.positionalBelow.toNat
  marked : style.wholeMark → parts.decimals = [] → parts.power.isSome

end Parts

theorem all_zeros (count : Nat) : ∀ c ∈ zeros count, c.isDigit := by
  intro c member
  rw [List.eq_of_mem_replicate member]
  rfl

theorem all_powerDigits (power : Int) :
    ∀ c ∈ zeros (2 - (Nat.toDigits 10 power.natAbs).length) ++ Nat.toDigits 10 power.natAbs,
      c.isDigit := by
  intro c member
  rcases List.mem_append.mp member with zero | digit
  · exact all_zeros _ c zero
  · exact Nat.isDigit_of_mem_toDigits (by decide) (by decide) digit

namespace Parts

variable {style : NumeralStyle} {n : Numeral}

theorem writes_below (proper : n.Proper) (least : -4 ≤ n.exponent) (below : n.exponent < 0)
    (range : n.exponent < style.positionalBelow) :
    Writes ⟨['0'], zeros ((-n.exponent).toNat - 1) ++ n.digits, none⟩ style n where
  text := by
    have some : zeros ((-n.exponent).toNat - 1) ++ n.digits ≠ [] :=
      List.append_ne_nil_of_right_ne_nil _ proper.nonempty
    rw [NumeralStyle.write, if_pos (by simp [least, range]), NumeralStyle.positional,
      if_pos below, Parts.text, pointText, if_neg some]
    simp
  value := by
    have zero : ['0'] = zeros 1 := rfl
    have power : (0 : Int) - (zeros ((-n.exponent).toNat - 1) ++ n.digits).length =
        n.exponent + 1 - n.digits.length := by
      rw [List.length_append, zeros, List.length_replicate]
      omega
    rw [Parts.value, Option.getD_none, zero, digitsValue_zeros_append, digitsValue_zeros_append,
      power]
    rfl
  proper := {
    front := fun c member => by rw [List.mem_singleton.mp member]; rfl
    nonempty := List.cons_ne_nil _ _
    lead := fun _ => rfl
    decimals := fun c member =>
      (List.mem_append.mp member).elim (all_zeros _ c) (proper.all c) }
  width := le_max_left _ _
  marked _ none :=
    absurd none (List.append_ne_nil_of_right_ne_nil _ proper.nonempty)

/-- Where the digits go on behind the point. -/
theorem writes_around (proper : n.Proper) {width : Nat} (exponent : n.exponent + 1 = width)
    (positive : 0 < width) (range : n.exponent < style.positionalBelow)
    (longer : width < n.digits.length) :
    Writes ⟨n.digits.take width, n.digits.drop width, none⟩ style n where
  text := by
    have least : -4 ≤ n.exponent := by omega
    have above : ¬ n.exponent < 0 := by omega
    have whole : n.exponent.toNat + 1 = width := by omega
    have some : n.digits.drop width ≠ [] := by
      rw [List.ne_nil_iff_length_pos, List.length_drop]
      omega
    rw [NumeralStyle.write, if_pos (by simp [least, range]), NumeralStyle.positional,
      if_neg above, whole, Parts.text, pointText, if_neg some]
    dsimp only
    rw [Nat.sub_eq_zero_of_le longer.le]
    obtain ⟨first, more, same⟩ := List.exists_cons_of_ne_nil some
    simp [same, zeros]
  value := by
    rw [Parts.value, List.take_append_drop, List.length_drop, Numeral.value, exponent,
      Nat.cast_sub longer.le, Option.getD_none]
    congr 2
    ring
  proper := {
    front := fun c member => proper.all c (List.mem_of_mem_take member)
    nonempty := by
      rw [List.ne_nil_iff_length_pos, List.length_take]
      omega
    lead := by
      intro lead
      rw [List.head?_take, if_neg (by omega)] at lead
      rw [proper.lead lead] at longer
      change width < 1 at longer
      omega
    decimals := fun c member => proper.all c (List.mem_of_mem_drop member) }
  width := by
    rw [List.length_take]
    omega
  marked _ none := by
    have gone := List.drop_eq_nil_iff.mp none
    omega

/-- Where no digit is left behind the point. -/
theorem writes_whole (proper : n.Proper) {width : Nat} (exponent : n.exponent + 1 = width)
    (positive : 0 < width) (range : n.exponent < style.positionalBelow)
    (shorter : n.digits.length ≤ width) :
    Writes ⟨n.digits ++ zeros (width - n.digits.length),
      if style.wholeMark then ['0'] else [], none⟩ style n where
  text := by
    have least : -4 ≤ n.exponent := by omega
    have above : ¬ n.exponent < 0 := by omega
    have whole : n.exponent.toNat + 1 = width := by omega
    rw [NumeralStyle.write, if_pos (by simp [least, range]), NumeralStyle.positional,
      if_neg above, whole, Parts.text, pointText]
    dsimp only
    rw [List.take_of_length_le shorter, List.drop_eq_nil_of_le shorter]
    cases style.wholeMark <;> simp
  value := by
    have power : (width : Int) - n.digits.length = (width - n.digits.length : Nat) := by omega
    have worth : (digitsValue (n.digits ++ zeros (width - n.digits.length)) : ℚ) = n.value := by
      rw [digitsValue_append_zeros, Numeral.value, exponent, power, zpow_natCast]
      push_cast
      rfl
    rw [Parts.value, ← worth, Option.getD_none]
    cases style.wholeMark
    · simp
    · have zero : ['0'] = zeros 1 := rfl
      simp only [if_true]
      rw [zero, digitsValue_append_zeros (n.digits ++ _)]
      have unit : (0 : Int) - (zeros 1).length = -1 := rfl
      rw [unit, zpow_neg_one]
      push_cast
      ring
  proper := {
    front := fun c member => (List.mem_append.mp member).elim (proper.all c) (all_zeros _ c)
    nonempty := List.append_ne_nil_of_left_ne_nil proper.nonempty _
    lead := by
      intro lead
      rw [List.head?_append_of_ne_nil _ proper.nonempty] at lead
      have none := proper.lead lead
      have one : width = 1 := by
        rw [none] at exponent
        change (0 : Int) + 1 = width at exponent
        omega
      rw [one]
      dsimp only
      rw [none]
      rfl
    decimals := by
      intro c member
      cases mark : style.wholeMark <;> simp [mark] at member
      rw [member]
      rfl }
  width := by
    rw [List.length_append, zeros, List.length_replicate]
    omega
  marked mark none := by simp [mark] at none

theorem writes_scientific {lead : Char} {more : List Char} (proper : n.Proper)
    (digits : n.digits = lead :: more)
    (outside : ¬ (-4 ≤ n.exponent ∧ n.exponent < style.positionalBelow)) :
    Writes ⟨[lead], more, some n.exponent⟩ style n where
  text := by
    rw [NumeralStyle.write, if_neg (by simpa using outside), scientific, digits, Parts.text,
      Option.elim_some, powerText]
    cases more <;> simp [pointText]
  value := by
    rw [Parts.value, Numeral.value, digits, List.length_cons, Option.getD_some]
    congr 2
    push_cast
    ring
  proper := by
    have all := proper.all
    rw [digits, List.forall_mem_cons] at all
    exact {
      front := fun c member => List.mem_singleton.mp member ▸ all.1
      nonempty := List.cons_ne_nil _ _
      lead := fun first => by rw [Option.some.inj first]
      decimals := all.2 }
  width := le_max_left _ _
  marked _ _ := rfl

end Parts

theorem NumeralStyle.exists_parts (style : NumeralStyle) {n : Numeral} (proper : n.Proper) :
    ∃ parts : Parts, parts.Writes style n := by
  by_cases inside : -4 ≤ n.exponent ∧ n.exponent < style.positionalBelow
  · obtain ⟨least, range⟩ := inside
    rcases lt_or_ge n.exponent 0 with below | above
    · exact ⟨_, Parts.writes_below proper least below range⟩
    · have exponent : n.exponent + 1 = (n.exponent.toNat + 1 : Nat) := by omega
      rcases le_or_gt n.digits.length (n.exponent.toNat + 1) with shorter | longer
      · exact ⟨_, Parts.writes_whole proper exponent (Nat.succ_pos _) range shorter⟩
      · exact ⟨_, Parts.writes_around proper exponent (Nat.succ_pos _) range longer⟩
  · obtain ⟨lead, more, digits⟩ := List.exists_cons_of_ne_nil proper.nonempty
    exact ⟨_, Parts.writes_scientific proper digits inside⟩

/-! ### Reading the value -/

/-- The digits behind a point, if there is one. -/
def splitDecimals : List Char → List Char × List Char
  | '.' :: more => splitDigits more
  | rest => ([], rest)

/-- The number that a text stands for: a sign, digits around a point and a power of ten. -/
def readValue? (s : List Char) : Option ℚ :=
  let (negative, body) := splitSign s
  let (front, rest) := splitDigits body
  let (decimals, tail) := splitDecimals rest
  if front.isEmpty && decimals.isEmpty then none
  else (readExponent? tail).map fun (power : Int) =>
    (if negative then -1 else 1) * (digitsValue (front ++ decimals) * 10 ^ (power - decimals.length))

theorem readExponent?_power (power : Option Int) :
    readExponent? (power.elim [] powerText) = some (power.getD 0) := by
  cases power with
  | none => rfl
  | some power =>
    have all := List.all_eq_true.mpr (all_powerDigits power)
    have value := (digitsValue_zeros_append (2 - (Nat.toDigits 10 power.natAbs).length) _).trans
      (digitsValue_toDigits power.natAbs)
    have nonempty : zeros (2 - (Nat.toDigits 10 power.natAbs).length)
        ++ Nat.toDigits 10 power.natAbs ≠ [] :=
      List.append_ne_nil_of_right_ne_nil _ Nat.toDigits_ne_nil
    rw [Option.elim_some, powerText]
    generalize zeros _ ++ Nat.toDigits 10 power.natAbs = digits at all value nonempty
    have empty : digits.isEmpty = false := List.isEmpty_eq_false_iff.mpr nonempty
    split
    · next below => simp [readExponent?, splitSign, all, empty, value, abs_of_neg below]
    · next above =>
      simp [readExponent?, splitSign, all, empty, value, abs_of_nonneg (not_lt.mp above)]

theorem head?_power (power : Option Int) :
    ∀ c ∈ (power.elim [] powerText).head?, c = 'e' := by
  cases power with
  | none => exact nofun
  | some power =>
    intro c first
    exact (Option.some.inj first).symm

/-- Digits stop before a point and before a power of ten. -/
theorem splitDigits_text {front decimals : List Char} (all : ∀ c ∈ front, c.isDigit)
    (power : Option Int) :
    splitDigits (front ++ (pointText decimals ++ power.elim [] powerText)) =
      (front, pointText decimals ++ power.elim [] powerText) := by
  apply splitDigits_append all
  rw [pointText]
  split
  · intro c first
    rw [head?_power power c first]
    rfl
  · rintro _ ⟨⟩
    rfl

theorem splitDecimals_text {decimals : List Char} (all : ∀ c ∈ decimals, c.isDigit)
    (power : Option Int) :
    splitDecimals (pointText decimals ++ power.elim [] powerText) =
      (decimals, power.elim [] powerText) := by
  have stop : ∀ c ∈ (power.elim [] powerText).head?, c.isDigit = false := by
    intro c first
    rw [head?_power power c first]
    rfl
  rw [pointText]
  split
  · next none =>
    rw [none]
    cases power <;> rfl
  · exact splitDigits_append all stop

theorem splitSign_signText (negative : Bool) {body : List Char}
    (bare : ∀ c ∈ body.head?, c.isDigit) :
    splitSign (signText negative ++ body) = (negative, body) := by
  cases negative with
  | true => rfl
  | false =>
    cases body with
    | nil => rfl
    | cons c rest =>
      have digit := bare c rfl
      have minus : c ≠ '-' := by
        rintro rfl
        exact absurd digit (by decide)
      have plus : c ≠ '+' := by
        rintro rfl
        exact absurd digit (by decide)
      change splitSign (c :: rest) = _
      simp [splitSign, minus, plus]

theorem Parts.Proper.readValue?_eq {parts : Parts} (proper : parts.Proper) (negative : Bool) :
    readValue? (signText negative ++ parts.text) =
      some ((if negative then -1 else 1) * parts.value) := by
  have bare : ∀ c ∈ parts.text.head?, c.isDigit := by
    intro c first
    rw [Parts.text, List.head?_append_of_ne_nil _ proper.nonempty] at first
    exact proper.front c (List.mem_of_head? first)
  have some : parts.front.isEmpty = false := List.isEmpty_eq_false_iff.mpr proper.nonempty
  rw [readValue?, splitSign_signText negative bare]
  dsimp only
  rw [Parts.text, splitDigits_text proper.front]
  dsimp only
  rw [splitDecimals_text proper.decimals]
  dsimp only
  rw [some, Bool.false_and, if_neg Bool.false_ne_true, readExponent?_power, Option.map_some]
  rfl

/-- The exact value of a number that is not zero. -/
theorem value_finite {x : Float} {sign : Float.Model.UnpackedFloat.Sign} {mantissa : Nat}
    {exponent : Int} {positive : 0 < mantissa}
    (same : x.toModel.unpack = .finite sign mantissa exponent positive)
    (least : -1074 ≤ exponent) :
    value x = (if minus sign then -1 else 1) * (Ratio.ofBinary mantissa exponent).value := by
  obtain ⟨depth, deepest⟩ : ∃ depth : Nat, depth = 1074 := ⟨1074, rfl⟩
  obtain ⟨last, rfl⟩ : ∃ last : Nat, exponent = (last : Int) - depth :=
    ⟨(exponent + depth).toNat, by omega⟩
  have steps : ((last : Int) - depth + 1074).toNat = last := by omega
  have scale : (2 : ℚ) ^ depth ≠ 0 := pow_ne_zero _ two_ne_zero
  rw [value, same, units, steps, Ratio.value_ofBinary, ← deepest,
    zpow_sub₀ two_ne_zero, zpow_natCast, zpow_natCast]
  cases sign
  · change (((-((mantissa * 2 ^ last : Nat) : Int) : Int)) : ℚ) / 2 ^ depth = _
    rw [minus, if_pos rfl]
    push_cast
    ring
  · change ((((mantissa * 2 ^ last : Nat) : Int)) : ℚ) / 2 ^ depth = _
    rw [minus, if_neg Bool.false_ne_true]
    push_cast
    ring

/-- The numeral of a finite number with so many digits is the best that they can do. -/
theorem NumeralStyle.exists_numeral (style : NumeralStyle) (count : Nat) {x : Float}
    (finite : x.isFinite) :
    ∃ negative n, n.Proper ∧
      (style.roundedText (count + 1) x).toList = signText negative ++ style.write n ∧
      BriefFor (count + 1) (value x) ((if negative then -1 else 1) * n.value) := by
  have canonical := canonical_of_isFinite finite
  rw [roundedText, NumeralStyle.text, shape_eq]
  cases same : x.toModel.unpack with
  | notANumber | infinity =>
    rw [same] at canonical
    cases canonical
  | zero sign =>
    have none : Numeral.zero.value = 0 := by
      rw [Numeral.value]
      exact zero_mul _
    have zero : value x = 0 := by
      rw [value, same]
      exact zero_div _
    refine ⟨minus sign, .zero, Numeral.proper_zero, String.toList_ofList, ?_⟩
    rw [none, mul_zero, zero]
    exact briefFor_zero _
  | finite sign mantissa exponent positive =>
    rw [same] at canonical
    have least : -1074 ≤ exponent := by
      obtain ⟨power, rfl⟩ := canonical.exists_power
      omega
    obtain ⟨proper, brief⟩ := significant_spec (Ratio.num_ofBinary positive exponent)
      (Ratio.den_ofBinary mantissa exponent) count
    refine ⟨minus sign, _, proper, ?_, ?_⟩
    · rw [shapeOf, String.toList_ofList, if_neg positive.ne']
      rfl
    · rw [value_finite same least]
      cases minus sign
      · simpa using brief
      · simpa using brief.neg

theorem NumeralStyle.readValue?_roundedText (style : NumeralStyle) (count : Nat) {x : Float}
    (finite : x.isFinite) :
    ∃ rounded, readValue? (style.roundedText (count + 1) x).toList = some rounded ∧
      BriefFor (count + 1) (value x) rounded := by
  obtain ⟨negative, n, proper, text, brief⟩ := style.exists_numeral count finite
  obtain ⟨parts, writes⟩ := style.exists_parts proper
  refine ⟨_, ?_, brief⟩
  rw [text, writes.text, writes.proper.readValue?_eq, writes.value]

/-- What a numeral is written with. -/
def InNumeral (c : Char) : Prop :=
  c.isDigit ∨ c = '-' ∨ c = '+' ∨ c = '.' ∨ c = 'e'

theorem inNumeral_power {power : Option Int} : ∀ c ∈ power.elim [] powerText, InNumeral c := by
  intro c member
  cases power with
  | none => cases member
  | some power =>
    rw [Option.elim_some, powerText, List.mem_cons, List.mem_cons] at member
    rcases member with rfl | sign | digit
    · exact .inr (.inr (.inr (.inr rfl)))
    · split at sign
      · exact .inr (.inl sign)
      · exact .inr (.inr (.inl sign))
    · exact .inl (all_powerDigits power c digit)

theorem Parts.Proper.inNumeral {parts : Parts} (proper : parts.Proper) {negative : Bool} :
    ∀ c ∈ signText negative ++ parts.text, InNumeral c := by
  intro c member
  rw [text, List.mem_append, List.mem_append, List.mem_append] at member
  rcases member with sign | front | point | power
  · cases negative with
    | false => cases sign
    | true => exact .inr (.inl (List.mem_singleton.mp sign))
  · exact .inl (proper.front c front)
  · rw [pointText] at point
    split at point
    · cases point
    · rcases List.mem_cons.mp point with rfl | digit
      · exact .inr (.inr (.inr (.inl rfl)))
      · exact .inl (proper.decimals c digit)
  · exact inNumeral_power c power

theorem NumeralStyle.inNumeral_roundedText (style : NumeralStyle) (count : Nat) {x : Float}
    (finite : x.isFinite) : ∀ c ∈ (style.roundedText (count + 1) x).toList, InNumeral c := by
  obtain ⟨negative, n, proper, text, _⟩ := style.exists_numeral count finite
  obtain ⟨parts, writes⟩ := style.exists_parts proper
  rw [text, writes.text]
  exact writes.proper.inNumeral

end ReplyFlow.Decimal
