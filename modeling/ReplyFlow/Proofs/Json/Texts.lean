import Mathlib.Data.List.Basic
import Mathlib.Tactic.SplitIfs
import ReplyFlow.Json.Parser
import ReplyFlow.Json.Printer

/-! Texts are read back from the JSON text that is written of them.

Every character is written on its own, and whatever is written of one is read as this one.
-/

set_option autoImplicit false

namespace ReplyFlow

namespace Text

theorem hexValue?_digitChar : ∀ digit < 16, hexValue? (Nat.digitChar digit) = some digit := by
  decide

theorem paddedDigits_succ {base width : Nat} (more : 1 < base) (some : 0 < width) (n : Nat) :
    paddedDigits base (width + 1) n =
      paddedDigits base width (n / base) ++ [Nat.digitChar (n % base)] := by
  by_cases few : n < base
  · rw [paddedDigits, paddedDigits, Nat.toDigits_of_lt_base few, Nat.div_eq_of_lt few,
      Nat.mod_eq_of_lt few, Nat.toDigits_of_lt_base (by omega)]
    obtain ⟨width, rfl⟩ : ∃ before, width = before + 1 := ⟨width - 1, by omega⟩
    simp [List.replicate_succ', Nat.digitChar]
  · rw [paddedDigits, paddedDigits, Nat.toDigits_of_base_le more (by omega)]
    simp [Nat.add_sub_add_right]

theorem paddedDigits_one {base n : Nat} (few : n < base) :
    paddedDigits base 1 n = [Nat.digitChar n] := by
  rw [paddedDigits, Nat.toDigits_of_lt_base few]
  rfl

/-- The four digits of a code unit. -/
theorem paddedDigits_unit {unit : Nat} (bound : unit < 0x10000) :
    paddedDigits 16 4 unit = [Nat.digitChar (unit / 4096), Nat.digitChar (unit / 256 % 16),
      Nat.digitChar (unit / 16 % 16), Nat.digitChar (unit % 16)] := by
  rw [paddedDigits_succ (by decide) (by decide), paddedDigits_succ (by decide) (by decide),
    paddedDigits_succ (by decide) (by decide), paddedDigits_one (by omega)]
  simp [Nat.div_div_eq_div_mul]

end Text

namespace Json

open Text

theorem codeUnit?_digits {unit : Nat} (bound : unit < 0x10000) :
    codeUnit? (Nat.digitChar (unit / 4096)) (Nat.digitChar (unit / 256 % 16))
      (Nat.digitChar (unit / 16 % 16)) (Nat.digitChar (unit % 16)) = some unit := by
  have sum : ((unit / 4096 * 16 + unit / 256 % 16) * 16 + unit / 16 % 16) * 16 + unit % 16 =
      unit := by
    omega
  rw [codeUnit?, hexValue?_digitChar _ (by omega), hexValue?_digitChar _ (by omega),
    hexValue?_digitChar _ (by omega), hexValue?_digitChar _ (by omega)]
  exact congrArg some sum

/-- A code unit that is no high half is read alone, whatever follows it. -/
theorem readCodeEscape_unit {unit : Nat} (bound : unit < 0x10000) (whole : isHighHalf unit = false)
    (next : Char) (rest : List Char) :
    readCodeEscape ('u' :: (paddedDigits 16 4 unit ++ next :: rest)) =
      .ok (unitChar unit, next :: rest) := by
  rw [paddedDigits_unit bound]
  simp only [List.cons_append, List.nil_append, readCodeEscape, codeUnit?_digits bound]
  split
  · simp [whole]
  · rfl

theorem readCodeEscape_pair {high low : Nat} (first : isHighHalf high) (second : isLowHalf low)
    (next : Char) (rest : List Char) :
    readCodeEscape ('u' :: (paddedDigits 16 4 high ++ '\\' :: 'u' ::
      (paddedDigits 16 4 low ++ next :: rest))) = .ok (pairChar high low, next :: rest) := by
  have highBound : high < 0x10000 := by
    simp only [isHighHalf, Bool.and_eq_true, decide_eq_true_eq] at first
    omega
  have lowBound : low < 0x10000 := by
    simp only [isLowHalf, Bool.and_eq_true, decide_eq_true_eq] at second
    omega
  rw [paddedDigits_unit highBound, paddedDigits_unit lowBound]
  simp [readCodeEscape, codeUnit?_digits highBound, codeUnit?_digits lowBound, first, second]

theorem halves_of_toNat (c : Char) : isHighHalf c.toNat = false ∧ isLowHalf c.toNat = false := by
  have valid : c.toNat.isValidChar := c.valid
  simp only [isHighHalf, isLowHalf, Bool.and_eq_false_iff, decide_eq_false_iff_not]
  rw [Nat.isValidChar] at valid
  omega

theorem unitChar_toNat (c : Char) : unitChar c.toNat = c := by
  obtain ⟨high, low⟩ := halves_of_toNat c
  simp [unitChar, high, low]

/-- A character beyond the first 65536 is the one of its pair. -/
theorem pairChar_halves {c : Char} (beyond : 0x10000 ≤ c.toNat) :
    let offset := c.toNat - 0x10000
    isHighHalf (0xD800 + offset / 0x400) ∧ isLowHalf (0xDC00 + offset % 0x400) ∧
      pairChar (0xD800 + offset / 0x400) (0xDC00 + offset % 0x400) = c := by
  intro offset
  have valid : c.toNat.isValidChar := c.valid
  rw [Nat.isValidChar] at valid
  refine ⟨?_, ?_, ?_⟩
  · simp only [isHighHalf, Bool.and_eq_true, decide_eq_true_eq]
    omega
  · simp only [isLowHalf, Bool.and_eq_true, decide_eq_true_eq]
    omega
  · have sum : 0x10000 + (0xD800 + offset / 0x400 - 0xD800) * 0x400
        + (0xDC00 + offset % 0x400 - 0xDC00) = c.toNat := by omega
    rw [pairChar, sum, Char.ofNat_toNat]

theorem escapeUnit_append (unit : Nat) (rest : List Char) :
    escapeUnit unit ++ rest = '\\' :: 'u' :: (paddedDigits 16 4 unit ++ rest) :=
  rfl

theorem readCharacter_code {opening rest place : List Char} {c : Char}
    (read : readCodeEscape ('u' :: rest) = .ok (c, place)) :
    readCharacter opening ('\\' :: 'u' :: rest) = .ok (some c, place) := by
  rw [readCharacter, read]
  rfl

/-- What is written of one character is read as it. -/
theorem readCharacter_escapeChar (opening : List Char) (c : Char) (next : Char)
    (rest : List Char) :
    readCharacter opening (escapeChar c ++ next :: rest) = .ok (some c, next :: rest) := by
  rw [escapeChar]
  split_ifs with quote line returned tab back feed printable unit
  · rcases Bool.or_eq_true_iff.mp quote with same | same <;> rw [beq_iff_eq.mp same] <;> rfl
  · rw [beq_iff_eq.mp line]
    rfl
  · rw [beq_iff_eq.mp returned]
    rfl
  · rw [beq_iff_eq.mp tab]
    rfl
  · rw [← Char.ofNat_toNat c, back]
    rfl
  · rw [← Char.ofNat_toNat c, feed]
    rfl
  · simp only [Bool.or_eq_true, beq_iff_eq, not_or] at quote
    simp only [Bool.and_eq_true, decide_eq_true_eq] at printable
    simp [readCharacter, quote.1, quote.2, Nat.not_le.mpr (show 31 < c.toNat by omega)]
  · have read := readCodeEscape_unit unit (halves_of_toNat c).1 next rest
    rw [unitChar_toNat] at read
    rw [escapeUnit_append]
    exact readCharacter_code read
  · obtain ⟨first, second, same⟩ := pairChar_halves (Nat.le_of_not_lt unit)
    have read := readCodeEscape_pair first second next rest
    rw [same] at read
    rw [List.append_assoc, escapeUnit_append, escapeUnit_append]
    exact readCharacter_code read

theorem escapeChar_ne_nil (c : Char) : escapeChar c ≠ [] := by
  rw [escapeChar]
  split_ifs <;> exact List.cons_ne_nil _ _

theorem length_le_escape (s : List Char) : s.length ≤ (s.flatMap escapeChar).length := by
  induction s with
  | nil => exact Nat.le_refl 0
  | cons c rest ih =>
    rw [List.flatMap_cons, List.length_append, List.length_cons]
    have first := List.length_pos_of_ne_nil (escapeChar_ne_nil c)
    omega

theorem readCharacters_escape (opening : List Char) {fuel : Nat} (s done rest : List Char)
    (enough : s.length < fuel) :
    readCharacters opening fuel done (s.flatMap escapeChar ++ '"' :: rest) =
      .ok (String.ofList (done.reverse ++ s), rest) := by
  induction s generalizing fuel done with
  | nil =>
    obtain ⟨fuel, rfl⟩ : ∃ less, fuel = less + 1 := ⟨fuel - 1, by omega⟩
    simp [readCharacters, readCharacter]
  | cons c s ih =>
    obtain ⟨fuel, rfl⟩ : ∃ less, fuel = less + 1 := ⟨fuel - 1, by omega⟩
    obtain ⟨next, tail, same⟩ : ∃ next tail, s.flatMap escapeChar ++ '"' :: rest = next :: tail :=
      List.exists_cons_of_ne_nil (by simp)
    rw [List.flatMap_cons, List.append_assoc, same, readCharacters, readCharacter_escapeChar]
    dsimp only
    rw [← same, ih (c :: done) (Nat.lt_of_succ_lt_succ enough), List.reverse_cons,
      List.append_assoc, List.singleton_append]

/-- A text that is written is read up to its closing quote. -/
theorem readText_quoted (text : String) (rest : List Char) :
    readText (text.toList.flatMap escapeChar ++ '"' :: rest) = .ok (text, rest) := by
  have short := length_le_escape text.toList
  rw [readText, readCharacters_escape _ _ _ _ (by rw [List.length_append]; omega),
    List.reverse_nil, List.nil_append, String.ofList_toList]

theorem toList_quoted (text : String) :
    (quoted text).toList = '"' :: (text.toList.flatMap escapeChar ++ ['"']) := by
  rw [quoted, String.toList_ofList, List.cons_append]

end Json

end ReplyFlow
