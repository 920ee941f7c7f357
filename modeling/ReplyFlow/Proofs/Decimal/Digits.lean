import Mathlib.Data.List.Basic
import Mathlib.Data.List.Induction
import Mathlib.Tactic.Ring
import ReplyFlow.Decimal.Numeral
import ReplyFlow.Decimal.Reading
import ReplyFlow.Proofs.Lists

/-! Rows of digits: what they are worth, where they end, and how whole numbers are written. -/

set_option autoImplicit false

namespace ReplyFlow.Decimal

theorem digitsValue_foldl (digits : List Char) (value : Nat) :
    digits.foldl (fun value c => 10 * value + (c.toNat - '0'.toNat)) value =
      value * 10 ^ digits.length + digitsValue digits := by
  rw [digitsValue]
  induction digits generalizing value with
  | nil => simp
  | cons c rest ih =>
    rw [List.foldl_cons, List.foldl_cons, ih, ih (10 * 0 + _), List.length_cons, Nat.pow_succ]
    ring

theorem digitsValue_append (front back : List Char) :
    digitsValue (front ++ back) = digitsValue front * 10 ^ back.length + digitsValue back := by
  rw [digitsValue, List.foldl_append]
  exact digitsValue_foldl back (digitsValue front)

theorem digitsValue_zeros (count : Nat) : digitsValue (zeros count) = 0 := by
  induction count with
  | zero => rfl
  | succ count ih => exact ih

theorem digitsValue_zeros_append (count : Nat) (digits : List Char) :
    digitsValue (zeros count ++ digits) = digitsValue digits := by
  rw [digitsValue_append, digitsValue_zeros, Nat.zero_mul, Nat.zero_add]

theorem digitsValue_append_zeros (digits : List Char) (count : Nat) :
    digitsValue (digits ++ zeros count) = digitsValue digits * 10 ^ count := by
  rw [digitsValue_append, digitsValue_zeros, Nat.add_zero, zeros, List.length_replicate]

theorem digitsValue_toDigits (n : Nat) : digitsValue (Nat.toDigits 10 n) = n :=
  Nat.ofDigitChars_toDigits (by decide) (by decide)

theorem digitsValue_lt {digits : List Char} (all : ∀ c ∈ digits, c.isDigit) :
    digitsValue digits < 10 ^ digits.length := by
  induction digits using List.reverseRecOn with
  | nil => decide
  | append_singleton front c ih =>
    have smaller := ih fun other member => all other (List.mem_append_left _ member)
    obtain ⟨_, high⟩ := isDigit_iff_toNat.mp (all c (List.mem_append_right _ List.mem_cons_self))
    have last : c.toNat - '0'.toNat ≤ 9 := Nat.sub_le_sub_right high 48
    rw [digitsValue] at smaller ⊢
    rw [List.foldl_append, List.length_append, List.length_singleton, Nat.pow_succ]
    change 10 * _ + (c.toNat - '0'.toNat) < _
    omega

/-- Only zero begins with a zero. -/
theorem eq_zero_of_head?_toDigits {n : Nat} (lead : (Nat.toDigits 10 n).head? = some '0') :
    n = 0 := by
  induction n using Nat.strong_induction_on with
  | h n ih =>
    by_cases few : n < 10
    · rw [Nat.toDigits_of_lt_base few] at lead
      have zero : ∀ digit < 10, [Nat.digitChar digit].head? = some '0' → digit = 0 := by decide
      exact zero n few lead
    · have some := @Nat.toDigits_ne_nil (n / 10) 10
      rw [Nat.toDigits_of_base_le (by decide) (Nat.le_of_not_lt few),
        List.head?_append_of_ne_nil _ some] at lead
      have none := ih (n / 10) (by omega) lead
      omega

/-- Digits end before the first character that is none. -/
theorem splitDigits_append {digits s : List Char} (all : ∀ c ∈ digits, c.isDigit)
    (stop : ∀ c ∈ s.head?, c.isDigit = false) : splitDigits (digits ++ s) = (digits, s) := by
  rw [splitDigits, takeWhile_run all stop, dropWhile_run all stop]

/-- The characters of a whole number. -/
def numeral : Int → List Char
  | .ofNat n => Nat.toDigits 10 n
  | .negSucc n => '-' :: Nat.toDigits 10 (n + 1)

theorem toList_repr (n : Int) : n.repr.toList = numeral n := by
  cases n with
  | ofNat n => exact Nat.toList_repr
  | negSucc n =>
    change ("-" ++ (n + 1).repr).toList = _
    rw [String.toList_append, Nat.toList_repr]
    rfl

theorem isDigit_or_dash_of_mem_numeral {n : Int} {c : Char} (member : c ∈ numeral n) :
    c.isDigit ∨ c = '-' := by
  have digit {m : Nat} (digits : c ∈ Nat.toDigits 10 m) : c.isDigit :=
    Nat.isDigit_of_mem_toDigits (by decide) (by decide) digits
  cases n with
  | ofNat n => exact .inl (digit member)
  | negSucc n =>
    rcases List.mem_cons.mp member with dash | digits
    · exact .inr dash
    · exact .inl (digit digits)

end ReplyFlow.Decimal
