import Mathlib.Data.List.TakeWhile
import ReplyFlow.Compile.StepName
import ReplyFlow.Proofs.Decimal.Digits

/-! Steps of different names are written differently, and so are edges of different ends.

A number may be negative, so a name can hold more dashes than the ones that separate its parts. It
can still be taken apart: the digits of a number hold no dash, and a dash follows them. Two names
that are joined by a dash come apart where the letters begin again.
-/

set_option autoImplicit false

namespace ReplyFlow

open Decimal

theorem dash_notMem_toDigits (n : Nat) : '-' ∉ Nat.toDigits 10 n := by
  intro member
  have digit := Nat.isDigit_of_mem_toDigits (by decide) (by decide) member
  exact absurd digit (by decide)

theorem toDigits_injective {m n : Nat} (same : Nat.toDigits 10 m = Nat.toDigits 10 n) : m = n := by
  have values := congrArg (fun digits => Nat.ofDigitChars 10 digits 0) same
  simpa only [Nat.ofDigitChars_ten_toDigits] using values

theorem toDigits_ne_dash {n : Nat} {rest suffix : List Char} :
    Nat.toDigits 10 n ++ suffix ≠ '-' :: rest := by
  intro same
  cases digits : Nat.toDigits 10 n with
  | nil => exact Nat.toDigits_ne_nil digits
  | cons first others =>
    rw [digits, List.cons_append] at same
    apply dash_notMem_toDigits n
    rw [digits, (List.cons.inj same).1]
    exact List.mem_cons_self

/-- A numeral ends where a dash follows its digits. -/
theorem numeral_append_dash {m n : Int} {rest suffix : List Char}
    (same : numeral m ++ '-' :: rest = numeral n ++ '-' :: suffix) : m = n ∧ rest = suffix := by
  have digits {a b : Nat} (equal : Nat.toDigits 10 a ++ '-' :: rest
      = Nat.toDigits 10 b ++ '-' :: suffix) : a = b ∧ rest = suffix := by
    have digit (k : Nat) : ∀ c ∈ Nat.toDigits 10 k, c.isDigit := fun c member =>
      Nat.isDigit_of_mem_toDigits (by decide) (by decide) member
    have dash (after : List Char) : ∀ c ∈ ('-' :: after).head?, c.isDigit = false := by
      intro c first
      rw [← Option.some.inj first]
      rfl
    obtain ⟨left, right⟩ := eq_of_append_run (digit a) (dash rest) (digit b) (dash suffix) equal
    exact ⟨toDigits_injective left, (List.cons.inj right).2⟩
  cases m with
  | ofNat m =>
    cases n with
    | ofNat n =>
      obtain ⟨equal, tail⟩ := digits same
      exact ⟨congrArg Int.ofNat equal, tail⟩
    | negSucc n => exact absurd same toDigits_ne_dash
  | negSucc m =>
    cases n with
    | ofNat n => exact absurd same.symm toDigits_ne_dash
    | negSucc n =>
      obtain ⟨equal, tail⟩ := digits (List.cons.inj same).2
      exact ⟨congrArg Int.negSucc (Nat.succ.inj equal), tail⟩

theorem numeral_injective {m n : Int} (same : numeral m = numeral n) : m = n :=
  (numeral_append_dash (congrArg (· ++ ['-']) same)).1

namespace StepName

/-- What comes before the numbers of a name. -/
def stem : StepName → List Char
  | start => ['s', 't', 'a', 'r', 't']
  | finish => ['e', 'n', 'd']
  | message _ => ['m', 'e', 's', 's', 'a', 'g', 'e', '-']
  | condition _ _ => ['c', 'o', 'n', 'd', 'i', 't', 'i', 'o', 'n', '-']
  | delay _ _ => ['d', 'e', 'l', 'a', 'y', '-']
  | continuation _ _ => ['c', 'o', 'n', 't', 'i', 'n', 'u', 'a', 't', 'i', 'o', 'n', '-']

/-- The numbers of a name. -/
def numbers : StepName → List Char
  | start | finish => []
  | message template => numeral template
  | condition template index | delay template index | continuation template index =>
    numeral template ++ '-' :: numeral index

theorem toList_text (step : StepName) : step.text.toList = step.stem ++ step.numbers := by
  cases step with
  | start | finish => decide
  | message template =>
    change ("message-" ++ template.repr).toList = _
    rw [String.toList_append, toList_repr]
    rfl
  | condition template index =>
    change ("condition-" ++ template.repr ++ "-" ++ index.repr).toList = _
    simp only [String.toList_append, toList_repr, List.append_assoc]
    rfl
  | delay template index =>
    change ("delay-" ++ template.repr ++ "-" ++ index.repr).toList = _
    simp only [String.toList_append, toList_repr, List.append_assoc]
    rfl
  | continuation template index =>
    change ("continuation-" ++ template.repr ++ "-" ++ index.repr).toList = _
    simp only [String.toList_append, toList_repr, List.append_assoc]
    rfl

-- The fourth letter tells conditions and continuations apart, the first one all other
-- names; then the numbers are read back, where a dash may also be a sign.
theorem text_injective {first second : StepName} (same : first.text = second.text) :
    first = second := by
  have letters := congrArg String.toList same
  rw [toList_text, toList_text] at letters
  cases first <;> cases second <;> simp [stem, numbers] at letters ⊢
  case message.message left right => exact numeral_injective letters
  all_goals
    obtain ⟨templates, indices⟩ := numeral_append_dash letters
    exact ⟨templates, numeral_injective indices⟩

/-- The word that a name begins with. -/
def word (step : StepName) : List Char :=
  step.stem.takeWhile Char.isAlpha

/-- What follows the word of a name: dashes and digits. -/
def marks (step : StepName) : List Char :=
  step.stem.dropWhile Char.isAlpha ++ step.numbers

theorem toList_text_eq_word (step : StepName) : step.text.toList = step.word ++ step.marks := by
  rw [toList_text, word, marks, ← List.append_assoc, List.takeWhile_append_dropWhile]

theorem isAlpha_of_mem_word {step : StepName} : ∀ c ∈ step.word, c.isAlpha :=
  fun _ member => List.mem_takeWhile_imp member

theorem word_ne_nil (step : StepName) : step.word ≠ [] := by
  cases step <;> exact List.cons_ne_nil _ _

theorem isAlpha_of_mem_numbers {step : StepName} : ∀ c ∈ step.numbers, c.isAlpha = false := by
  have silent {n : Int} {c : Char} (member : c ∈ numeral n) : c.isAlpha = false := by
    rcases isDigit_or_dash_of_mem_numeral member with digit | rfl
    · rw [isDigit_iff_toNat] at digit
      rw [Bool.eq_false_iff, ne_eq, isAlpha_iff_toNat]
      omega
    · decide
  intro c member
  cases step with
  | start | finish => cases member
  | message template => exact silent member
  | condition template index | delay template index | continuation template index =>
    rcases List.mem_append.mp member with template | member
    · exact silent template
    · rcases List.mem_cons.mp member with rfl | index
      · decide
      · exact silent index

theorem isAlpha_of_mem_marks {step : StepName} : ∀ c ∈ step.marks, c.isAlpha = false := by
  intro c member
  rcases List.mem_append.mp member with dash | number
  · cases step with
    | start | finish => cases dash
    | message | condition | delay | continuation =>
      rw [List.mem_singleton.mp dash]
      rfl
  · exact isAlpha_of_mem_numbers c number

/-- What stands between the words of an edge's name. -/
def joint (step : StepName) : List Char :=
  step.marks ++ ['-']

theorem isAlpha_of_mem_joint {step : StepName} : ∀ c ∈ step.joint, (!c.isAlpha) = true := by
  intro c member
  rw [Bool.not_eq_true']
  rcases List.mem_append.mp member with mark | dash
  · exact isAlpha_of_mem_marks c mark
  · rw [List.mem_singleton.mp dash]
    rfl

theorem isAlpha_of_head?_joint {step : StepName} {rest : List Char} :
    ∀ c ∈ (step.joint ++ rest).head?, c.isAlpha = false := by
  intro c first
  rw [List.head?_append_of_ne_nil _ (by simp [joint])] at first
  exact (Bool.not_eq_true' _).mp (isAlpha_of_mem_joint c (List.mem_of_head? first))

theorem isAlpha_of_head?_text {step : StepName} :
    ∀ c ∈ step.text.toList.head?, (!c.isAlpha) = false := by
  intro c first
  rw [toList_text_eq_word, List.head?_append_of_ne_nil _ step.word_ne_nil] at first
  rw [isAlpha_of_mem_word c (List.mem_of_head? first), Bool.not_true]

theorem toList_edgeName (source target : StepName) :
    (edgeName source.text target.text).toList =
      "conn-".toList ++ (source.word ++ (source.joint ++ target.text.toList)) := by
  change ("conn-" ++ source.text ++ "-" ++ target.text).toList = _
  simp only [String.toList_append, toList_text_eq_word, joint, List.append_assoc]
  rfl

/-- The name of an edge tells its two ends: no name has letters after its word, so the first one
stops where the word of the second one begins. -/
theorem edgeName_injective {source target first second : StepName}
    (same : edgeName source.text target.text = edgeName first.text second.text) :
    source = first ∧ target = second := by
  have letters := congrArg String.toList same
  rw [toList_edgeName, toList_edgeName, List.append_cancel_left_eq] at letters
  obtain ⟨words, rests⟩ := eq_of_append_run isAlpha_of_mem_word isAlpha_of_head?_joint
    isAlpha_of_mem_word isAlpha_of_head?_joint letters
  obtain ⟨joints, targets⟩ := eq_of_append_run isAlpha_of_mem_joint isAlpha_of_head?_text
    isAlpha_of_mem_joint isAlpha_of_head?_text rests
  have sources : source.text = first.text := by
    rw [← String.toList_inj, toList_text_eq_word, toList_text_eq_word, words,
      List.append_cancel_right joints]
  exact ⟨text_injective sources, text_injective (String.toList_inj.mp targets)⟩

end StepName

end ReplyFlow
