import Mathlib.Data.List.Basic

/-! Lists in general: where a run of characters of one class ends, which runs there are between the
separators of a list, and what is left of a list when repetitions are removed. The classes that a run
is of are the digits and the letters.
-/

set_option autoImplicit false

namespace ReplyFlow

theorem isDigit_iff_toNat {c : Char} : c.isDigit ↔ 48 ≤ c.toNat ∧ c.toNat ≤ 57 :=
  Bool.and_eq_true_iff.trans (and_congr decide_eq_true_iff decide_eq_true_iff)

theorem isAlpha_iff_toNat {c : Char} :
    c.isAlpha ↔ 65 ≤ c.toNat ∧ c.toNat ≤ 90 ∨ 97 ≤ c.toNat ∧ c.toNat ≤ 122 := by
  have upper : c.isUpper ↔ 65 ≤ c.toNat ∧ c.toNat ≤ 90 := decide_eq_true_iff
  have lower : c.isLower ↔ 97 ≤ c.toNat ∧ c.toNat ≤ 122 :=
    Bool.and_eq_true_iff.trans (and_congr decide_eq_true_iff decide_eq_true_iff)
  exact Bool.or_eq_true_iff.trans (or_congr upper lower)

section

variable {α : Type} {p : α → Bool} {run other rest suffix : List α}

theorem takeWhile_run (all : ∀ c ∈ run, p c) (stop : ∀ c ∈ rest.head?, p c = false) :
    (run ++ rest).takeWhile p = run := by
  have none : rest.takeWhile p = [] := by
    cases rest with
    | nil => rfl
    | cons c rest => rw [List.takeWhile_cons, stop c rfl, if_neg Bool.false_ne_true]
  rw [List.takeWhile_append_of_pos all, none, List.append_nil]

theorem dropWhile_run (all : ∀ c ∈ run, p c) (stop : ∀ c ∈ rest.head?, p c = false) :
    (run ++ rest).dropWhile p = rest := by
  rw [List.dropWhile_append_of_pos all]
  cases rest with
  | nil => rfl
  | cons c rest => rw [List.dropWhile_cons, stop c rfl, if_neg Bool.false_ne_true]

/-- A list is cut in one way only into a run and what follows it. -/
theorem eq_of_append_run (all : ∀ c ∈ run, p c) (stop : ∀ c ∈ rest.head?, p c = false)
    (others : ∀ c ∈ other, p c) (ends : ∀ c ∈ suffix.head?, p c = false)
    (same : run ++ rest = other ++ suffix) : run = other ∧ rest = suffix := by
  constructor
  · rw [← takeWhile_run all stop, same, takeWhile_run others ends]
  · rw [← dropWhile_run all stop, same, dropWhile_run others ends]

end

section

variable {α : Type} {separates : α → Bool} {gap run rest : List α} {separator : α}

/-- A run without separators. -/
structure IsRun (separates : α → Bool) (run : List α) : Prop where
  nonempty : run ≠ []
  solid : ∀ c ∈ run, separates c = false

/-- The runs between the separators. -/
def runs (separates : α → Bool) (items : List α) : List (List α) :=
  (items.splitOnP separates).filter (!·.isEmpty)

theorem runs_separator (separated : separates separator) :
    runs separates (separator :: rest) = runs separates rest := by
  rw [runs, ← List.nil_append (separator :: rest), List.splitOnP_append_cons _ _ separated,
    List.splitOnP_nil]
  rfl

theorem runs_append (separators : ∀ c ∈ gap, separates c) :
    runs separates (gap ++ rest) = runs separates rest := by
  induction gap with
  | nil => rfl
  | cons c gap ih =>
    obtain ⟨first, others⟩ := List.forall_mem_cons.mp separators
    rw [List.cons_append, runs_separator first, ih others]

namespace IsRun

theorem runs_eq (isRun : IsRun separates run) : runs separates run = [run] := by
  have some : run.isEmpty = false := List.isEmpty_eq_false_iff.mpr isRun.nonempty
  simp [runs, List.splitOnP_eq_singleton isRun.solid, some]

theorem runs_cons (isRun : IsRun separates run) (separated : separates separator) :
    runs separates (run ++ separator :: rest) = run :: runs separates rest := by
  have some : run.isEmpty = false := List.isEmpty_eq_false_iff.mpr isRun.nonempty
  simp [runs, List.splitOnP_append_cons _ _ separated, List.splitOnP_eq_singleton isRun.solid, some]

theorem runs_append (isRun : IsRun separates run) (stops : ∀ c ∈ rest.head?, separates c) :
    runs separates (run ++ rest) = run :: runs separates rest := by
  cases rest with
  | nil =>
    rw [List.append_nil, isRun.runs_eq]
    rfl
  | cons c rest =>
    rw [isRun.runs_cons (stops c rfl), runs_separator (stops c rfl)]

end IsRun

end

section

variable {β : Type} [BEq β] [LawfulBEq β]

/-- What is left stands in the order of first occurrence. -/
theorem pairwise_eraseDups (items : List β) :
    items.eraseDups.Pairwise fun a b => ∃ front back,
      items = front ++ a :: back ∧ b ∉ front ∧ b ≠ a := by
  induction length : items.length using Nat.strongRecOn generalizing items with
  | ind n ih =>
    cases items with
    | nil => exact .nil
    | cons first rest =>
      have shorter := List.length_filter_le (fun item => !item == first) rest
      rw [List.length_cons] at length
      have others := ih _ (by omega) (rest.filter fun item => !item == first) rfl
      have kept {b : β} : (!b == first) = true ↔ b ≠ first := by simp
      rw [List.eraseDups_cons, List.pairwise_cons]
      constructor
      · intro b member
        rw [List.mem_eraseDups, List.mem_filter, kept] at member
        exact ⟨[], rest, rfl, List.not_mem_nil, member.2⟩
      · apply others.imp_of_mem
        intro a b _ member order
        rw [List.mem_eraseDups, List.mem_filter, kept] at member
        obtain ⟨front, back, split, absent, other⟩ := order
        obtain ⟨before, after, parts, fronts, backs⟩ := List.filter_eq_append_iff.mp split
        obtain ⟨between, later, pieces, repeated, _⟩ := List.filter_eq_cons_iff.mp backs
        -- what was removed before `a` repeats the first item, and `b` does not
        refine ⟨first :: (before ++ between), later, ?_, ?_, other⟩
        · rw [parts, pieces, List.cons_append, List.append_assoc]
        · rw [List.mem_cons, List.mem_append, not_or, not_or]
          refine ⟨member.2, fun earlier => absent ?_, fun dropped => ?_⟩
          · rw [← fronts]
            exact List.mem_filter.mpr ⟨earlier, kept.mpr member.2⟩
          · exact repeated b dropped (kept.mpr member.2)

theorem nodup_eraseDups (items : List β) : items.eraseDups.Nodup :=
  (pairwise_eraseDups items).imp fun ⟨_, _, _, _, other⟩ => other.symm

end

end ReplyFlow
