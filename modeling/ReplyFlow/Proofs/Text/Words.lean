import Mathlib.Data.List.Chain
import Mathlib.Data.List.DropRight
import ReplyFlow.Proofs.Lists
import ReplyFlow.Text.Words

/-! Which words a text has, and where a line of words is cut.

A line has one space between neighbouring words and none in front. So wherever it is cut, one space at
most is left at the end, and the rest is the longest front that may be shown.
-/

set_option autoImplicit false

namespace ReplyFlow.Text

/-! ### Words -/

/-- A text consists of these words, with blanks around them and between any two. -/
inductive Consists : List Char → List (List Char) → Prop where
  | blank {gap : List Char} (blanks : ∀ c ∈ gap, isBlank c) : Consists gap []
  | word {gap word rest : List Char} {words : List (List Char)} (blanks : ∀ c ∈ gap, isBlank c)
      (isRun : IsRun isBlank word) (stops : ∀ c ∈ rest.head?, isBlank c)
      (others : Consists rest words) : Consists (gap ++ (word ++ rest)) (word :: words)

theorem pieces_eq_splitOnP (s : List Char) : pieces s = s.splitOnP isBlank := by
  induction s with
  | nil => rfl
  | cons c s ih =>
    obtain ⟨piece, more, split⟩ := List.exists_cons_of_ne_nil (List.splitOnP_ne_nil isBlank s)
    rw [pieces, List.splitOnP_cons_eq_if_modifyHead, ih, split]
    rfl

theorem words_eq_runs (s : List Char) : words s = runs isBlank s := by
  rw [words, pieces_eq_splitOnP, runs]

namespace Consists

variable {s : List Char} {c : Char} {found : List (List Char)}

theorem words_eq (consists : Consists s found) : words s = found := by
  rw [words_eq_runs]
  induction consists with
  | blank blanks =>
    rename_i gap
    rw [← List.append_nil gap, runs_append blanks]
    rfl
  | word blanks isRun stops _ ih => rw [runs_append blanks, isRun.runs_append stops, ih]

theorem isRun (consists : Consists s found) : ∀ word ∈ found, IsRun isBlank word := by
  induction consists with
  | blank => exact List.forall_mem_nil _
  | word _ isRun _ _ ih => exact List.forall_mem_cons.mpr ⟨isRun, ih⟩

theorem cons_blank (consists : Consists s found) (blank : isBlank c) : Consists (c :: s) found := by
  cases consists with
  | blank blanks => exact .blank (List.forall_mem_cons.mpr ⟨blank, blanks⟩)
  | word blanks isRun stops others =>
    rw [← List.cons_append]
    exact .word (List.forall_mem_cons.mpr ⟨blank, blanks⟩) isRun stops others

/-- A character that is no blank begins a word, or goes in front of the first one. -/
theorem exists_cons (consists : Consists s found) (solid : isBlank c = false) :
    ∃ words, Consists (c :: s) words := by
  have alone : IsRun isBlank [c] :=
    ⟨List.cons_ne_nil _ _, fun _ member => List.mem_singleton.mp member ▸ solid⟩
  cases consists with
  | blank blanks =>
    have stops : ∀ d ∈ s.head?, isBlank d := fun d first => blanks d (List.mem_of_mem_head? first)
    exact ⟨_, .word (List.forall_mem_nil _) alone stops (.blank blanks)⟩
  | word blanks isRun stops others =>
    rename_i gap word rest words
    cases gap with
    | nil =>
      -- nothing separates the character from the first word
      have longer : IsRun isBlank (c :: word) :=
        ⟨List.cons_ne_nil _ _, List.forall_mem_cons.mpr ⟨solid, isRun.solid⟩⟩
      exact ⟨_, .word (List.forall_mem_nil _) longer stops others⟩
    | cons d gap =>
      have first : ∀ e ∈ (d :: gap ++ (word ++ rest)).head?, isBlank e := by
        intro e first
        rw [← Option.some.inj first]
        exact blanks d List.mem_cons_self
      exact ⟨_, .word (List.forall_mem_nil _) alone first (.word blanks isRun stops others)⟩

end Consists

theorem exists_consists (s : List Char) : ∃ found, Consists s found := by
  induction s with
  | nil => exact ⟨[], .blank (List.forall_mem_nil _)⟩
  | cons c s ih =>
    obtain ⟨found, consists⟩ := ih
    cases blank : isBlank c with
    | true => exact ⟨found, consists.cons_blank blank⟩
    | false => exact consists.exists_cons blank

/-- A text consists of its words, and of no others. -/
theorem consists_iff {s : List Char} {found : List (List Char)} :
    Consists s found ↔ found = words s := by
  constructor
  · exact fun consists => consists.words_eq.symm
  · rintro rfl
    obtain ⟨found, consists⟩ := exists_consists s
    exact consists.words_eq ▸ consists

/-! ### Lines -/

/-- Two neighbours are not both blank. -/
def Apart (a b : Char) : Prop :=
  isBlank a = false ∨ isBlank b = false

/-- A line of words: spaces stand alone, and none stands in front. -/
structure IsLine (line : List Char) : Prop where
  starts : ∀ c ∈ line.head?, isBlank c = false
  spaces : ∀ c ∈ line, isBlank c → c = ' '
  apart : line.IsChain Apart

/-- The characters at which a line ends. -/
def endsLine (c : Char) : Bool :=
  inRanges [(0x0A, 0x0D), (0x1C, 0x1E), (0x85, 0x85), (0x2028, 0x2029)] c.toNat

theorem isBlank_of_endsLine {c : Char} (ends : endsLine c) : isBlank c := by
  simp only [endsLine, isBlank, blankRanges, inRanges, List.any_cons, List.any_nil, Bool.or_false,
    Bool.or_eq_true, Bool.and_eq_true, decide_eq_true_eq] at ends ⊢
  omega

theorem IsLine.not_endsLine {line : List Char} (isLine : IsLine line) :
    ∀ c ∈ line, endsLine c = false := by
  intro c member
  rw [Bool.eq_false_iff]
  intro ends
  rw [isLine.spaces c member (isBlank_of_endsLine ends)] at ends
  exact absurd ends (by decide)

theorem IsLine.of_prefix {line front : List Char} (isLine : IsLine line) (begins : front <+: line) :
    IsLine front where
  starts c first := isLine.starts c (List.singleton_prefix_iff_head?_eq_some.mp
    ((List.singleton_prefix_iff_head?_eq_some.mpr first).trans begins))
  spaces c member := isLine.spaces c (begins.subset member)
  apart := isLine.apart.prefix begins

theorem isLine_nil : IsLine [] where
  starts _ first := by cases first
  spaces := List.forall_mem_nil _
  apart := .nil

theorem isChain_run {word : List Char} (solid : ∀ c ∈ word, isBlank c = false) :
    word.IsChain Apart :=
  (List.pairwise_of_forall_mem_list fun a inside _ _ => .inl (solid a inside)).isChain

theorem isLine_word {word : List Char} (isRun : IsRun isBlank word) : IsLine word where
  starts c first := isRun.solid c (List.mem_of_mem_head? first)
  spaces c member blank := by
    rw [isRun.solid c member] at blank
    cases blank
  apart := isChain_run isRun.solid

/-- A word, a space and a line. -/
theorem IsLine.cons_word {word line : List Char} (isLine : IsLine line)
    (isRun : IsRun isBlank word) : IsLine (word ++ ' ' :: line) := by
  have first := isLine_word isRun
  constructor
  · rw [List.head?_append_of_ne_nil _ isRun.nonempty]
    exact first.starts
  · rw [List.forall_mem_append, List.forall_mem_cons]
    exact ⟨first.spaces, fun _ => rfl, isLine.spaces⟩
  · rw [List.isChain_append, List.isChain_cons]
    refine ⟨first.apart, ⟨fun c next => .inr (isLine.starts c next), isLine.apart⟩, ?_⟩
    exact fun c last _ _ => .inl (isRun.solid c (List.mem_of_mem_getLast? last))

theorem isLine_join {found : List (List Char)} (isRun : ∀ word ∈ found, IsRun isBlank word) :
    IsLine ([' '].intercalate found) := by
  induction found with
  | nil => exact isLine_nil
  | cons word found ih =>
    obtain ⟨first, others⟩ := List.forall_mem_cons.mp isRun
    cases found with
    | nil =>
      rw [List.intercalate_singleton]
      exact isLine_word first
    | cons next found =>
      rw [List.intercalate_cons_cons, List.append_assoc, List.singleton_append]
      exact (ih others).cons_word first

theorem isLine_oneLine (s : List Char) : IsLine (oneLine s) :=
  isLine_join (consists_iff.mpr rfl).isRun

/-! ### Cuts -/

section

variable {drop : Char → Bool} {s front : List Char}

theorem trimRight_append_singleton (c : Char) :
    trimRight drop (s ++ [c]) = if drop c then trimRight drop s else s ++ [c] :=
  List.rdropWhile_concat drop s c

theorem trimRight_isPrefix (drop : Char → Bool) (s : List Char) : trimRight drop s <+: s :=
  List.rdropWhile_prefix drop s

theorem getLast?_trimRight : ∀ c ∈ (trimRight drop s).getLast?, drop c = false := by
  intro c last
  obtain ⟨some, rfl⟩ := List.mem_getLast?_eq_getLast last
  exact Bool.eq_false_iff.mpr (List.rdropWhile_last_not drop s some)

/-- What is left is the longest front that does not end in what is trimmed. -/
theorem prefix_trimRight (begins : front <+: s) (ends : ∀ c ∈ front.getLast?, drop c = false) :
    front <+: trimRight drop s := by
  induction s using List.reverseRecOn with
  | nil => exact begins
  | append_singleton s c ih =>
    rw [trimRight_append_singleton]
    split
    · next dropped =>
      rcases List.prefix_concat_iff.mp begins with rfl | shorter
      · rw [ends c List.getLast?_concat] at dropped
        cases dropped
      · exact ih shorter
    · exact begins

/-- Where blanks stand alone, one of them is trimmed at most. -/
theorem length_le_trimRight (apart : s.IsChain Apart) :
    s.length ≤ (trimRight isBlank s).length + 1 := by
  rcases s.eq_nil_or_concat' with rfl | ⟨front, c, rfl⟩
  · exact Nat.zero_le _
  · rw [trimRight_append_singleton]
    split
    · next blank =>
      obtain ⟨_, _, joint⟩ := List.isChain_append.mp apart
      have ends : ∀ d ∈ front.getLast?, isBlank d = false := fun d last =>
        (joint d last c rfl).resolve_right (by simp [blank])
      have kept := prefix_trimRight (List.prefix_refl front) ends
      rw [List.length_append, List.length_singleton]
      exact Nat.succ_le_succ kept.length_le
    · exact Nat.le_succ _

end

/-- A front of a line that may be shown: there is something in it, it has `length` characters at
most, and no blank at its end. -/
structure IsFront (line : List Char) (length : Int) (front : List Char) : Prop where
  begins : front <+: line
  nonempty : front ≠ []
  short : front.length ≤ length
  ends : ∀ c ∈ front.getLast?, isBlank c = false

/-- The longest front that may be shown. -/
structure IsCut (line : List Char) (length : Int) (front : List Char) : Prop
    extends IsFront line length front where
  longest : ∀ other, IsFront line length other → other.length ≤ front.length

section

variable {line : List Char} {length : Int}

theorem IsLine.isCut (isLine : IsLine line) (positive : 1 ≤ length) (long : length < line.length) :
    IsCut line length (trimRight isBlank (line.take length.toNat)) := by
  have inside {front : List Char} : front <+: line.take length.toNat ↔
      front <+: line ∧ front.length ≤ length := by
    rw [List.prefix_take_iff, Int.le_toNat (by omega)]
  have begins := inside.mp (trimRight_isPrefix isBlank _)
  have longest : ∀ other, IsFront line length other →
      other <+: trimRight isBlank (line.take length.toNat) := fun other front =>
    prefix_trimRight (inside.mpr ⟨front.begins, front.short⟩) front.ends
  have nonempty : trimRight isBlank (line.take length.toNat) ≠ [] := by
    -- the first character alone may be shown
    cases line with
    | nil =>
      simp at long
      omega
    | cons c rest =>
      have first : IsFront (c :: rest) length [c] :=
        ⟨⟨rest, rfl⟩, List.cons_ne_nil _ _, positive, fun d last => isLine.starts d last⟩
      exact fun none => absurd (none ▸ longest [c] first) (by simp)
  exact ⟨⟨begins.1, nonempty, begins.2, getLast?_trimRight⟩,
    fun other front => (longest other front).length_le⟩

/-- One space at most is trimmed behind a cut. -/
theorem IsLine.le_length_cut (isLine : IsLine line) (long : length < line.length) :
    length ≤ (trimRight isBlank (line.take length.toNat)).length + 1 := by
  have taken : (line.take length.toNat).length = length.toNat := List.length_take_of_le (by omega)
  have begins := List.take_prefix length.toNat line
  have near := length_le_trimRight (isLine.of_prefix begins).apart
  rw [taken] at near
  omega

/-- How a line is shortened: what is shown is the whole line or its longest front and an ellipsis,
in any case on a single line that begins with no blank. -/
structure Shortening (line : List Char) (length : Int) (shown : List Char) : Prop where
  whole : line.length ≤ length → shown = line
  cut : length < line.length → ∃ front, IsCut line length front ∧ length ≤ front.length + 1 ∧
    shown = front ++ ['.', '.', '.']
  single : ∀ c ∈ shown, endsLine c = false
  short : shown.length ≤ length + 3
  starts : ∀ c ∈ shown.head?, isBlank c = false

theorem IsLine.shortening_self (isLine : IsLine line) (short : line.length ≤ length) :
    Shortening line length line where
  whole _ := rfl
  cut long := by omega
  single := isLine.not_endsLine
  short := by omega
  starts := isLine.starts

theorem IsCut.shortening {front : List Char} (isCut : IsCut line length front) (isLine : IsLine line)
    (long : length < line.length) (near : length ≤ front.length + 1) :
    Shortening line length (front ++ ['.', '.', '.']) where
  whole short := by omega
  cut _ := ⟨front, isCut, near, rfl⟩
  single := by
    have dots : ∀ c ∈ ['.', '.', '.'], endsLine c = false := by simp [endsLine, inRanges]
    exact List.forall_mem_append.mpr ⟨(isLine.of_prefix isCut.begins).not_endsLine, dots⟩
  short := by
    rw [List.length_append, Int.natCast_add]
    exact Int.add_le_add_right isCut.short 3
  starts := by
    rw [List.head?_append_of_ne_nil _ isCut.nonempty]
    exact (isLine.of_prefix isCut.begins).starts

theorem shortening_shorten (positive : 1 ≤ length) (s : List Char) :
    Shortening (oneLine s) length (shorten s length) := by
  have isLine := isLine_oneLine s
  simp only [shorten]
  split
  · next short => exact isLine.shortening_self short
  · next long =>
    rw [upTo, if_pos (by omega)]
    have long := Int.not_le.mp long
    exact (isLine.isCut positive long).shortening isLine long (isLine.le_length_cut long)

end

/-- What is shown of a text: its words, with one space between neighbours, are shortened. -/
def ShownAs (s : List Char) (length : Int) (shown : List Char) : Prop :=
  ∃ found, (∀ others, Consists s others ↔ others = found) ∧
    Shortening ([' '].intercalate found) length shown

theorem shownAs_shorten {length : Int} (positive : 1 ≤ length) (s : List Char) :
    ShownAs s length (shorten s length) :=
  ⟨words s, fun _ => consists_iff, shortening_shorten positive s⟩

example : shorten "one  two\n three".toList 8 = "one two...".toList := by
  decide

end ReplyFlow.Text
