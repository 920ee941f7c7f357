import ReplyFlow.Canvas.Codec
import ReplyFlow.Proofs.Decimal.Written
import ReplyFlow.Proofs.Lists

/-! What the path of a curve draws.

A path is read word by word, as a canvas reads it. Its numbers have six digits at most, so it draws
the curve itself only if no more are needed; else it draws the nearest points that can be written.
-/

set_option autoImplicit false

namespace ReplyFlow

open Decimal

/-! ### Curves of numbers -/

namespace Curve

variable {α β : Type}

/-- The eight numbers of a curve, in the order in which a path has them. -/
def numbers (curve : Curve α) : List α :=
  [curve.start.x, curve.start.y, curve.firstControl.x, curve.firstControl.y,
    curve.secondControl.x, curve.secondControl.y, curve.finish.x, curve.finish.y]

def map (f : α → β) (curve : Curve α) : Curve β :=
  ⟨⟨f curve.start.x, f curve.start.y⟩, ⟨f curve.firstControl.x, f curve.firstControl.y⟩,
    ⟨f curve.secondControl.x, f curve.secondControl.y⟩, ⟨f curve.finish.x, f curve.finish.y⟩⟩

theorem numbers_map (f : α → β) (curve : Curve α) :
    (curve.map f).numbers = curve.numbers.map f := rfl

theorem numbers_injective {first second : Curve α} (same : first.numbers = second.numbers) :
    first = second := by
  obtain ⟨⟨_, _⟩, ⟨_, _⟩, ⟨_, _⟩, ⟨_, _⟩⟩ := first
  obtain ⟨⟨_, _⟩, ⟨_, _⟩, ⟨_, _⟩, ⟨_, _⟩⟩ := second
  simpa [numbers, and_assoc] using same

end Curve

/-! ### Reading a path -/

namespace Path

/-- Words are separated by blanks and commas. -/
def separates (c : Char) : Bool :=
  c == ' ' || c == ','

def words (s : List Char) : List (List Char) :=
  (s.splitOnP separates).filter (!·.isEmpty)

/-- The curve of a path that moves to a point and draws one cubic curve from there. -/
def read? (s : List Char) : Option (Curve ℚ) :=
  match words s with
  | [['M'], a, b, ['C'], c, d, e, f, g, h] => do
    return ⟨⟨← readValue? a, ← readValue? b⟩, ⟨← readValue? c, ← readValue? d⟩,
      ⟨← readValue? e, ← readValue? f⟩, ⟨← readValue? g, ← readValue? h⟩⟩
  | _ => none

/-- A word without separators. -/
structure IsWord (word : List Char) : Prop where
  nonempty : word ≠ []
  solid : ∀ c ∈ word, separates c = false

variable {word rest : List Char} {separator : Char}

theorem IsWord.isRun (isWord : IsWord word) : IsRun separates word :=
  ⟨isWord.nonempty, isWord.solid⟩

theorem words_cons (isWord : IsWord word) (separated : separates separator) :
    words (word ++ separator :: rest) = word :: words rest :=
  isWord.isRun.runs_cons separated

theorem words_separator (separated : separates separator) :
    words (separator :: rest) = words rest :=
  runs_separator separated

theorem words_last (isWord : IsWord word) : words word = [word] :=
  isWord.isRun.runs_eq

theorem isWord_singleton {c : Char} (solid : separates c = false) : IsWord [c] where
  nonempty := List.cons_ne_nil _ _
  solid _ member := List.mem_singleton.mp member ▸ solid

end Path

/-! ### Drawn numbers -/

theorem separates_of_inNumeral {c : Char} (inside : InNumeral c) : Path.separates c = false := by
  rw [Path.separates, Bool.or_eq_false_iff, beq_eq_false_iff_ne, beq_eq_false_iff_ne]
  rcases inside with digit | rfl | rfl | rfl | rfl
  · constructor
    · rintro rfl
      exact absurd digit (by decide)
    · rintro rfl
      exact absurd digit (by decide)
  all_goals decide

theorem isWord_drawnNumber {x : Float} (finite : x.isFinite) :
    Path.IsWord (drawnNumber x).toList where
  nonempty none := by
    obtain ⟨rounded, read, _⟩ := NumeralStyle.readValue?_roundedText ⟨6, false⟩ 5 finite
    rw [show (NumeralStyle.roundedText ⟨6, false⟩ (5 + 1) x).toList = [] from none] at read
    cases read
  solid c member :=
    separates_of_inNumeral (NumeralStyle.inNumeral_roundedText ⟨6, false⟩ 5 finite c member)

theorem readValue?_drawnNumber {x : Float} (finite : x.isFinite) :
    ∃ shown, readValue? (drawnNumber x).toList = some shown ∧ BriefFor 6 (value x) shown :=
  NumeralStyle.readValue?_roundedText ⟨6, false⟩ 5 finite

/-- A point with finite coordinates. -/
def Position.Finite (point : Position Float) : Prop :=
  point.x.isFinite ∧ point.y.isFinite

theorem words_drawnPoint {point : Position Float} (finite : point.Finite) {separator : Char}
    (separated : Path.separates separator) (rest : List Char) :
    Path.words ((drawnPoint point).toList ++ separator :: rest) =
      (drawnNumber point.x).toList :: (drawnNumber point.y).toList :: Path.words rest := by
  have letters : (drawnPoint point).toList =
      (drawnNumber point.x).toList ++ ' ' :: (drawnNumber point.y).toList := by
    simp [drawnPoint]
  rw [letters, List.append_assoc, List.cons_append,
    Path.words_cons (isWord_drawnNumber finite.1) rfl,
    Path.words_cons (isWord_drawnNumber finite.2) separated]

theorem words_drawnPoint_last {point : Position Float} (finite : point.Finite) :
    Path.words (drawnPoint point).toList =
      [(drawnNumber point.x).toList, (drawnNumber point.y).toList] := by
  have letters : (drawnPoint point).toList =
      (drawnNumber point.x).toList ++ ' ' :: (drawnNumber point.y).toList := by
    simp [drawnPoint]
  rw [letters, Path.words_cons (isWord_drawnNumber finite.1) rfl,
    Path.words_last (isWord_drawnNumber finite.2)]

namespace Curve

variable {curve : Curve Float}

theorem words_path (start : curve.start.Finite) (first : curve.firstControl.Finite)
    (second : curve.secondControl.Finite) (finish : curve.finish.Finite) :
    Path.words curve.path.toList =
      [['M'], (drawnNumber curve.start.x).toList, (drawnNumber curve.start.y).toList, ['C'],
        (drawnNumber curve.firstControl.x).toList, (drawnNumber curve.firstControl.y).toList,
        (drawnNumber curve.secondControl.x).toList, (drawnNumber curve.secondControl.y).toList,
        (drawnNumber curve.finish.x).toList, (drawnNumber curve.finish.y).toList] := by
  have letters : curve.path.toList = ['M'] ++ ' ' :: ((drawnPoint curve.start).toList ++ ' ' ::
      (['C'] ++ ' ' :: ((drawnPoint curve.firstControl).toList ++ ',' :: ' ' ::
        ((drawnPoint curve.secondControl).toList ++ ',' :: ' ' ::
          (drawnPoint curve.finish).toList)))) := by
    simp [path]
  rw [letters, Path.words_cons (Path.isWord_singleton rfl) rfl, words_drawnPoint start rfl,
    Path.words_cons (Path.isWord_singleton rfl) rfl, words_drawnPoint first rfl,
    Path.words_separator rfl, words_drawnPoint second rfl, Path.words_separator rfl,
    words_drawnPoint_last finish]

/-- A path is read as numbers with six digits, and none with so few are nearer to those of the
curve. -/
theorem exists_read (finite : ∀ x ∈ curve.numbers, x.isFinite) :
    ∃ shown : Curve ℚ, Path.read? curve.path.toList = some shown ∧
      List.Forall₂ (fun x number => BriefFor 6 (value x) number) curve.numbers shown.numbers := by
  simp only [numbers, List.forall_mem_cons] at finite
  obtain ⟨a, b, c, d, e, f, g, h, _⟩ := finite
  obtain ⟨a', readA, briefA⟩ := readValue?_drawnNumber a
  obtain ⟨b', readB, briefB⟩ := readValue?_drawnNumber b
  obtain ⟨c', readC, briefC⟩ := readValue?_drawnNumber c
  obtain ⟨d', readD, briefD⟩ := readValue?_drawnNumber d
  obtain ⟨e', readE, briefE⟩ := readValue?_drawnNumber e
  obtain ⟨f', readF, briefF⟩ := readValue?_drawnNumber f
  obtain ⟨g', readG, briefG⟩ := readValue?_drawnNumber g
  obtain ⟨h', readH, briefH⟩ := readValue?_drawnNumber h
  refine ⟨⟨⟨a', b'⟩, ⟨c', d'⟩, ⟨e', f'⟩, ⟨g', h'⟩⟩, ?_, ?_⟩
  · rw [Path.read?, words_path ⟨a, b⟩ ⟨c, d⟩ ⟨e, f⟩ ⟨g, h⟩]
    simp [readA, readB, readC, readD, readE, readF, readG, readH]
  · simp only [numbers, List.forall₂_cons, List.Forall₂.nil, and_true]
    exact ⟨briefA, briefB, briefC, briefD, briefE, briefF, briefG, briefH⟩

theorem eq_map_value_iff {numbers : List Float} {shown : List ℚ}
    (near : List.Forall₂ (fun x number => BriefFor 6 (value x) number) numbers shown) :
    shown = numbers.map value ↔ ∀ x ∈ numbers, Brief 6 (value x) := by
  induction near with
  | nil => exact iff_of_true rfl (List.forall_mem_nil _)
  | cons first _ ih =>
    rw [List.map_cons, List.cons_eq_cons, first.eq_iff, ih, List.forall_mem_cons]

/-- What the path of a curve tells about it. -/
structure PathSpec (curve : Curve Float) (shown : Curve ℚ) : Prop where
  read : Path.read? curve.path.toList = some shown
  near : List.Forall₂ (fun x number => BriefFor 6 (value x) number) curve.numbers shown.numbers
  exact : shown = curve.map value ↔ ∀ x ∈ curve.numbers, Brief 6 (value x)

theorem exists_pathSpec (finite : ∀ x ∈ curve.numbers, x.isFinite) :
    ∃ shown, curve.PathSpec shown := by
  obtain ⟨shown, read, near⟩ := exists_read finite
  refine ⟨shown, read, near, ?_⟩
  rw [← eq_map_value_iff near, ← numbers_map]
  exact ⟨congrArg numbers, numbers_injective⟩

/-- The path is the curve itself if its numbers are whole ones below a million, or halves below a
hundred thousand. -/
theorem read?_path_of_small (finite : ∀ x ∈ curve.numbers, x.isFinite)
    (small : ∀ x ∈ curve.numbers, ∃ n : ℤ,
      |n| < 10 ^ 6 ∧ value x = n ∨ |n| < 2 * 10 ^ 5 ∧ value x = n / 2) :
    Path.read? curve.path.toList = some (curve.map value) := by
  obtain ⟨shown, spec⟩ := exists_pathSpec finite
  rw [spec.read, spec.exact.mpr]
  intro x member
  obtain ⟨n, ⟨few, same⟩ | ⟨few, same⟩⟩ := small x member
  · exact ⟨n, 0, few, by rw [same, zpow_zero, mul_one]⟩
  · refine ⟨5 * n, -1, ?_, ?_⟩
    · rw [abs_mul, abs_of_pos (by norm_num : (0 : ℤ) < 5)]
      omega
    · rw [same]
      push_cast
      ring

end Curve

/-- The path of a connector is read as a curve whose numbers have six digits, with none nearer to
those of the connector, and as the very curve of the connector just if its numbers have no more. -/
theorem Graph.plan_paths (graph : Graph Float) (size : BoxSize Float) :
    ∀ connector ∈ (graph.plan size).connectors, (∀ x ∈ connector.curve.numbers, x.isFinite) →
      ∃ shown, connector.curve.PathSpec shown :=
  fun _ _ finite => Curve.exists_pathSpec finite

namespace Samples

/-- So far to the right that whole numbers have seven digits. -/
def remote : Graph Float :=
  ⟨[⟨"start", .start, ⟨ofInt 1000001, ofInt 300⟩, .marker "From" false none, rfl⟩,
      ⟨"end", .finish, ⟨ofInt 1000401, ofInt 300⟩, .marker "To" false none, rfl⟩],
    [⟨"conn-start-end", "start", "end", none⟩]⟩

end Samples

theorem Graph.plan_paths_remote :
    ∃ connector ∈ (Samples.remote.plan .default).connectors,
      (∀ x ∈ connector.curve.numbers, x.isFinite) ∧ ∃ shown, connector.curve.PathSpec shown := by
  have drawn : ∃ connector ∈ (Samples.remote.plan .default).connectors,
      ∀ x ∈ connector.curve.numbers, x.isFinite := by
    decide +kernel
  obtain ⟨connector, member, finite⟩ := drawn
  exact ⟨connector, member, finite,
    Samples.remote.plan_paths .default connector member finite⟩

/-- Only six of the seven digits are drawn. -/
theorem Graph.plan_paths_inexact :
    ∃ connector ∈ (Samples.remote.plan .default).connectors,
      connector.curve.numbers.map value =
        [1000101, 330, 1000251, 330, 1000251, 330, 1000401, 330] ∧
      connector.curve.path =
        "M 1.0001e+06 330 C 1.00025e+06 330, 1.00025e+06 330, 1.0004e+06 330" ∧
      Path.read? connector.curve.path.toList ≠ some (connector.curve.map value) := by
  decide +kernel

end ReplyFlow
