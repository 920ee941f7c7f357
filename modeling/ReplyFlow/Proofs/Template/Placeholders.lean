import Mathlib.Data.List.Infix
import Mathlib.Data.List.TakeWhile
import Mathlib.Order.Nat
import ReplyFlow.Proofs.Lists
import ReplyFlow.Template.Placeholder

/-! Which names the placeholders of a message have, and in which order.

Behind its two opening braces a placeholder has no brace of that kind, so no other placeholder
begins inside it. The scan goes on behind every placeholder that it finds, and passes over none.
-/

set_option autoImplicit false

namespace ReplyFlow.Placeholder

/-- A name begins with a letter or an underscore and goes on with these and with digits. -/
structure IsName (name : List Char) : Prop where
  starts : name.head?.any startsName
  continues : ∀ c ∈ name, continuesName c

/-- The text of a placeholder: a name with blanks around it, in double braces. -/
structure Spells (text name : List Char) : Prop where
  named : IsName name
  shape : ∃ before after, (∀ c ∈ before, Text.isBlank c) ∧ (∀ c ∈ after, Text.isBlank c) ∧
    text = opening :: opening :: (before ++ (name ++ (after ++ [closing, closing])))

/-- A placeholder of this name begins at this place of the text. -/
def OccursAt (text name : List Char) (place : Nat) : Prop :=
  ∃ shape, Spells shape name ∧ shape <+: text.drop place

/-- The first place where a placeholder of this name begins. -/
structure FirstAt (text name : List Char) (place : Nat) : Prop where
  occurs : OccursAt text name place
  least : ∀ other, OccursAt text name other → place ≤ other

/-! ## Characters -/

theorem toNat_of_continuesName {c : Char} (continues : continuesName c) :
    48 ≤ c.toNat ∧ c.toNat ≤ 122 := by
  simp only [continuesName, Char.isAlphanum, Bool.or_eq_true, beq_iff_eq, isAlpha_iff_toNat,
    isDigit_iff_toNat] at continues
  rcases continues with (letter | digit) | rfl
  · omega
  · omega
  · decide

theorem isBlank_of_continuesName {c : Char} (continues : continuesName c) :
    Text.isBlank c = false := by
  have bounds := toNat_of_continuesName continues
  rw [Bool.eq_false_iff]
  intro blank
  simp [Text.isBlank, Text.inRanges, Text.blankRanges] at blank
  omega

theorem continuesName_of_isBlank {c : Char} (blank : Text.isBlank c) : continuesName c = false := by
  rw [Bool.eq_false_iff]
  intro continues
  rw [isBlank_of_continuesName continues] at blank
  cases blank

theorem ne_opening_of_isBlank {c : Char} (blank : Text.isBlank c) : c ≠ opening := by
  rintro rfl
  exact absurd blank (by decide)

theorem ne_opening_of_continuesName {c : Char} (continues : continuesName c) : c ≠ opening := by
  rintro rfl
  exact absurd continues (by decide)

/-! ## One placeholder -/

theorem head?_of_closing {after : List Char} (blank : ∀ c ∈ after, Text.isBlank c)
    (tail : List Char) :
    ∀ c ∈ (after ++ closing :: tail).head?, continuesName c = false := by
  intro c first
  cases after with
  | nil =>
    rw [← Option.some.inj first]
    decide
  | cons d after =>
    rw [← Option.some.inj first]
    exact continuesName_of_isBlank (blank d List.mem_cons_self)

theorem IsName.head?_append {name : List Char} (named : IsName name) (rest : List Char) :
    ∀ c ∈ (name ++ rest).head?, Text.isBlank c = false := by
  intro c first
  cases name with
  | nil => cases named.starts
  | cons d name =>
    rw [← Option.some.inj first]
    exact isBlank_of_continuesName (named.continues d List.mem_cons_self)

theorem Spells.starting?_eq {text name : List Char} (spells : Spells text name) (tail : List Char) :
    starting? (text ++ tail) = some (name, tail) := by
  obtain ⟨named, before, after, blank, blanks, rfl⟩ := spells
  have ends : ∀ c ∈ (closing :: closing :: tail).head?, Text.isBlank c = false := by
    intro c first
    rw [← Option.some.inj first]
    decide
  have inside := dropWhile_run blank (named.head?_append (after ++ closing :: closing :: tail))
  have first := takeWhile_run named.continues (head?_of_closing blanks (closing :: tail))
  have behind := dropWhile_run named.continues (head?_of_closing blanks (closing :: tail))
  have last := dropWhile_run blanks ends
  simp only [List.cons_append, List.append_assoc, List.nil_append]
  simp only [starting?, inside, first, behind, last, named.starts, beq_self_eq_true,
    Bool.and_self, if_true]

theorem exists_spells {s name tail : List Char} (found : starting? s = some (name, tail)) :
    ∃ text, Spells text name ∧ s = text ++ tail := by
  simp only [starting?] at found
  split at found
  · rename_i a b rest
    split at found
    · rename_i braces
      simp only [Bool.and_eq_true, beq_iff_eq] at braces
      obtain ⟨⟨rfl, rfl⟩, starts⟩ := braces
      split at found
      · rename_i c d left behind
        split at found
        · rename_i ends
          simp only [Bool.and_eq_true, beq_iff_eq] at ends
          obtain ⟨rfl, rfl⟩ := ends
          obtain ⟨rfl, rfl⟩ := Prod.mk.inj (Option.some.inj found)
          -- the parts that the scan cuts off make up the text
          let inside := rest.dropWhile Text.isBlank
          let others := inside.dropWhile continuesName
          have named : IsName (inside.takeWhile continuesName) :=
            ⟨starts, fun _ member => List.mem_takeWhile_imp member⟩
          refine ⟨_, ⟨named, rest.takeWhile Text.isBlank, others.takeWhile Text.isBlank,
            fun _ member => List.mem_takeWhile_imp member,
            fun _ member => List.mem_takeWhile_imp member, rfl⟩, ?_⟩
          have cut : others.takeWhile Text.isBlank ++ closing :: closing :: left = others := by
            rw [← behind, List.takeWhile_append_dropWhile]
          simp only [List.cons_append, List.append_assoc, List.nil_append, cut]
          rw [List.takeWhile_append_dropWhile, List.takeWhile_append_dropWhile]
        · cases found
      · cases found
    · cases found
  · cases found

/-- The text of a placeholder has its opening braces at the front, and no others. -/
theorem Spells.exists_inner {text name : List Char} (spells : Spells text name) :
    ∃ c inner, text = opening :: opening :: c :: inner ∧ ∀ d ∈ c :: inner, d ≠ opening := by
  obtain ⟨named, before, after, blank, blanks, rfl⟩ := spells
  cases parts : before ++ (name ++ (after ++ [closing, closing])) with
  | nil => simp at parts
  | cons c inner =>
    refine ⟨c, inner, rfl, fun d member => ?_⟩
    rw [← parts] at member
    simp only [List.mem_append, List.mem_cons, List.not_mem_nil, or_false, or_self] at member
    rcases member with blankBefore | letter | blankAfter | brace
    · exact ne_opening_of_isBlank (blank d blankBefore)
    · exact ne_opening_of_continuesName (named.continues d letter)
    · exact ne_opening_of_isBlank (blanks d blankAfter)
    · rw [brace]
      decide

/-! ## The scan -/

/-- The names of the placeholders that begin at the places of a text, one place after another. -/
def names (s : List Char) : List (List Char) :=
  s.tails.filterMap fun rest => (starting? rest).map Prod.fst

theorem names_cons (c : Char) (s : List Char) :
    names (c :: s) = ((starting? (c :: s)).map Prod.fst).toList ++ names s := by
  rw [names, names, List.tails_cons, List.filterMap_cons]
  cases starting? (c :: s) <;> rfl

theorem starting?_eq_none {c : Char} {s : List Char}
    (single : c ≠ opening ∨ ∀ d ∈ s.head?, d ≠ opening) : starting? (c :: s) = none := by
  cases found : starting? (c :: s) with
  | none => rfl
  | some parts =>
    obtain ⟨text, spells, split⟩ := exists_spells found
    obtain ⟨d, inner, rfl, _⟩ := spells.exists_inner
    obtain ⟨rfl, rfl⟩ := List.cons.inj split
    rcases single with other | other
    · exact absurd rfl other
    · exact absurd rfl (other opening rfl)

/-- Without an opening brace no placeholder begins. -/
theorem names_append {quiet : List Char} (none : ∀ c ∈ quiet, c ≠ opening) (s : List Char) :
    names (quiet ++ s) = names s := by
  induction quiet with
  | nil => rfl
  | cons c quiet ih =>
    obtain ⟨here, later⟩ := List.forall_mem_cons.mp none
    rw [List.cons_append, names_cons, starting?_eq_none (.inl here), ih later]
    rfl

/-- No other placeholder begins inside a placeholder. -/
theorem Spells.names_eq {text name : List Char} (spells : Spells text name) (tail : List Char) :
    names (text ++ tail) = name :: names tail := by
  have here := spells.starting?_eq tail
  obtain ⟨c, inner, rfl, quiet⟩ := spells.exists_inner
  have second : starting? (opening :: (c :: inner ++ tail)) = none := by
    apply starting?_eq_none
    right
    intro d first
    rw [← Option.some.inj first]
    exact quiet c List.mem_cons_self
  rw [List.cons_append, List.cons_append] at here ⊢
  rw [names_cons, here, names_cons, second, names_append quiet]
  rfl

theorem scan_eq_cons {s name tail : List Char} (found : starting? s = some (name, tail)) :
    scan s = name :: scan tail := by
  rw [scan]
  split
  · rename_i other behind same
    rw [found, Option.some.injEq, Prod.mk.injEq] at same
    rw [same.1, same.2]
  · rename_i none
    rw [found] at none
    cases none

theorem scan_cons {c : Char} {rest : List Char} (none : starting? (c :: rest) = none) :
    scan (c :: rest) = scan rest := by
  rw [scan]
  split
  · rename_i found
    rw [none] at found
    cases found
  · rfl

/-- The scan misses no placeholder. -/
theorem scan_eq_names (s : List Char) : scan s = names s := by
  induction s using scan.induct with
  | case1 s name tail found _ ih =>
    obtain ⟨text, spells, rfl⟩ := exists_spells found
    rw [scan_eq_cons found, ih, spells.names_eq]
  | case2 none =>
    rw [scan]
    rfl
  | case3 c rest none ih =>
    rw [scan_cons none, ih, names_cons, none]
    rfl

/-! ## Places -/

variable {text name : List Char}

theorem occursAt_iff {place : Nat} :
    OccursAt text name place ↔ (starting? (text.drop place)).map Prod.fst = some name := by
  constructor
  · rintro ⟨shape, spells, tail, split⟩
    rw [← split, spells.starting?_eq]
    rfl
  · intro found
    obtain ⟨⟨_, tail⟩, starts, rfl⟩ := Option.map_eq_some_iff.mp found
    obtain ⟨shape, spells, split⟩ := exists_spells starts
    exact ⟨shape, spells, tail, split.symm⟩

/-- At one place one placeholder begins at most. -/
theorem OccursAt.eq {other : List Char} {place : Nat} (here : OccursAt text name place)
    (there : OccursAt text other place) : name = other := by
  rw [occursAt_iff] at here there
  exact Option.some.inj (here.symm.trans there)

theorem mem_names : name ∈ names text ↔ ∃ place, OccursAt text name place := by
  rw [names, List.mem_filterMap]
  constructor
  · rintro ⟨rest, suffix, found⟩
    refine ⟨text.length - rest.length, occursAt_iff.mpr ?_⟩
    rw [← List.suffix_iff_eq_drop.mp ((List.mem_tails _ _).mp suffix), found]
  · rintro ⟨place, occurs⟩
    exact ⟨text.drop place, (List.mem_tails _ _).mpr (List.drop_suffix place text),
      occursAt_iff.mp occurs⟩

theorem OccursAt.exists_firstAt {place : Nat} (occurs : OccursAt text name place) :
    ∃ first, FirstAt text name first := by
  classical
  have known : ∃ place, OccursAt text name place := ⟨place, occurs⟩
  exact ⟨Nat.find known, Nat.find_spec known, fun _ other => Nat.find_min' known other⟩

/-- A name that comes first in the row of names occurs first in the text. -/
theorem exists_before {a b : List Char} {front back : List (List Char)}
    (row : names text = front ++ a :: back) (absent : b ∉ front) (other : b ≠ a) :
    ∃ place, OccursAt text a place ∧ ∀ later, OccursAt text b later → place < later := by
  induction text generalizing front with
  | nil => simp [names, starting?] at row
  | cons c text ih =>
    rw [names_cons] at row
    cases here : starting? (c :: text) with
    | none =>
      rw [here] at row
      obtain ⟨place, occurs, before⟩ := ih row absent
      refine ⟨place + 1, occurs, fun later found => ?_⟩
      cases later with
      | zero =>
        rw [occursAt_iff, List.drop_zero, here] at found
        cases found
      | succ later => exact Nat.succ_lt_succ (before later found)
    | some parts =>
      have first : OccursAt (c :: text) parts.1 0 := by
        rw [occursAt_iff, List.drop_zero, here]
        rfl
      rw [here] at row
      cases front with
      | nil =>
        obtain ⟨same, _⟩ := List.cons.inj row
        rw [same] at first
        refine ⟨0, first, fun later found => ?_⟩
        cases later with
        | zero => exact absurd (found.eq first) other
        | succ later => exact Nat.succ_pos later
      | cons d front =>
        obtain ⟨same, rest⟩ := List.cons.inj row
        rw [List.mem_cons, not_or] at absent
        obtain ⟨place, occurs, before⟩ := ih rest absent.2
        refine ⟨place + 1, occurs, fun later found => ?_⟩
        cases later with
        | zero => exact absurd ((found.eq first).trans same) absent.1
        | succ later => exact Nat.succ_lt_succ (before later found)

end ReplyFlow.Placeholder

namespace ReplyFlow

open Placeholder

theorem Template.mem_placeholders {template : Template} {name : String} :
    name ∈ template.placeholders ↔ ∃ place, OccursAt template.message.toList name.toList place := by
  rw [placeholders, List.mem_eraseDups, List.mem_map, scan_eq_names, ← mem_names]
  constructor
  · rintro ⟨letters, member, rfl⟩
    rwa [String.toList_ofList]
  · intro member
    exact ⟨name.toList, member, String.ofList_toList⟩

/-- The names of the placeholders are distinct. They are the names of all placeholders that begin
somewhere in the message, and stand in the order of the first places where these begin. -/
theorem Template.placeholders_spec (template : Template) :
    template.placeholders.Nodup ∧
      (∀ name, name ∈ template.placeholders ↔ IsName name.toList ∧
        ∃ place, OccursAt template.message.toList name.toList place) ∧
      template.placeholders.Pairwise fun earlier later => ∃ first second,
        FirstAt template.message.toList earlier.toList first ∧
          FirstAt template.message.toList later.toList second ∧ first < second := by
  refine ⟨nodup_eraseDups _, fun name => ?_, ?_⟩
  · rw [mem_placeholders]
    constructor
    · rintro ⟨place, shape, spells, begins⟩
      exact ⟨spells.named, place, shape, spells, begins⟩
    · exact And.right
  · apply (pairwise_eraseDups _).imp_of_mem
    intro earlier later _ member order
    obtain ⟨front, back, row, absent, other⟩ := order
    rw [scan_eq_names] at row
    obtain ⟨before, after, split, rfl, others⟩ := List.map_eq_append_iff.mp row
    obtain ⟨name, rest, rfl, rfl, _⟩ := List.map_eq_cons_iff.mp others
    have unread : later.toList ∉ before := by
      intro known
      apply absent
      rw [← String.ofList_toList (s := later)]
      exact List.mem_map_of_mem known
    have different : later.toList ≠ name := by
      rintro rfl
      exact other String.ofList_toList.symm
    obtain ⟨place, occurs, ahead⟩ := exists_before split unread different
    obtain ⟨_, found⟩ := mem_placeholders.mp member
    obtain ⟨first, begins⟩ := occurs.exists_firstAt
    obtain ⟨second, follows⟩ := found.exists_firstAt
    rw [String.toList_ofList]
    exact ⟨first, second, begins, follows,
      Nat.lt_of_le_of_lt (begins.least place occurs) (ahead second follows.occurs)⟩

end ReplyFlow
