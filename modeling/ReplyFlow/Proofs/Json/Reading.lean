import ReplyFlow.Proofs.Json.Numbers
import ReplyFlow.Proofs.Json.Texts

/-! Values are read back from the text that is written of them on one line. -/

set_option autoImplicit false

namespace ReplyFlow.Json

open Decimal

/-- A value that JSON text can carry, in which lists and objects stand inside each other at most
so many levels deep. -/
inductive Plain : Nat → Json → Prop where
  | null {levels : Nat} : Plain levels .null
  | bool {levels : Nat} (value : Bool) : Plain levels (.bool value)
  | whole {levels : Nat} {value : Int} :
    decimalLength value.natAbs ≤ digitLimit → Plain levels (.whole value)
  | number {levels : Nat} (value : Float) : Plain levels (.number value)
  | text {levels : Nat} (value : String) : Plain levels (.text value)
  | list {levels : Nat} {items : List Json} :
    (∀ item ∈ items, Plain levels item) → Plain (levels + 1) (.list items)
  | object {levels : Nat} {members : Members} : (members.map Prod.fst).Nodup →
    (∀ member ∈ members, Plain levels member.2) → Plain (levels + 1) (.object members)

variable {levels fuel : Nat} {rest s : List Char}

@[simp] theorem plain_null : Plain levels .null :=
  .null

@[simp] theorem plain_bool (value : Bool) : Plain levels (.bool value) :=
  .bool value

@[simp] theorem plain_number (value : Float) : Plain levels (.number value) :=
  .number value

@[simp] theorem plain_text (value : String) : Plain levels (.text value) :=
  .text value

@[simp] theorem plain_whole_iff {value : Int} :
    Plain levels (.whole value) ↔ decimalLength value.natAbs ≤ digitLimit :=
  ⟨fun | .whole short => short, .whole⟩

@[simp] theorem plain_list_iff {items : List Json} :
    Plain (levels + 1) (.list items) ↔ ∀ item ∈ items, Plain levels item :=
  ⟨fun | .list each => each, .list⟩

@[simp] theorem plain_object_iff {members : Members} :
    Plain (levels + 1) (.object members) ↔
      (members.map Prod.fst).Nodup ∧ ∀ member ∈ members, Plain levels member.2 :=
  ⟨fun | .object distinct each => ⟨distinct, each⟩, fun ⟨distinct, each⟩ => .object distinct each⟩

/-! ### What a value begins with -/

/-- No value begins with a blank, with a closing bracket or with a mark of the octet order. -/
theorem exists_of_readValue {result : Json × List Char}
    (read : readValue levels fuel s = .ok result) :
    ∃ c others, s = c :: others ∧ isSpace c = false ∧ c ≠ ']' ∧ c.toNat ≠ 0xFEFF := by
  have none (fuel : Nat) (c : Char) (others : List Char)
      (outside : c ∈ [' ', '\t', '\n', '\r', ']', '\uFEFF']) :
      readValue levels fuel (c :: others) ≠ .ok result := by
    simp only [List.mem_cons, List.not_mem_nil, or_false] at outside
    rcases outside with rfl | rfl | rfl | rfl | rfl | rfl <;> cases fuel <;> exact nofun
  cases s with
  | nil => cases fuel <;> cases read
  | cons c others =>
    refine ⟨c, others, rfl, ?_, ?_, ?_⟩
    · rw [Bool.eq_false_iff]
      intro space
      simp only [isSpace, Bool.or_eq_true, beq_iff_eq] at space
      exact none fuel c others (by simp only [List.mem_cons]; tauto) read
    · rintro rfl
      exact none fuel _ others (by simp) read
    · intro mark
      rw [← Char.ofNat_toNat c, mark] at read
      exact none fuel _ others (by simp) read

theorem skip_of_readValue {result : Json × List Char}
    (read : readValue levels fuel s = .ok result) : skip s = s := by
  obtain ⟨c, others, rfl, solid, _⟩ := exists_of_readValue read
  rw [skip, List.dropWhile_cons, solid]
  rfl

/-- What is read as a number is read as no other value. -/
theorem readValue_of_readNumeral {result : Json × List Char}
    (read : readNumeral s = .ok result) : readValue levels (fuel + 1) s = .ok result := by
  rw [readValue, readScalar]
  · exact read
  all_goals
    rintro others rfl
    cases read

/-! ### Lists and objects -/

/-- The value is read from its text, wherever it is followed by what can follow a value. -/
def ReadsBack (levels : Nat) (value : Json) : Prop :=
  ∀ (level fuel : Nat) (rest : List Char), (value.write .line level).toList.length < fuel →
    Stops rest →
    readValue levels fuel ((value.write .line level).toList ++ rest) = .ok (value, rest)

theorem stops_comma (s : List Char) : Stops (',' :: s) := by
  rintro _ ⟨⟩
  exact .inl rfl

theorem stops_bracket (s : List Char) : Stops (']' :: s) := by
  rintro _ ⟨⟩
  exact .inr (.inl rfl)

theorem stops_brace (s : List Char) : Stops ('\x7d' :: s) := by
  rintro _ ⟨⟩
  exact .inr (.inr rfl)

theorem toList_writeItems_cons (level : Nat) (item : Json) (others : List Json) :
    (writeItems .line level (item :: others)).toList =
      ',' :: ' ' :: ((item.write .line (level + 1)).toList
        ++ (writeItems .line level others).toList) := by
  simp [writeItems, Format.between]

theorem toList_writeMembers_cons (level : Nat) (name : String) (value : Json) (others : Members) :
    (writeMembers .line level ((name, value) :: others)).toList =
      ',' :: ' ' :: ((quoted name).toList ++ ':' :: ' ' :: ((value.write .line (level + 1)).toList
        ++ (writeMembers .line level others).toList)) := by
  simp [writeMembers, Format.between]

theorem toList_write_list (level : Nat) (item : Json) (others : List Json) :
    ((Json.list (item :: others)).write .line level).toList =
      '[' :: ((item.write .line (level + 1)).toList
        ++ (writeItems .line level others).toList ++ [']']) := by
  simp [write, Format.enter, Format.leave]

theorem toList_write_object (level : Nat) (name : String) (value : Json) (others : Members) :
    ((Json.object ((name, value) :: others)).write .line level).toList =
      '\x7b' :: ((quoted name).toList ++ ':' :: ' ' :: ((value.write .line (level + 1)).toList
        ++ (writeMembers .line level others).toList) ++ ['\x7d']) := by
  simp [write, Format.enter, Format.leave]

theorem stops_writeItems (level : Nat) (others : List Json) (rest : List Char) :
    Stops ((writeItems .line level others).toList ++ ']' :: rest) := by
  cases others with
  | nil => exact stops_bracket rest
  | cons item others =>
    rw [toList_writeItems_cons]
    exact stops_comma _

theorem ReadsBack.skip_eq {value : Json} (reads : ReadsBack levels value) (level : Nat)
    (stops : Stops rest) :
    skip ((value.write .line level).toList ++ rest) = (value.write .line level).toList ++ rest :=
  skip_of_readValue (reads level _ rest (Nat.lt_succ_self _) stops)

theorem skip_blank (s : List Char) : skip (' ' :: s) = skip s :=
  rfl

/-- The items of a list, from one of them to the closing bracket. -/
theorem readItems_write {item : Json} {others : List Json}
    (each : ∀ value ∈ item :: others, ReadsBack levels value) (level : Nat) (done : List Json)
    (enough : (item.write .line (level + 1)).toList.length
      + (writeItems .line level others).toList.length + 1 < fuel) :
    readItems levels fuel done ((item.write .line (level + 1)).toList
        ++ ((writeItems .line level others).toList ++ ']' :: rest)) =
      .ok (.list (done.reverse ++ item :: others), rest) := by
  induction others generalizing item done fuel with
  | nil =>
    obtain ⟨fuel, rfl⟩ : ∃ less, fuel = less + 1 := ⟨fuel - 1, by omega⟩
    have first := each item List.mem_cons_self (level + 1) fuel _ (by omega)
      (stops_writeItems level [] rest)
    rw [readItems, first]
    change Except.ok (Json.list (item :: done).reverse, rest) = _
    rw [List.reverse_cons]
  | cons next others ih =>
    obtain ⟨fuel, rfl⟩ : ∃ less, fuel = less + 1 := ⟨fuel - 1, by omega⟩
    have later : ∀ value ∈ next :: others, ReadsBack levels value := fun value member =>
      each value (List.mem_cons_of_mem _ member)
    have first := each item List.mem_cons_self (level + 1) fuel _ (by omega)
      (stops_writeItems level (next :: others) rest)
    have begins := (later next List.mem_cons_self).skip_eq (level + 1)
      (stops_writeItems level others rest)
    rw [toList_writeItems_cons] at first enough ⊢
    simp only [List.length_cons, List.length_append] at enough
    rw [readItems, first]
    simp only [List.cons_append, List.append_assoc]
    change readItems levels fuel (item :: done) (skip (' ' :: _)) = _
    rw [skip_blank, begins, ih later (item :: done) (by omega), List.reverse_cons,
      List.append_assoc]
    rfl

theorem set_of_distinct {members others : Members} {name : String} {value : Json}
    (distinct : ((members ++ (name, value) :: others).map Prod.fst).Nodup) :
    members.set name value = members ++ [(name, value)] := by
  rw [List.map_append, List.map_cons, List.nodup_append] at distinct
  rw [Members.set, if_neg]
  rw [List.any_eq_true]
  rintro ⟨⟨other, _⟩, member, same⟩
  exact distinct.2.2 other (List.mem_map_of_mem member) name List.mem_cons_self (beq_iff_eq.mp same)

theorem skip_quoted (text : String) (rest : List Char) :
    skip ((quoted text).toList ++ rest) = (quoted text).toList ++ rest := by
  rw [toList_quoted]
  rfl

theorem skip_colon (s : List Char) : skip (':' :: s) = ':' :: s :=
  rfl

section

variable {name : String} {value : Json} (reads : ReadsBack levels value) (level : Nat)
  (done : Members) (enough : (value.write .line (level + 1)).toList.length < fuel)
  (rest : List Char)

include reads enough

theorem readMembers_last :
    readMembers levels (fuel + 1) done ((quoted name).toList ++ ':' :: ' ' ::
        ((value.write .line (level + 1)).toList ++ '\x7d' :: rest)) =
      .ok (.object (done.set name value), rest) := by
  rw [toList_quoted]
  simp only [List.cons_append, List.append_assoc, List.nil_append]
  rw [readMembers, readText_quoted]
  simp only [skip_colon, skip_blank, reads.skip_eq (level + 1) (stops_brace rest),
    reads (level + 1) fuel _ enough (stops_brace rest)]
  rfl

theorem readMembers_more :
    readMembers levels (fuel + 1) done ((quoted name).toList ++ ':' :: ' ' ::
        ((value.write .line (level + 1)).toList ++ ',' :: rest)) =
      readMembers levels fuel (done.set name value) (skip rest) := by
  rw [toList_quoted]
  simp only [List.cons_append, List.append_assoc, List.nil_append]
  rw [readMembers, readText_quoted]
  simp only [skip_colon, skip_blank, reads.skip_eq (level + 1) (stops_comma rest),
    reads (level + 1) fuel _ enough (stops_comma rest)]
  rfl

end

/-- The members of an object, from one of them to the closing brace. -/
theorem readMembers_write {name : String} {value : Json} {others : Members}
    (each : ∀ member ∈ (name, value) :: others, ReadsBack levels member.2) (level : Nat)
    (done : Members) (distinct : ((done ++ (name, value) :: others).map Prod.fst).Nodup)
    (enough : (value.write .line (level + 1)).toList.length
      + (writeMembers .line level others).toList.length + 1 < fuel) (rest : List Char) :
    readMembers levels fuel done ((quoted name).toList ++ ':' :: ' ' ::
        ((value.write .line (level + 1)).toList
          ++ ((writeMembers .line level others).toList ++ '\x7d' :: rest))) =
      .ok (.object (done ++ (name, value) :: others), rest) := by
  induction others generalizing name value done fuel with
  | nil =>
    obtain ⟨fuel, rfl⟩ : ∃ less, fuel = less + 1 := ⟨fuel - 1, by omega⟩
    have first : ReadsBack levels value := each (name, value) List.mem_cons_self
    have none : (writeMembers .line level []).toList = [] := rfl
    rw [none, List.nil_append, readMembers_last first level done (by omega),
      set_of_distinct distinct]
  | cons next others ih =>
    obtain ⟨fuel, rfl⟩ : ∃ less, fuel = less + 1 := ⟨fuel - 1, by omega⟩
    obtain ⟨second, other⟩ := next
    have first : ReadsBack levels value := each (name, value) List.mem_cons_self
    have later : ∀ member ∈ (second, other) :: others, ReadsBack levels member.2 :=
      fun member inside => each member (List.mem_cons_of_mem _ inside)
    rw [toList_writeMembers_cons] at enough ⊢
    simp only [List.length_cons, List.length_append] at enough
    simp only [List.cons_append, List.append_assoc]
    rw [readMembers_more first level done (by omega), skip_blank, set_of_distinct distinct]
    rw [List.append_cons] at distinct
    rw [skip_quoted, ih later _ distinct (by omega), ← List.append_cons]

/-! ### Values -/

theorem ReadsBack.of_scalar {value : Json} (reads : ∀ (level fuel : Nat) (rest : List Char),
      Stops rest → readValue levels (fuel + 1) ((value.write .line level).toList ++ rest) =
        .ok (value, rest)) :
    ReadsBack levels value := by
  intro level fuel rest enough stops
  obtain ⟨fuel, rfl⟩ : ∃ less, fuel = less + 1 := ⟨fuel - 1, by omega⟩
  exact reads level fuel rest stops

theorem readsBack_null : ReadsBack levels .null := by
  refine .of_scalar fun level fuel rest _ => ?_
  have text : (Json.null.write .line level).toList = ['n', 'u', 'l', 'l'] := by
    rw [write]
    rfl
  rw [text]
  rfl

theorem readsBack_bool (value : Bool) : ReadsBack levels (.bool value) := by
  refine .of_scalar fun level fuel rest _ => ?_
  have text : ((Json.bool value).write .line level).toList =
      if value then ['t', 'r', 'u', 'e'] else ['f', 'a', 'l', 's', 'e'] := by
    rw [write]
    cases value <;> rfl
  rw [text]
  cases value <;> rfl

theorem readsBack_whole {value : Int} (short : decimalLength value.natAbs ≤ digitLimit) :
    ReadsBack levels (.whole value) := by
  refine .of_scalar fun level fuel rest stops => ?_
  rw [write]
  exact readValue_of_readNumeral (readNumeral_whole short stops)

/-- A number that is not finite is one of three, which are written as words. -/
theorem readsBack_number (value : Float) : ReadsBack levels (.number value) := by
  refine .of_scalar fun level fuel rest stops => ?_
  rw [write]
  cases finite : value.isFinite with
  | true => exact readValue_of_readNumeral (readNumeral_number finite stops)
  | false =>
    rcases eq_of_not_isFinite finite with rfl | rfl | rfl
    · have word : (numberText (0 / 0)).toList = ['N', 'a', 'N'] := rfl
      rw [word]
      rfl
    · have word : (numberText (1 / 0)).toList = ['I', 'n', 'f', 'i', 'n', 'i', 't', 'y'] := rfl
      rw [word]
      rfl
    · have word : (numberText (-1 / 0)).toList =
          ['-', 'I', 'n', 'f', 'i', 'n', 'i', 't', 'y'] := rfl
      rw [word]
      rfl

theorem readsBack_text (value : String) : ReadsBack levels (.text value) := by
  refine .of_scalar fun level fuel rest _ => ?_
  rw [write, toList_quoted]
  simp only [List.cons_append, List.append_assoc, List.nil_append]
  rw [readValue, readText_quoted]
  rfl

theorem readsBack_list {items : List Json} (each : ∀ item ∈ items, ReadsBack levels item) :
    ReadsBack (levels + 1) (.list items) := by
  cases items with
  | nil =>
    refine .of_scalar fun level fuel rest _ => ?_
    have text : ((Json.list []).write .line level).toList = ['[', ']'] := by
      rw [write]
      rfl
    rw [text]
    rfl
  | cons item others =>
    intro level fuel rest enough stops
    obtain ⟨fuel, rfl⟩ : ∃ less, fuel = less + 1 := ⟨fuel - 1, by omega⟩
    rw [toList_write_list] at enough ⊢
    simp only [List.length_cons, List.length_append, List.length_nil] at enough
    simp only [List.cons_append, List.append_assoc, List.nil_append]
    have first := each item List.mem_cons_self
    have stop := stops_writeItems level others rest
    rw [readValue, if_neg (Nat.succ_ne_zero levels), first.skip_eq (level + 1) stop]
    split
    · next closed =>
      have read := first (level + 1) _ _ (Nat.lt_succ_self _) stop
      obtain ⟨c, _, begins, _, other, _⟩ := exists_of_readValue read
      rw [closed] at begins
      exact absurd (List.cons.inj begins).1.symm other
    · exact readItems_write each level [] (by omega)

theorem readsBack_object {members : Members} (distinct : (members.map Prod.fst).Nodup)
    (each : ∀ member ∈ members, ReadsBack levels member.2) :
    ReadsBack (levels + 1) (.object members) := by
  cases members with
  | nil =>
    refine .of_scalar fun level fuel rest _ => ?_
    have text : ((Json.object []).write .line level).toList = ['\x7b', '\x7d'] := by
      rw [write]
      rfl
    rw [text]
    rfl
  | cons member others =>
    intro level fuel rest enough stops
    obtain ⟨name, value⟩ := member
    obtain ⟨fuel, rfl⟩ : ∃ less, fuel = less + 1 := ⟨fuel - 1, by omega⟩
    rw [toList_write_object] at enough ⊢
    simp only [List.length_cons, List.length_append, List.length_nil] at enough
    simp only [List.cons_append, List.append_assoc, List.nil_append]
    have read := readMembers_write each level [] distinct (show _ < fuel by omega) rest
    rw [readValue, if_neg (Nat.succ_ne_zero levels), skip_quoted, toList_quoted]
    rw [toList_quoted] at read
    exact read

/-- A plain value is read from the text that is written of it. -/
theorem Plain.readsBack {value : Json} (plain : Plain levels value) : ReadsBack levels value := by
  induction plain with
  | null => exact readsBack_null
  | bool value => exact readsBack_bool value
  | whole short => exact readsBack_whole short
  | number value => exact readsBack_number value
  | text value => exact readsBack_text value
  | list _ each => exact readsBack_list each
  | object distinct _ each => exact readsBack_object distinct each

/-- A plain value is what its text as a whole is read as. -/
theorem Plain.parse_render {value : Json} (plain : Plain nestingLimit value) :
    parse value.render = .ok value := by
  have read : readValue nestingLimit (2 * value.render.toList.length + 2) value.render.toList =
      .ok (value, []) := by
    have back := plain.readsBack 0 (2 * value.render.toList.length + 2) [] (by rw [render]; omega)
      nofun
    rw [List.append_nil] at back
    exact back
  have begins := skip_of_readValue read
  obtain ⟨c, others, text, _, _, mark⟩ := exists_of_readValue read
  change (parseList value.render.toList).mapError _ = _
  rw [text] at read begins ⊢
  rw [parseList, if_neg mark, begins, read]
  rfl

end ReplyFlow.Json
