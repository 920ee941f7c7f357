import ReplyFlow.Proofs.Json.Reading

/-! Whatever is read from JSON text is plain, so that it is read back from its own text. -/

set_option autoImplicit false

namespace ReplyFlow.Json

open Decimal

variable {levels : Nat} {s : List Char}

/-- A whole number of no more digits than one may have, or any other number. -/
inductive Numeric : Json → Prop where
  | whole {value : Int} : decimalLength value.natAbs ≤ digitLimit → Numeric (.whole value)
  | number (value : Float) : Numeric (.number value)

theorem Numeric.plain {value : Json} (numeric : Numeric value) : Plain levels value := by
  cases numeric with
  | whole short => exact .whole short
  | number value => exact .number value

theorem decimalLength_digitsValue {digits : List Char} (all : ∀ c ∈ digits, c.isDigit)
    (nonempty : digits ≠ []) : decimalLength (digitsValue digits) ≤ digits.length :=
  (Nat.length_toDigits_le_iff (by decide) (List.length_pos_of_ne_nil nonempty)).mpr
    (digitsValue_lt all)

theorem numeric_of_readNumeral {result : Json × List Char}
    (read : readNumeral s = .ok result) : Numeric result.1 := by
  unfold readNumeral at read
  split at read
  next negative body _ =>
  split at read
  next digits rest parts =>
  have all : ∀ c ∈ digits, c.isDigit := by
    split at parts
    · cases parts
      exact (front_singleton rfl).all
    · cases parts
      exact List.all_eq_true.mp List.all_takeWhile
  split at read
  · cases read
  · next some =>
    split at read
    split at read
    split at read
    · split at read
      · cases read
      · next few =>
        cases read
        have size : (if negative then -(digitsValue digits : Int) else digitsValue digits).natAbs =
            digitsValue digits := by
          split <;> omega
        have length := decimalLength_digitsValue all (mt List.isEmpty_iff.mpr some)
        refine .whole ?_
        rw [size]
        exact length.trans (Nat.le_of_not_lt few)
    · cases read
      exact .number _

theorem plain_of_readScalar {result : Json × List Char}
    (read : readScalar s = .ok result) : Plain levels result.1 := by
  unfold readScalar at read
  split at read
  · cases read
    exact .null
  · cases read
    exact .bool true
  · cases read
    exact .bool false
  · cases read
    exact .number _
  · cases read
    exact .number _
  · cases read
    exact .number _
  · exact (numeric_of_readNumeral read).plain

/-- The members that are read so far. -/
structure Members.Plain (levels : Nat) (members : Members) : Prop where
  distinct : (members.map Prod.fst).Nodup
  each : ∀ member ∈ members, Json.Plain levels member.2

theorem Members.Plain.set {members : Members} (plain : Members.Plain levels members) (name : String)
    {value : Json} (more : Json.Plain levels value) : (members.set name value).Plain levels := by
  rw [Members.set]
  split
  · have names : (members.map fun member => if member.1 == name then (name, value) else member).map
        Prod.fst = members.map Prod.fst := by
      rw [List.map_map]
      refine List.map_congr_left fun member _ => ?_
      rw [Function.comp_apply]
      split
      · next same => exact (beq_iff_eq.mp same).symm
      · rfl
    refine ⟨names ▸ plain.distinct, fun member inside => ?_⟩
    obtain ⟨old, before, rfl⟩ := List.mem_map.mp inside
    split
    · exact more
    · exact plain.each old before
  · next new =>
    refine ⟨?_, fun member inside => ?_⟩
    · rw [List.map_append, List.nodup_append]
      refine ⟨plain.distinct, List.nodup_singleton name, ?_⟩
      rintro _ old _ added rfl
      obtain ⟨member, inside, same⟩ := List.mem_map.mp old
      rw [List.mem_singleton.mp added] at same
      exact new (List.any_eq_true.mpr ⟨member, inside, beq_iff_eq.mpr same⟩)
    · rcases List.mem_append.mp inside with old | added
      · exact plain.each member old
      · rw [List.mem_singleton.mp added]
        exact more

/-- What is read with so much fuel is plain. -/
structure ReadsPlain (fuel : Nat) : Prop where
  value : ∀ levels s result, readValue levels fuel s = .ok result → Plain levels result.1
  items : ∀ levels done s result, (∀ item ∈ done, Plain levels item) →
    readItems levels fuel done s = .ok result → Plain (levels + 1) result.1
  members : ∀ levels done s result, Members.Plain levels done →
    readMembers levels fuel done s = .ok result → Plain (levels + 1) result.1

namespace ReadsPlain

variable {fuel : Nat} (smaller : ReadsPlain fuel) {result : Json × List Char}

include smaller

theorem of_readValue (read : readValue levels (fuel + 1) s = .ok result) :
    Plain levels result.1 := by
  rw [readValue.eq_def] at read
  dsimp only at read
  split at read
  · next rest =>
    cases content : readText rest with
    | error fault =>
      rw [content] at read
      cases read
    | ok text =>
      rw [content] at read
      cases read
      exact .text _
  · split at read
    · cases read
    · next deep =>
      obtain ⟨levels, rfl⟩ := Nat.exists_eq_succ_of_ne_zero deep
      split at read
      · cases read
        exact .object List.nodup_nil (List.forall_mem_nil _)
      · exact smaller.members levels [] _ result ⟨List.nodup_nil, List.forall_mem_nil _⟩ read
  · split at read
    · cases read
    · next deep =>
      obtain ⟨levels, rfl⟩ := Nat.exists_eq_succ_of_ne_zero deep
      split at read
      · cases read
        exact .list (List.forall_mem_nil _)
      · exact smaller.items levels [] _ result (List.forall_mem_nil _) read
  · exact plain_of_readScalar read

theorem of_readItems {done : List Json} (each : ∀ item ∈ done, Plain levels item)
    (read : readItems levels (fuel + 1) done s = .ok result) : Plain (levels + 1) result.1 := by
  rw [readItems] at read
  split at read
  · cases read
  · next item rest first =>
    have more : ∀ other ∈ item :: done, Plain levels other :=
      List.forall_mem_cons.mpr ⟨smaller.value levels s _ first, each⟩
    split at read
    · cases read
      exact .list fun other member => more other (List.mem_reverse.mp member)
    · exact smaller.items levels _ _ result more read
    · cases read

theorem of_readMembers {done : Members} (plain : done.Plain levels)
    (read : readMembers levels (fuel + 1) done s = .ok result) : Plain (levels + 1) result.1 := by
  rw [readMembers.eq_def] at read
  dsimp only at read
  split at read
  · split at read
    · cases read
    · next name rest _ =>
      split at read
      · split at read
        · cases read
        · next value rest first =>
          have more := plain.set name (smaller.value levels _ _ first)
          split at read
          · cases read
            exact .object more.distinct more.each
          · exact smaller.members levels _ _ result more read
          · cases read
      · cases read
  · cases read

end ReadsPlain

theorem readsPlain (fuel : Nat) : ReadsPlain fuel := by
  induction fuel with
  | zero => exact ⟨nofun, nofun, nofun⟩
  | succ fuel ih =>
    exact ⟨fun _ _ _ read => ih.of_readValue read,
      fun _ _ _ _ each read => ih.of_readItems each read,
      fun _ _ _ _ plain read => ih.of_readMembers plain read⟩

theorem plain_of_parse {text : String} {value : Json} (read : parse text = .ok value) :
    Plain nestingLimit value := by
  rw [parse] at read
  cases whole : parseList text.toList with
  | error fault =>
    rw [whole] at read
    cases read
  | ok found =>
    rw [whole] at read
    cases read
    unfold parseList at whole
    split at whole
    · split at whole
      · cases whole
      · split at whole
        · cases whole
        · next value rest first =>
          split at whole
          · cases whole
            exact (readsPlain _).value _ _ _ first
          · cases whole
    · cases whole

/-- Exactly the plain values are read back from their texts. -/
theorem parse_render_iff {value : Json} :
    parse value.render = .ok value ↔ Plain nestingLimit value :=
  ⟨plain_of_parse, Plain.parse_render⟩

end ReplyFlow.Json
