import ReplyFlow.Json.Parser

/-! Equality of JSON values can be decided. -/

set_option autoImplicit false

namespace ReplyFlow.Json

mutual

def same : Json → Json → Bool
  | .null, .null => true
  | .bool a, .bool b => a == b
  | .whole a, .whole b => a == b
  | .number a, .number b => decide (a = b)
  | .text a, .text b => a == b
  | .list a, .list b => sameItems a b
  | .object a, .object b => sameMembers a b
  | _, _ => false

def sameItems : List Json → List Json → Bool
  | [], [] => true
  | a :: first, b :: second => a.same b && sameItems first second
  | _, _ => false

def sameMembers : List (String × Json) → List (String × Json) → Bool
  | [], [] => true
  | (name, a) :: first, (other, b) :: second =>
    name == other && a.same b && sameMembers first second
  | _, _ => false

end

mutual

theorem same_iff : ∀ {a b : Json}, a.same b = true ↔ a = b := by
  intro a b
  cases a <;> cases b <;> simp [same, sameItems_iff, sameMembers_iff]

theorem sameItems_iff : ∀ {first second : List Json}, sameItems first second = true ↔ first = second
  | [], [] => by simp [sameItems]
  | [], _ :: _ => by simp [sameItems]
  | _ :: _, [] => by simp [sameItems]
  | _ :: _, _ :: _ => by simp [sameItems, same_iff, sameItems_iff]

theorem sameMembers_iff : ∀ {first second : List (String × Json)},
    sameMembers first second = true ↔ first = second
  | [], [] => by simp [sameMembers]
  | [], _ :: _ => by simp [sameMembers]
  | _ :: _, [] => by simp [sameMembers]
  | (_, _) :: _, (_, _) :: _ => by simp [sameMembers, same_iff, sameMembers_iff]

end

instance : DecidableEq Json := fun _ _ => decidable_of_iff _ same_iff

instance : DecidableEq Fault
  | ⟨reason, left⟩, ⟨other, others⟩ =>
    decidable_of_iff (reason = other ∧ left = others) (by rw [Fault.mk.injEq])

end ReplyFlow.Json
