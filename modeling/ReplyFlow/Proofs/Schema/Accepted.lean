import ReplyFlow.Schema.Fields

/-! What was accepted as a whole was accepted part by part. -/

set_option autoImplicit false

namespace ReplyFlow.Schema

variable {α β : Type} {check : Json → Checked α} {members : Json.Members} {names : List String}
  {value : Json} {result : α}

theorem Checked.exists_of_map {f : α → β} {x : Checked α} {result : β}
    (accepted : f <$> x = .ok result) : ∃ value, x = .ok value ∧ f value = result := by
  cases x with
  | ok value => exact ⟨value, rfl, Checked.ok.inj accepted⟩
  | bad => cases accepted

theorem Checked.exists_of_seq {f : Checked (α → β)} {x : Checked α} {result : β}
    (accepted : f <*> x = .ok result) :
    ∃ g value, f = .ok g ∧ x = .ok value ∧ g value = result := by
  cases f with
  | ok g =>
    cases x with
    | ok value => exact ⟨g, value, rfl, rfl, Checked.ok.inj accepted⟩
    | bad => cases accepted
  | bad issues => cases x <;> cases accepted

theorem Checked.ok_of_under {key : Key} {x : Checked α} (accepted : x.under key = .ok result) :
    x = .ok result := by
  cases x with
  | ok => exact accepted
  | bad => cases accepted

theorem exists_of_record {setting : Setting} {model : String} {check : Json.Members → Checked α}
    (accepted : record setting model value check = .ok result) :
    ∃ members, value = .object members ∧ check members = .ok result := by
  cases value with
  | object members => exact ⟨members, rfl, accepted⟩
  | _ => cases accepted

theorem exists_of_required (accepted : required members names check = .ok result) :
    ∃ name value, members.find? names = some (name, value) ∧ check value = .ok result := by
  rw [required] at accepted
  cases found : members.find? names with
  | none =>
    rw [found] at accepted
    cases accepted
  | some member =>
    rw [found] at accepted
    exact ⟨_, _, rfl, Checked.ok_of_under accepted⟩

theorem cases_of_optional {default : α}
    (accepted : optional members names default check = .ok result) :
    members.find? names = none ∧ result = default ∨
      ∃ name value, members.find? names = some (name, value) ∧ check value = .ok result := by
  rw [optional] at accepted
  cases found : members.find? names with
  | none =>
    rw [found] at accepted
    exact .inl ⟨rfl, (Checked.ok.inj accepted).symm⟩
  | some member =>
    rw [found] at accepted
    exact .inr ⟨_, _, rfl, Checked.ok_of_under accepted⟩

theorem ok_of_nullable (accepted : nullable check value = .ok (some result)) :
    check value = .ok result := by
  cases value with
  | null => cases accepted
  | _ =>
    obtain ⟨other, known, same⟩ := Checked.exists_of_map (f := some) accepted
    cases same
    exact known

/-- What may be left out and may be `null` has been checked where it is given. -/
theorem exists_of_optional_nullable
    (accepted : optional members names none (nullable check) = .ok (some result)) :
    ∃ value, check value = .ok result := by
  rcases cases_of_optional accepted with ⟨_, absent⟩ | ⟨_, value, _, known⟩
  · cases absent
  · exact ⟨value, ok_of_nullable known⟩

end ReplyFlow.Schema
