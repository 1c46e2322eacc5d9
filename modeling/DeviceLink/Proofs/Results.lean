import Mathlib.Logic.Basic

/-!
Results that are a value or a failure: when a sequence, an image or a result with another cause of
failure is a value, and when it is a failure.
-/

set_option autoImplicit false
set_option relaxedAutoImplicit false

namespace DeviceLink

variable {ε ε' α β : Type} {x : Except ε α} {f : α → β} {g : α → Except ε β} {wrap : ε → ε'}

theorem bind_eq_ok_iff {b : β} : (x >>= g) = .ok b ↔ ∃ a, x = .ok a ∧ g a = .ok b := by
  cases x <;> simp [bind, Except.bind]

theorem bind_eq_error_iff {e : ε} :
    (x >>= g) = .error e ↔ x = .error e ∨ ∃ a, x = .ok a ∧ g a = .error e := by
  cases x <;> simp [bind, Except.bind]

theorem map_eq_ok_iff {b : β} : x.map f = .ok b ↔ ∃ a, x = .ok a ∧ f a = b := by
  cases x <;> simp [Except.map]

theorem map_eq_error_iff {e : ε} : x.map f = .error e ↔ x = .error e := by
  cases x <;> simp [Except.map]

theorem toOption_eq_some_iff {a : α} : x.toOption = some a ↔ x = .ok a := by
  cases x <;> simp [Except.toOption]

theorem mapError_eq_ok_iff {a : α} : x.mapError wrap = .ok a ↔ x = .ok a := by
  cases x with
  | error e => exact ⟨fun h => (by cases h), fun h => (by cases h)⟩
  | ok b =>
    constructor
    · intro h
      rw [Except.ok.inj h]
    · intro h
      rw [Except.ok.inj h]
      rfl

theorem mapError_eq_error_iff {e' : ε'} :
    x.mapError wrap = .error e' ↔ ∃ e, x = .error e ∧ wrap e = e' := by
  cases x with
  | ok b => exact ⟨fun h => (by cases h), fun ⟨_, same, _⟩ => (by cases same)⟩
  | error cause =>
    constructor
    · intro h
      exact ⟨cause, rfl, Except.error.inj h⟩
    · rintro ⟨e, same, rfl⟩
      obtain rfl := Except.error.inj same
      rfl

end DeviceLink
