/-
**Results that may fail.**

Where a result of several steps comes from, and where a fault does.

Main results:

* `map_eq_ok`, `bind_eq_ok` — a result stems from the results of its steps;
* `map_eq_error`, `bind_eq_error` — a fault is one of the steps.
-/

set_option autoImplicit false

namespace Shaderworks

variable {ε ε' α β : Type}

/-- A changed result stems from a result. -/
theorem map_eq_ok {x : Except ε α} {f : α → β} {b : β} (h : x.map f = .ok b) :
    ∃ a, x = .ok a ∧ f a = b := by
  cases x with
  | error fault => cases h
  | ok a => exact ⟨a, rfl, Except.ok.inj h⟩

/-- A result of two steps stems from a result of the first. -/
theorem bind_eq_ok {x : Except ε α} {f : α → Except ε β} {b : β} (h : x.bind f = .ok b) :
    ∃ a, x = .ok a ∧ f a = .ok b := by
  cases x with
  | error fault => cases h
  | ok a => exact ⟨a, rfl, h⟩

/-- A fault of a changed result is one of the result. -/
theorem map_eq_error {x : Except ε α} {f : α → β} {fault : ε} (h : x.map f = .error fault) :
    x = .error fault := by
  cases x with
  | error fault' => exact congrArg Except.error (Except.error.inj h)
  | ok a => cases h

/-- A fault of two steps is one of the first step or of the second. -/
theorem bind_eq_error {x : Except ε α} {f : α → Except ε β} {fault : ε}
    (h : x.bind f = .error fault) : x = .error fault ∨ ∃ a, x = .ok a ∧ f a = .error fault := by
  cases x with
  | error fault' => exact .inl (congrArg Except.error (Except.error.inj h))
  | ok a => exact .inr ⟨a, rfl, h⟩

/-- A result and a fault may be changed in any order. -/
theorem mapError_map (x : Except ε α) (f : α → β) (g : ε → ε') :
    (x.map f).mapError g = (x.mapError g).map f := by
  cases x <;> rfl

end Shaderworks
