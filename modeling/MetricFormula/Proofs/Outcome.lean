/-!
# Outcomes that may be errors

Outcomes can be compared, and a sequence of steps succeeds only if every step does.
-/

namespace MetricFormula

variable {α β ε ε' : Type}

instance decidableEqExcept [DecidableEq ε] [DecidableEq α] : DecidableEq (Except ε α)
  | .ok x, .ok y => decidable_of_iff (x = y) ⟨congrArg Except.ok, Except.ok.inj⟩
  | .error x, .error y => decidable_of_iff (x = y) ⟨congrArg Except.error, Except.error.inj⟩
  | .ok _, .error _ => isFalse nofun
  | .error _, .ok _ => isFalse nofun

/-- A first step that succeeds. -/
theorem bind_eq_ok {x : Except ε α} {f : α → Except ε β} {result : β}
    (h : x >>= f = .ok result) : ∃ value, x = .ok value ∧ f value = .ok result := by
  rcases x with error | value
  · cases h
  · exact ⟨value, rfl, h⟩

/-- A sequence of two steps fails in one of them. -/
theorem bind_eq_error {x : Except ε α} {f : α → Except ε β} {error : ε}
    (h : x >>= f = .error error) :
    x = .error error ∨ ∃ value, x = .ok value ∧ f value = .error error := by
  rcases x with error' | value
  · exact .inl (congrArg Except.error (Except.error.inj h))
  · exact .inr ⟨value, rfl, h⟩

/-- Errors that are told in another way are still errors. -/
theorem mapError_eq_ok_iff {x : Except ε α} {f : ε → ε'} {value : α} :
    x.mapError f = .ok value ↔ x = .ok value := by
  rcases x with error | value'
  · exact iff_of_false nofun nofun
  · -- The two sides differ in their type of errors only.
    constructor
    · intro h
      exact congrArg Except.ok (Except.ok.inj h)
    · intro h
      exact congrArg Except.ok (Except.ok.inj h)

/-- An error is the error that it tells. -/
theorem mapError_eq_error {x : Except ε α} {f : ε → ε'} {error' : ε'}
    (h : x.mapError f = .error error') : ∃ error, x = .error error ∧ f error = error' := by
  rcases x with error | value
  · exact ⟨error, rfl, Except.error.inj h⟩
  · cases h

/-- An error that is told in another way may be told before or after success is changed. -/
theorem mapError_bind_ok (x : Except ε α) (f : α → β) (g : ε → ε') :
    (x >>= fun value => .ok (f value)).mapError g = (x.mapError g).map f := by
  cases x <;> rfl

end MetricFormula
