/-!
# Results that may be errors

A chain of computations succeeds exactly if every one of them does and fails with the first error in
it, and an error that is described in other terms remains an error.
-/

namespace ClosedForm

variable {ε ε' α β : Type}

theorem bind_eq_ok_iff {result : Except ε α} {next : α → Except ε β} {b : β} :
    (result >>= next) = .ok b ↔ ∃ a, result = .ok a ∧ next a = .ok b := by
  cases result with
  | ok a => simp [bind, Except.bind]
  | error e => simp [bind, Except.bind]

theorem bind_eq_error_iff {result : Except ε α} {next : α → Except ε β} {e : ε} :
    (result >>= next) = .error e ↔ result = .error e ∨ ∃ a, result = .ok a ∧ next a = .error e := by
  cases result with
  | ok a => simp [bind, Except.bind]
  | error e => simp [bind, Except.bind]

theorem mapError_eq_ok_iff {result : Except ε α} {describe : ε → ε'} {a : α} :
    result.mapError describe = .ok a ↔ result = .ok a := by
  cases result with
  | ok b =>
    constructor
    · intro h
      rw [Except.ok.inj h]
    · intro h
      exact congrArg Except.ok (Except.ok.inj h)
  | error e =>
    constructor
    · intro h
      cases h
    · intro h
      cases h

theorem mapError_eq_error_iff {result : Except ε α} {describe : ε → ε'} {e' : ε'} :
    result.mapError describe = .error e' ↔ ∃ e, result = .error e ∧ describe e = e' := by
  cases result with
  | ok b =>
    constructor
    · intro h
      cases h
    · rintro ⟨e, h, -⟩
      cases h
  | error e =>
    constructor
    · intro h
      exact ⟨e, rfl, Except.error.inj h⟩
    · rintro ⟨e, h, rfl⟩
      rw [Except.error.inj h]
      rfl

end ClosedForm
