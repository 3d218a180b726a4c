/-!
Chains of steps that may fail.

Main statements: when such a chain gives a result, and when it fails.
-/

namespace ReadmeTables.Failing

variable {α β ε δ : Type} {x : Except ε α} {f : α → Except ε β} {g : ε → δ} {a : α} {b : β} {e : ε}
  {d : δ}

theorem ok_bind (a : α) (f : α → Except ε β) : (.ok a : Except ε α) >>= f = f a :=
  rfl

theorem error_bind (e : ε) (f : α → Except ε β) : (.error e : Except ε α) >>= f = .error e :=
  rfl

theorem mapError_ok (g : ε → δ) (a : α) : (.ok a : Except ε α).mapError g = .ok a :=
  rfl

theorem mapError_error (g : ε → δ) (e : ε) :
    (.error e : Except ε α).mapError g = .error (g e) :=
  rfl

theorem bind_eq_ok_iff : x >>= f = .ok b ↔ ∃ a, x = .ok a ∧ f a = .ok b := by
  cases x <;> simp [ok_bind, error_bind]

-- A chain fails at its first step, or after it.
theorem bind_eq_error_iff :
    x >>= f = .error e ↔ x = .error e ∨ ∃ a, x = .ok a ∧ f a = .error e := by
  cases x <;> simp [ok_bind, error_bind]

theorem mapError_eq_ok_iff : x.mapError g = .ok a ↔ x = .ok a := by
  cases x <;> simp [mapError_ok, mapError_error]

theorem mapError_eq_error_iff : x.mapError g = .error d ↔ ∃ e, x = .error e ∧ g e = d := by
  cases x <;> simp [mapError_ok, mapError_error]

theorem map_eq_ok_iff {f : α → β} : x.map f = .ok b ↔ ∃ a, x = .ok a ∧ f a = b := by
  cases x <;> simp [Except.map]

theorem map_eq_error_iff {f : α → β} : x.map f = .error e ↔ x = .error e := by
  cases x <;> simp [Except.map]

end ReadmeTables.Failing
