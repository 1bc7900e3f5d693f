namespace Parley

variable {σ α β : Type} {s : σ}

def outcome (m : OptionT (StateM σ) α) (s : σ) : Option α × σ :=
  m.run.run s

@[simp]
theorem outcome_pure (a : α) : outcome (pure a) s = (some a, s) := rfl

@[simp]
theorem outcome_bind (m : OptionT (StateM σ) α) (f : α → OptionT (StateM σ) β)
    : outcome (m >>= f) s
        =
      match outcome m s with
      | (some a, s') => outcome (f a) s'
      | (none, s') => (none, s') := by
  unfold outcome
  rw [OptionT.run_bind, Option.elimM, StateT.run_bind]
  generalize m.run.run s = ended
  obtain ⟨_ | a, s'⟩ := ended
  . rfl
  . rfl

@[simp]
theorem outcome_map (f : α → β) (m : OptionT (StateM σ) α)
    : outcome (f <$> m) s
        =
      match outcome m s with
      | (some a, s') => (some (f a), s')
      | (none, s') => (none, s') := by
  rw [map_eq_pure_bind, outcome_bind]
  rfl

@[simp]
theorem outcome_get : outcome (get : OptionT (StateM σ) σ) s = (some s, s) := rfl

@[simp]
theorem outcome_set (s' : σ) : outcome (set s' : OptionT (StateM σ) PUnit) s = (some (), s') := rfl

@[simp]
theorem outcome_modify (f : σ → σ)
    : outcome (modify f : OptionT (StateM σ) PUnit) s = (some (), f s) := rfl

section Failures

variable {ε ε' : Type} (f : ε → ε')

theorem mapError_ok (a : α) : (Except.ok a).mapError f = .ok a := rfl

theorem mapError_error (failure : ε)
    : (Except.error failure : Except ε α).mapError f = .error (f failure) := rfl

end Failures

end Parley
