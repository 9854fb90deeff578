import Mathlib.Logic.Basic

/-!
# Peeling fallible computations

A `do` block in `Except` that returned went through all of its steps. These
rules take such a block apart one bind at a time.
-/

namespace SecureGateway.Outcome
variable {ε α β : Type}

variable (x : Except ε α)

theorem bind_eq_ok (f : α → Except ε β) (b : β) :
    (x >>= f) = .ok b ↔ ∃ a,x = .ok a ∧ f a = .ok b := by
  cases x with
  | error e => simp [bind,Except.bind]
  | ok a => simp [bind,Except.bind]

theorem pure_eq_ok (a b : α) : (pure a : Except ε α) = .ok b ↔ a=b := by simp [pure,Except.pure]

theorem throw_eq_ok (e : ε) (b : α) : (throw e : Except ε α) = .ok b ↔ False := by
  simp [throw,throwThe,MonadExceptOf.throw]

/-- An early exit `if c then throw e`, as `do` elaborates it before the rest of
the block: the rest `k` after the throw is never reached. -/
theorem guard_eq_ok {γ : Type} (c : Prop) [Decidable c] (e : ε) (k : γ → Except ε α)
    (x : Except ε α) (b : α) : (if c then throw e >>= k else x) = .ok b ↔ ¬ c ∧ x = .ok b := by
  by_cases h : c <;> simp [h,bind_eq_ok,throw_eq_ok]

/-! What is left of a computation without its errors. -/

theorem toOption_eq_some (a : α) : x.toOption=some a ↔ x = .ok a := by
  cases x with
  | error e => simp [Except.toOption]
  | ok b => simp [Except.toOption]

theorem toOption_bind (f : α → Except ε β) :
    (x >>= f).toOption=x.toOption >>= fun a => (f a).toOption := by
  cases x <;> rfl

theorem toOption_pure (a : α) : (pure a : Except ε α).toOption=some a := rfl

theorem toOption_map (f : α → β) : (x.map f).toOption=x.toOption.map f := by cases x <;> rfl

theorem toOption_mapError {ε' : Type} (g : ε → ε') : (x.mapError g).toOption=x.toOption := by
  cases x <;> rfl

end SecureGateway.Outcome
