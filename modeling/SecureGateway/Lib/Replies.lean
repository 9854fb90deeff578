import SecureGateway.Lib.Machine

/-!
# Machines that answer

A service answers each call and moves on: `step s a` is the answer together with
the state after it. Two services are equivalent for their callers if they answer
every sequence of calls alike; `answers_eq_of_simulation` reduces that to a
relation between their states and one call.
-/

namespace SecureGateway.Machine
variable {σ τ α β : Type}

def moved (step : σ → α → β × σ) (s : σ) (a : α) : σ := (step s a).2

def answers (step : σ → α → β × σ) : σ → List α → List β
  | _, [] => []
  | s, a :: as => (step s a).1 :: answers step (moved step s a) as

/-- Services in related states that answer each permitted call alike, and are
related after it, answer every sequence of permitted calls alike. -/
theorem answers_eq_of_simulation (step : σ → α → β × σ) (step' : τ → α → β × τ)
    (rel : σ → τ → Prop) (ok : σ → α → Prop)
    (sim : ∀ s t a,rel s t → ok s a →
      (step s a).1=(step' t a).1 ∧ rel (moved step s a) (moved step' t a))
    (s : σ) (t : τ) (as : List α) (init : rel s t) (hg : Guarded (moved step) ok s as) :
    answers step s as=answers step' t as := by
  induction as generalizing s t with
  | nil => rfl
  | cons a as ih =>
    obtain ⟨hans,hrel⟩:=sim s t a init hg.1
    simp only [answers]
    rw [hans,ih _ _ hrel hg.2]

end SecureGateway.Machine
