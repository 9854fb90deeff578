import Mathlib.Data.List.Basic

/-!
# Labelled machines and guarded runs

A machine is a total step function `next : σ → α → σ`; all choices of the environment are in
the labels, so a run is a fold over a list of labels. `Guarded` says that every step of a run
meets a condition; `guarded_invariant` is the rule behind all safety results.
-/

namespace SecureGateway.Machine
variable {σ α : Type}

def run (next : σ → α → σ) (s : σ) (as : List α) : σ := as.foldl next s

variable (next : σ → α → σ) (ok : σ → α → Prop) (s : σ)

@[simp] theorem run_nil : run next s []=s := rfl

@[simp] theorem run_cons (a : α) (as : List α) :
    run next s (a::as)=run next (next s a) as := rfl

theorem run_append (as bs : List α) : run next s (as++bs)=run next (run next s as) bs := by
  simp only [run,List.foldl_append]

def Guarded (next : σ → α → σ) (ok : σ → α → Prop) : σ → List α → Prop
  | _, [] => True
  | s, a :: as => ok s a ∧ Guarded next ok (next s a) as

@[simp] theorem guarded_nil : Guarded next ok s [] := trivial

@[simp] theorem guarded_cons (a : α) (as : List α) :
    Guarded next ok s (a::as) ↔ ok s a ∧ Guarded next ok (next s a) as := Iff.rfl

theorem guarded_append (as bs : List α) :
    Guarded next ok s (as++bs) ↔ Guarded next ok s as ∧ Guarded next ok (run next s as) bs := by
  induction as generalizing s with
  | nil => simp
  | cons a as ih => simp [ih,and_assoc]

theorem guarded_of_forall (as : List α) (h : ∀ a∈as,∀ s,ok s a) : Guarded next ok s as := by
  induction as generalizing s with
  | nil => trivial
  | cons a as ih =>
    exact ⟨h a List.mem_cons_self s,ih (next s a) fun b hb => h b (List.mem_cons_of_mem a hb)⟩

theorem guarded_iff (as : List α) :
    Guarded next ok s as ↔ ∀ pre a post,as=pre++a::post → ok (run next s pre) a := by
  constructor
  · intro h pre a post has
    rw [has,guarded_append] at h
    exact h.2.1
  intro h
  induction as generalizing s with
  | nil => trivial
  | cons b as ih =>
    constructor
    · exact h [] b as rfl
    apply ih
    intro pre a post has
    exact h (b::pre) a post (by rw [has,List.cons_append])

theorem guarded_and (ok ok' : σ → α → Prop) (s : σ) (as : List α) (h : Guarded next ok s as)
    (h' : Guarded next ok' s as) : Guarded next (fun s a => ok s a ∧ ok' s a) s as := by
  induction as generalizing s with
  | nil => trivial
  | cons a as ih => exact ⟨⟨h.1,h'.1⟩,ih (next s a) h.2 h'.2⟩

/-- The invariant rule: what holds at the start and is kept by every guarded
step holds at the end of every guarded run. -/
theorem guarded_invariant (inv : σ → Prop) (step : ∀ s a,inv s → ok s a → inv (next s a)) (s : σ)
    (as : List α) (init : inv s) (hg : Guarded next ok s as) : inv (run next s as) := by
  induction as generalizing s with
  | nil => exact init
  | cons a as ih => exact ih (next s a) (step s a init hg.1) hg.2

theorem run_invariant (inv : σ → Prop) (step : ∀ s a,inv s → inv (next s a)) (s : σ)
    (as : List α) (init : inv s) : inv (run next s as) :=
  guarded_invariant next (fun _ _ => True) inv (fun s a h _ => step s a h) s as init
    (guarded_of_forall next _ s as fun _ _ _ => trivial)

instance decidableGuarded (next : σ → α → σ) (ok : σ → α → Prop) [∀ s a, Decidable (ok s a)] :
    (s : σ) → (as : List α) → Decidable (Guarded next ok s as)
  | _, [] => isTrue trivial
  | s, a :: as =>
    have := decidableGuarded next ok (next s a) as
    inferInstanceAs (Decidable (ok s a ∧ Guarded next ok (next s a) as))

/-! ### Machines with outputs -/

section
variable {τ α' β : Type}

def outputs (step : σ → α → σ × β) : σ → List α → List β
  | _, [] => []
  | s, a :: as => (step s a).2 :: outputs step (step s a).1 as

theorem outputs_eq_of_simulation (step : σ → α → σ × β) (step' : τ → α' → τ × β) (input : α → α')
    (R : σ → τ → Prop)
    (h : ∀ s t a,R s t → (step s a).2=(step' t (input a)).2 ∧
      R (step s a).1 (step' t (input a)).1)
    (s : σ) (t : τ) (as : List α) (hR : R s t) :
    outputs step s as=outputs step' t (as.map input) := by
  induction as generalizing s t with
  | nil => rfl
  | cons a as ih =>
    obtain ⟨hout,hnext⟩:=h s t a hR
    rw [List.map_cons,outputs,outputs,hout,ih _ _ hnext]

end

end SecureGateway.Machine
