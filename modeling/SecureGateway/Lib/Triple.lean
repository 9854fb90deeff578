import SecureGateway.Lib.Prog

/-!
# Pre- and postconditions of programs

`Triple h pre p post`: run alone in a state that meets `pre`, with `h` answering
its calls, the program leaves a result and a state that meet `post`. A program
always returns, so nothing has to be said about termination.

There is one rule for each way a program is put together.
-/

namespace SecureGateway.Prog

variable {Op : Type} {Rep : Op → Type} {α β σ : Type}

def Triple (h : (op : Op) → σ → Rep op × σ) (pre : σ → Prop) (p : Prog Op Rep α)
    (post : α → σ → Prop) : Prop :=
  ∀ s, pre s → post (run h p s).1 (run h p s).2

variable {h : (op : Op) → σ → Rep op × σ} {pre : σ → Prop} {post : α → σ → Prop}

theorem triple_pure {a : α} (ha : ∀ s,pre s → post a s) :
    Triple h pre (pure a : Prog Op Rep α) post := ha

theorem triple_bind {q : β → σ → Prop} {p : Prog Op Rep β} {f : β → Prog Op Rep α}
    (hp : Triple h pre p q) (hf : ∀ b,Triple h (q b) (f b) post) : Triple h pre (p >>= f) post := by
  intro s hs
  rw [run_bind]
  exact hf _ _ (hp s hs)

theorem triple_step {op : Op} {q : Rep op → σ → Prop} {f : Rep op → Prog Op Rep α}
    (hop : ∀ s,pre s → q (h op s).1 (h op s).2) (hf : ∀ r,Triple h (q r) (f r) post) :
    Triple h pre (perform op >>= f) post :=
  triple_bind (p := perform op) hop hf

/- A call whose answer is known and that leaves the precondition as it is. -/
theorem triple_call {op : Op} {r : Rep op} {f : Rep op → Prog Op Rep α}
    (hop : ∀ s,pre s → (h op s).1=r ∧ pre (h op s).2) (hf : Triple h pre (f r) post) :
    Triple h pre (perform op >>= f) post := by
  refine triple_step (q := fun r' s => r'=r ∧ pre s) hop fun r' => ?_
  rintro s ⟨rfl,hs⟩
  exact hf s hs

theorem triple_ite {c : Prop} [Decidable c] {p p' : Prog Op Rep α} (hc : c → Triple h pre p post)
    (hc' : ¬ c → Triple h pre p' post) : Triple h pre (if c then p else p') post := by
  split
  · next hif => exact hc hif
  · next hif => exact hc' hif

variable {p : Prog Op Rep α}

theorem triple_mono {pre' : σ → Prop} {post' : α → σ → Prop} (hp : Triple h pre p post)
    (hpre : ∀ s,pre' s → pre s) (hpost : ∀ a s,post a s → post' a s) : Triple h pre' p post' :=
  fun s hs => hpost _ _ (hp s (hpre s hs))

theorem triple_and {pre' : σ → Prop} {post' : α → σ → Prop} (hp : Triple h pre p post)
    (hp' : Triple h pre' p post') :
    Triple h (fun s => pre s ∧ pre' s) p fun a s => post a s ∧ post' a s :=
  fun s hs => ⟨hp s hs.1,hp' s hs.2⟩

theorem triple_of_obeys {ok : List (Event Op Rep) → Op → Prop} (hp : Makes ok [] p)
    (hstep : ∀ log op s,pre s → ok log op → pre (h op s).2) : Triple h pre p fun _ => pre := by
  intro s hs
  obtain ⟨hinv,-⟩:=run_obeys h ok (fun _ => pre) hstep _ p [] s hp hs
  exact hinv

end SecureGateway.Prog
