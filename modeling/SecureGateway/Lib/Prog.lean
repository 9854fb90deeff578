import Mathlib.Data.List.Basic

/-!
# Programs of atomic calls

A handler whose calls are atomic one by one is a `Prog`: a tree of calls, each continued by
what it does with the answer. `Obeys` says what a program does whatever the calls answer: at
every call the discipline `ok` holds between the calls made so far and the one about to be
made.
-/

namespace SecureGateway

/-- A program over the calls `Op`, of which `op` answers with a `Rep op`. -/
inductive Prog (Op : Type) (Rep : Op → Type) (α : Type) where
  | ret (a : α)
  | call (op : Op) (k : Rep op → Prog Op Rep α)

namespace Prog
variable {Op : Type} {Rep : Op → Type} {α β σ : Type}

def bind : Prog Op Rep α → (α → Prog Op Rep β) → Prog Op Rep β
  | .ret a, f => f a
  | .call op k, f => .call op fun r => (k r).bind f

instance : Monad (Prog Op Rep) where
  pure := .ret
  bind := bind

def perform (op : Op) : Prog Op Rep (Rep op) := .call op .ret

abbrev Event (Op : Type) (Rep : Op → Type) : Type := Σ op : Op, Rep op

def run (h : (op : Op) → σ → Rep op × σ) : Prog Op Rep α → σ → α × σ
  | .ret a, s => (a,s)
  | .call op k, s => run h (k (h op s).1) (h op s).2

/-- The calls of that run in order, each with the state it was made in. -/
def trace (h : (op : Op) → σ → Rep op × σ) : Prog Op Rep α → σ → List (σ × Event Op Rep)
  | .ret _, _ => []
  | .call op k, s => (s,⟨op,(h op s).1⟩) :: trace h (k (h op s).1) (h op s).2

@[simp] theorem run_pure (h : (op : Op) → σ → Rep op × σ) (a : α) (s : σ) :
    run h (pure a : Prog Op Rep α) s=(a,s) := rfl

@[simp] theorem run_perform (h : (op : Op) → σ → Rep op × σ) (op : Op) (s : σ) :
    run h (perform op) s=h op s := rfl

@[simp] theorem run_bind (h : (op : Op) → σ → Rep op × σ) (p : Prog Op Rep α)
    (f : α → Prog Op Rep β) (s : σ) : run h (p >>= f) s=run h (f (run h p s).1) (run h p s).2 := by
  show run h (p.bind f) s = _
  induction p generalizing s with
  | ret a => rfl
  | call op k ih => exact ih (h op s).1 (h op s).2

theorem trace_bind (h : (op : Op) → σ → Rep op × σ) (p : Prog Op Rep α) (f : α → Prog Op Rep β)
    (s : σ) : trace h (p >>= f) s=trace h p s++trace h (f (run h p s).1) (run h p s).2 := by
  show trace h (p.bind f) s = _
  induction p generalizing s with
  | ret a => rfl
  | call op k ih => exact congrArg _ (ih (h op s).1 (h op s).2)

section Obeys
variable (ok : List (Event Op Rep) → Op → Prop)

/-- Whatever the calls answer: every call meets `ok` after the calls already in
the log (the newest first), and what is returned meets `post`. -/
def Obeys (post : α → List (Event Op Rep) → Prop) : List (Event Op Rep) → Prog Op Rep α → Prop
  | log, .ret a => post a log
  | log, .call op k => ok log op ∧ ∀ r, Obeys post (⟨op,r⟩ :: log) (k r)

variable {ok} {post : α → List (Event Op Rep) → Prop} {log : List (Event Op Rep)}

theorem obeys_pure {a : α} (h : post a log) : Obeys ok post log (pure a) := h

theorem obeys_mono {post' : α → List (Event Op Rep) → Prop} {p : Prog Op Rep α}
    (h : Obeys ok post log p) (hpost : ∀ a l,post a l → post' a l) : Obeys ok post' log p := by
  induction p generalizing log with
  | ret a => exact hpost a log h
  | call op k ih => exact ⟨h.1,fun r => ih r (h.2 r)⟩

theorem obeys_bind {p : Prog Op Rep β} {f : β → Prog Op Rep α}
    (h : Obeys ok (fun b l => Obeys ok post l (f b)) log p) : Obeys ok post log (p >>= f) := by
  show Obeys ok post log (p.bind f)
  induction p generalizing log with
  | ret b => exact h
  | call op k ih => exact ⟨h.1,fun r => ih r (h.2 r)⟩

theorem obeys_step {op : Op} {f : Rep op → Prog Op Rep α} (hop : ok log op)
    (h : ∀ r,Obeys ok post (⟨op,r⟩::log) (f r)) : Obeys ok post log (perform op >>= f) :=
  ⟨hop,h⟩

theorem obeys_ite {c : Prop} [Decidable c] {p p' : Prog Op Rep α} (h : c → Obeys ok post log p)
    (h' : ¬ c → Obeys ok post log p') : Obeys ok post log (if c then p else p') := by
  split
  · next hc => exact h hc
  · next hc => exact h' hc

theorem obeys_grows {p : Prog Op Rep α} (h : Obeys ok post log p) :
    Obeys ok (fun a l => post a l ∧ log <:+ l) log p := by
  induction p generalizing log with
  | ret a => exact ⟨h,List.suffix_rfl⟩
  | call op k ih =>
    refine ⟨h.1,fun r => obeys_mono (ih r (h.2 r)) ?_⟩
    rintro a l ⟨ha,hl⟩
    exact ⟨ha,(List.suffix_cons _ _).trans hl⟩

theorem obeys_weaken {ok' : List (Event Op Rep) → Op → Prop} {p : Prog Op Rep α}
    (h : Obeys ok post log p) (hok : ∀ l op,log <:+ l → ok l op → ok' l op) :
    Obeys ok' post log p := by
  induction p generalizing log with
  | ret a => exact h
  | call op k ih =>
    refine ⟨hok log op List.suffix_rfl h.1,fun r => ih r (h.2 r) fun l op hl => hok l op ?_⟩
    exact (List.suffix_cons _ _).trans hl

variable {inv : List (Event Op Rep) → Prop}

theorem obeys_guard {p : Prog Op Rep α} (step : ∀ l op r,inv l → ok l op → inv (⟨op,r⟩::l))
    (h : Obeys ok post log p) (hi : inv log) :
    Obeys (fun l op => ok l op ∧ inv l) (fun a l => post a l ∧ inv l) log p := by
  induction p generalizing log with
  | ret a => exact ⟨h,hi⟩
  | call op k ih => exact ⟨⟨h.1,hi⟩,fun r => ih r (h.2 r) (step log op r hi h.1)⟩

theorem obeys_log {p : Prog Op Rep α} (step : ∀ l op r,inv l → ok l op → inv (⟨op,r⟩::l))
    (h : Obeys ok post log p) (hi : inv log) : Obeys ok (fun a l => post a l ∧ inv l) log p :=
  obeys_weaken (obeys_guard step h hi) fun _ _ _ hop => hop.1

/-- Every call of the log is of this kind. -/
def Only (kind : Op → Bool) (log : List (Event Op Rep)) : Prop := ∀ e ∈ log, kind e.1 = true

theorem only_nil {kind : Op → Bool} : Only kind ([] : List (Event Op Rep)) := fun _ he => nomatch he

theorem Only.cons {kind : Op → Bool} {op : Op} {r : Rep op} (hop : kind op=true)
    (h : Only kind log) : Only kind (⟨op,r⟩::log) :=
  List.forall_mem_cons.2 ⟨hop,h⟩

theorem Only.mono {kind kind' : Op → Bool} (h : Only kind log)
    (hkind : ∀ op,kind op=true → kind' op=true) : Only kind' log :=
  fun e he => hkind e.1 (h e he)

theorem obeys_only {kind : Op → Bool} {p : Prog Op Rep α} (h : Obeys ok post log p)
    (hkind : ∀ l op,ok l op → kind op=true) (hlog : Only kind log) :
    Obeys ok (fun a l => post a l ∧ Only kind l) log p :=
  obeys_log (fun l op _ hl hop => hl.cons (hkind l op hop)) h hlog

theorem obeys_any (log : List (Event Op Rep)) (p : Prog Op Rep α) :
    Obeys (fun _ _ => True) (fun _ _ => True) log p := by
  induction p generalizing log with
  | ret a => trivial
  | call op k ih => exact ⟨trivial,fun r => ih r _⟩

theorem obeys_seq {q : β → List (Event Op Rep) → Prop} {p : Prog Op Rep β}
    {f : β → Prog Op Rep α} (hp : Obeys ok q log p)
    (h : ∀ b l,q b l → log <:+ l → Obeys ok post l (f b)) : Obeys ok post log (p >>= f) :=
  obeys_bind (obeys_mono (obeys_grows hp) fun b l hb => h b l hb.1 hb.2)

/-- The program makes only calls that meet `ok`. -/
abbrev Makes (ok : List (Event Op Rep) → Op → Prop) (log : List (Event Op Rep))
    (p : Prog Op Rep α) : Prop :=
  Obeys ok (fun _ _ => True) log p

/-- The program has returned. -/
class Over (p : Prog Op Rep α) : Prop where
  makes : ∀ ok log, Makes ok log p

instance (a : α) : Over (pure a : Prog Op Rep α) := ⟨fun _ _ => trivial⟩

/-- The error path of a handler: it returns where the check fails. -/
theorem obeys_unless {c : Prop} [Decidable c] {a : α} {p : Prog Op Rep α}
    (h : ¬ c → Makes ok log p) : Makes ok log (if c then pure a else p) :=
  obeys_ite (fun _ => trivial) h

theorem obeys_ok {ε : Type} {q : Except ε β → List (Event Op Rep) → Prop}
    {p : Prog Op Rep (Except ε β)} {f : Except ε β → Prog Op Rep α} [∀ e,Over (f (.error e))]
    (hp : Obeys ok q log p) (h : ∀ b l,q (.ok b) l → log <:+ l → Makes ok l (f (.ok b))) :
    Makes ok log (p >>= f) := by
  refine obeys_seq hp fun r l hr hl => ?_
  cases r with
  | error e => exact Over.makes ok l
  | ok b => exact h b l hr hl

theorem obeys_some {q : Option β → List (Event Op Rep) → Prop} {p : Prog Op Rep (Option β)}
    {f : Option β → Prog Op Rep α} [Over (f none)] (hp : Obeys ok q log p)
    (h : ∀ b l,q (some b) l → log <:+ l → Makes ok l (f (some b))) : Makes ok log (p >>= f) := by
  refine obeys_seq hp fun r l hr hl => ?_
  cases r with
  | none => exact Over.makes ok l
  | some b => exact h b l hr hl

end Obeys

/-- After these calls, the oldest first, with these answers the program goes on
as `q`. -/
inductive Leads : Prog Op Rep α → List (Event Op Rep) → Prog Op Rep α → Prop
  | here (p : Prog Op Rep α) : Leads p [] p
  | call {op : Op} {k : Rep op → Prog Op Rep α} {l : List (Event Op Rep)} {q : Prog Op Rep α}
      (r : Rep op) : Leads (k r) l q → Leads (.call op k) (⟨op,r⟩ :: l) q

def Returns (p : Prog Op Rep α) (l : List (Event Op Rep)) (a : α) : Prop := Leads p l (.ret a)

variable {post : α → List (Event Op Rep) → Prop} {ok : List (Event Op Rep) → Op → Prop}
  {l log : List (Event Op Rep)} {p : Prog Op Rep α}

theorem Leads.snoc {l : List (Event Op Rep)} {op : Op} {k : Rep op → Prog Op Rep α}
    (h : Leads p l (.call op k)) (r : Rep op) : Leads p (l ++ [⟨op,r⟩]) (k r) := by
  generalize hq : Prog.call op k=q at h
  induction h with
  | here p =>
    subst hq
    exact .call r (.here _)
  | call r' _ ih => exact .call r' (ih hq)

theorem Leads.obeys {p q : Prog Op Rep α} (h : Leads p l q) (hp : Obeys ok post log p) :
    Obeys ok post (l.reverse++log) q := by
  induction h generalizing log with
  | here p => exact hp
  | call r _ ih =>
    have hrest:=ih (hp.2 r)
    simpa using hrest

theorem Leads.called {p q : Prog Op Rep α} (h : Leads p l q) (hp : Obeys ok post log p)
    (e : Event Op Rep) (he : e∈l) : ∃ log',ok log' e.1 := by
  induction h generalizing log with
  | here p => cases he
  | call r _ ih =>
    rcases List.mem_cons.1 he with rfl | he
    · exact ⟨log,hp.1⟩
    · exact ih (hp.2 r) he

theorem Returns.obeys {a : α} (hr : Returns p l a) (hp : Obeys ok post log p) :
    post a (l.reverse++log) :=
  Leads.obeys hr hp

theorem returns_of_bind_pure {f : α → β} {l : List (Event Op Rep)} {b : β}
    (h : Returns (p >>= fun a => pure (f a)) l b) : ∃ a,Returns p l a := by
  induction p generalizing l with
  | ret a =>
    cases h with
    | here => exact ⟨a,.here _⟩
  | call op k ih =>
    cases h with
    | call r h =>
      obtain ⟨a,ha⟩:=ih r h
      exact ⟨a,.call r ha⟩

section Run
variable (h : (op : Op) → σ → Rep op × σ) (ok : List (Event Op Rep) → Op → Prop)
  (inv : List (Event Op Rep) → σ → Prop)

def logAfter (p : Prog Op Rep α) (s : σ) (log : List (Event Op Rep)) : List (Event Op Rep) :=
  ((trace h p s).map Prod.snd).reverse ++ log

theorem run_guarded (guard : σ → Op → Prop)
    (step : ∀ log op s,inv log s → ok log op → guard s op → inv (⟨op,(h op s).1⟩::log) (h op s).2)
    (post : α → List (Event Op Rep) → Prop) (p : Prog Op Rep α) (log : List (Event Op Rep)) (s : σ)
    (hp : Obeys ok post log p) (hg : ∀ x∈trace h p s,guard x.1 x.2.1) (hi : inv log s) :
    inv (logAfter h p s log) (run h p s).2 ∧ post (run h p s).1 (logAfter h p s log) := by
  induction p generalizing log s with
  | ret a => exact ⟨hi,hp⟩
  | call op k ih =>
    obtain ⟨hhere,hrest⟩:=List.forall_mem_cons.1 hg
    have hlog : logAfter h (.call op k) s log =
        logAfter h (k (h op s).1) (h op s).2 (⟨op,(h op s).1⟩::log) := by
      simp [logAfter,trace]
    rw [hlog]
    exact ih _ _ _ (hp.2 _) hrest (step log op s hi hp.1 hhere)

theorem run_obeys (step : ∀ log op s,inv log s → ok log op → inv (⟨op,(h op s).1⟩::log) (h op s).2)
    (post : α → List (Event Op Rep) → Prop) (p : Prog Op Rep α) (log : List (Event Op Rep)) (s : σ)
    (hp : Obeys ok post log p) (hi : inv log s) :
    inv (logAfter h p s log) (run h p s).2 ∧ post (run h p s).1 (logAfter h p s log) :=
  run_guarded h ok inv (fun _ _ => True) (fun log op s hi hok _ => step log op s hi hok) post p log
    s hp (fun _ _ => trivial) hi

def logBefore (p : Prog Op Rep α) (s : σ) (i : ℕ) (log : List (Event Op Rep)) :
    List (Event Op Rep) :=
  (((trace h p s).take i).map Prod.snd).reverse ++ log

theorem trace_obeys
    (step : ∀ log op s,inv log s → ok log op → inv (⟨op,(h op s).1⟩::log) (h op s).2)
    (post : α → List (Event Op Rep) → Prop) (p : Prog Op Rep α) (log : List (Event Op Rep)) (s : σ)
    (hp : Obeys ok post log p) (hi : inv log s) (i : ℕ) (x : σ × Event Op Rep)
    (hx : (trace h p s)[i]? = some x) :
    inv (logBefore h p s i log) x.1 ∧ ok (logBefore h p s i log) x.2.1 := by
  induction p generalizing log s i with
  | ret a => simp [trace] at hx
  | call op k ih =>
    cases i with
    | zero =>
      cases hx
      exact ⟨hi,hp.1⟩
    | succ i =>
      have := ih _ _ _ (hp.2 _) (step log op s hi hp.1) i hx
      simpa [logBefore,trace] using this

end Run

end Prog
end SecureGateway
