import SecureGateway.Lib.Machine
import SecureGateway.Lib.Prog

/-!
# Interleaved programs

Any number of programs run over one world. A step starts a program, lets one of them make its
next call, or kills one between two calls; what a call answers is in the step's label `Ans`.
`Moves` lists what a step can do, and `Disciplined` carries `Prog.Obeys` from the programs
that are started to every call that is made.
-/

namespace SecureGateway
open Prog

variable {Op : Type} {Rep : Op → Type} {σ Ans : Type}

/-- One started program: the calls it has made, the newest first, and what is
left of it, or `none` once it was killed. -/
structure Thread (Op : Type) (Rep : Op → Type) where
  log : List (Event Op Rep)
  rest : Option (Prog Op Rep Unit)

namespace Thread

def next? (t : Thread Op Rep) : Option Op :=
  match t.rest with
  | some (.call op _) => some op
  | _ => none

def finished (t : Thread Op Rep) : Bool := t.next?.isNone

def returned (t : Thread Op Rep) : Bool :=
  match t.rest with
  | some (.ret _) => true
  | _ => false

end Thread

/-- The world, the threads by number, and all calls made so far with the number
of the thread that made them, the newest first. -/
structure Pool (Op : Type) (Rep : Op → Type) (σ : Type) where
  world : σ
  threads : List (Thread Op Rep)
  history : List (ℕ × Event Op Rep)

namespace Pool

def start (w : σ) : Pool Op Rep σ := ⟨w,[],[]⟩

inductive Step (Op : Type) (Rep : Op → Type) (Ans : Type) where
  | spawn (p : Prog Op Rep Unit)
  | exec (i : ℕ) (a : Ans)
  | kill (i : ℕ)

variable (h : Ans → (op : Op) → σ → Rep op × σ)

def called (st : Pool Op Rep σ) (i : ℕ) (log : List (Event Op Rep)) (op : Op)
    (k : Rep op → Prog Op Rep Unit) (a : Ans) : Pool Op Rep σ where
  world := (h a op st.world).2
  threads := st.threads.set i ⟨⟨op,(h a op st.world).1⟩ :: log,some (k (h a op st.world).1)⟩
  history := (i,⟨op,(h a op st.world).1⟩) :: st.history

def next (st : Pool Op Rep σ) : Step Op Rep Ans → Pool Op Rep σ
  | .spawn p => { st with threads := st.threads ++ [⟨[],some p⟩] }
  | .exec i a =>
    match st.threads[i]? with
    | some ⟨log,some (.call op k)⟩ => called h st i log op k a
    | _ => st
  | .kill i =>
    match st.threads[i]? with
    | some t => { st with threads := st.threads.set i { t with rest := none } }
    | none => st

def idle (st : Pool Op Rep σ) : Bool := st.threads.all Thread.finished

inductive Moves (st : Pool Op Rep σ) : Step Op Rep Ans → Pool Op Rep σ → Prop
  | spawned (p : Prog Op Rep Unit) :
      Moves st (.spawn p) { st with threads := st.threads ++ [⟨[],some p⟩] }
  | called (i : ℕ) (a : Ans) (log : List (Event Op Rep)) (op : Op)
      (k : Rep op → Prog Op Rep Unit) (ht : st.threads[i]? = some ⟨log,some (.call op k)⟩) :
      Moves st (.exec i a) (called h st i log op k a)
  | killed (i : ℕ) (t : Thread Op Rep) (ht : st.threads[i]? = some t) :
      Moves st (.kill i) { st with threads := st.threads.set i { t with rest := none } }
  | stays (s : Step Op Rep Ans) : Moves st s st

variable (st : Pool Op Rep σ) (s : Step Op Rep Ans)

theorem next_moves : Moves h st s (next h st s) := by
  cases s with
  | spawn p => exact .spawned p
  | exec i a =>
    rcases ht : st.threads[i]? with _ | ⟨log,_ | ⟨_ | ⟨op,k⟩⟩⟩
    case exec.some.some.call => simpa only [next,ht] using Moves.called i a log op k ht
    all_goals simpa only [next,ht] using Moves.stays _
  | kill i =>
    rcases ht : st.threads[i]? with _ | t
    · simpa only [next,ht] using Moves.stays _
    · simpa only [next,ht] using Moves.killed i t ht

variable {ts : List (Thread Op Rep)} {t t' : Thread Op Rep}

theorem of_mem_set {i j : ℕ} (hj : (ts.set i t')[j]? = some t) :
    (j=i ∧ t=t') ∨ (j≠i ∧ ts[j]? = some t) := by
  by_cases hij : j=i
  · subst hij
    rw [List.getElem?_set_self'] at hj
    obtain ⟨_,_,rfl⟩:=Option.map_eq_some_iff.1 hj
    exact .inl ⟨rfl,rfl⟩
  · rw [List.getElem?_set_ne (Ne.symm hij)] at hj
    exact .inr ⟨hij,hj⟩

theorem of_mem_append {j : ℕ} (hj : (ts ++ [t'])[j]? = some t) :
    (j=ts.length ∧ t=t') ∨ ts[j]? = some t := by
  rw [List.getElem?_append] at hj
  split at hj
  · exact .inr hj
  next hlt =>
  rw [List.getElem?_singleton] at hj
  split at hj
  · cases hj; exact .inl ⟨by omega,rfl⟩
  · cases hj

theorem getElem?_append_old {j : ℕ} (hj : ts[j]? = some t) : (ts ++ [t'])[j]? = some t := by
  rw [List.getElem?_append_left (List.getElem?_eq_some_iff.1 hj).1,hj]

variable {i : ℕ}

theorem getElem?_set_here (hi : ts[i]? = some t) : (ts.set i t')[i]? = some t' :=
  List.getElem?_set_self (List.getElem?_eq_some_iff.1 hi).1

def Logged (st : Pool Op Rep σ) : Prop :=
  ∀ i t e, st.threads[i]? = some t → e ∈ t.log → (i,e) ∈ st.history

variable (w : σ)

theorem logged_start : Logged (start w : Pool Op Rep σ) := by
  intro i t e ht
  simp [start] at ht

theorem logged_next (hl : Logged st) : Logged (next h st s) := by
  have hm:=next_moves h st s
  generalize next h st s=st' at hm
  intro i t e ht he
  cases hm with
  | spawned p =>
    rcases of_mem_append ht with ⟨-,rfl⟩ | hold
    · cases he
    · exact hl i t e hold he
  | called j a log op k hj =>
    rcases of_mem_set ht with ⟨rfl,rfl⟩ | ⟨-,hold⟩
    · rcases List.mem_cons.1 he with rfl | he
      · exact List.mem_cons_self
      · exact List.mem_cons_of_mem _ (hl i _ e hj he)
    · exact List.mem_cons_of_mem _ (hl i t e hold he)
  | killed j t' hj =>
    rcases of_mem_set ht with ⟨rfl,rfl⟩ | ⟨-,hold⟩
    · exact hl i t' e hj he
    · exact hl i t e hold he
  | stays => exact hl i t e ht he

def Attributed (st : Pool Op Rep σ) : Prop :=
  ∀ i e, (i,e) ∈ st.history → ∃ t, st.threads[i]? = some t ∧ e ∈ t.log

theorem attributed_start : Attributed (start w : Pool Op Rep σ) := by
  intro i e he
  cases he

theorem attributed_next (ha : Attributed st) : Attributed (next h st s) := by
  have hm:=next_moves h st s
  generalize next h st s=st' at hm
  intro i e he
  cases hm with
  | spawned p =>
    obtain ⟨t,ht,het⟩:=ha i e he
    exact ⟨t,getElem?_append_old ht,het⟩
  | called j a log op k hj =>
    by_cases hij : i=j
    · subst hij
      refine ⟨_,getElem?_set_here hj,?_⟩
      rcases List.mem_cons.1 he with heq | hold
      · cases heq; exact List.mem_cons_self
      obtain ⟨t,ht,het⟩:=ha i e hold
      cases hj.symm.trans ht
      exact List.mem_cons_of_mem _ het
    · rcases List.mem_cons.1 he with heq | hold
      · cases heq; exact absurd rfl hij
      · obtain ⟨t,ht,het⟩:=ha i e hold
        exact ⟨t,by rw [← ht]; exact List.getElem?_set_ne (Ne.symm hij),het⟩
  | killed j t' hj =>
    obtain ⟨t,ht,het⟩:=ha i e he
    by_cases hij : i=j
    · subst hij
      cases hj.symm.trans ht
      exact ⟨_,getElem?_set_here hj,het⟩
    · exact ⟨t,by rw [← ht]; exact List.getElem?_set_ne (Ne.symm hij),het⟩
  | stays => exact ha i e he

theorem history_next : st.history <:+ (next h st s).history := by
  have hm:=next_moves h st s
  generalize next h st s=st' at hm
  cases hm with
  | spawned p => exact List.suffix_rfl
  | called i a log op k ht => exact List.suffix_cons _ _
  | killed i t ht => exact List.suffix_rfl
  | stays => exact List.suffix_rfl

def logOf (i : ℕ) (history : List (ℕ × Event Op Rep)) : List (Event Op Rep) :=
  (history.filter fun x => x.1 == i).map Prod.snd

@[simp] theorem logOf_cons_self (i : ℕ) (e : Event Op Rep) (history : List (ℕ × Event Op Rep)) :
    logOf i ((i,e)::history)=e::logOf i history := by
  simp [logOf]

theorem logOf_cons_ne {i j : ℕ} (hij : j≠i) (e : Event Op Rep)
    (history : List (ℕ × Event Op Rep)) : logOf i ((j,e)::history)=logOf i history := by
  simp [logOf,hij]

theorem mem_logOf {e : Event Op Rep} {history : List (ℕ × Event Op Rep)} :
    e∈logOf i history ↔ (i,e)∈history := by
  simp [logOf]

/-- The history holds exactly the calls in the threads' logs, in their order. -/
def Recorded (st : Pool Op Rep σ) : Prop :=
  ∀ i, logOf i st.history = (st.threads[i]?.map Thread.log).getD []

theorem Recorded.log_eq {st : Pool Op Rep σ} (hr : Recorded st) {t : Thread Op Rep}
    (ht : st.threads[i]? = some t) : t.log=logOf i st.history := by
  rw [hr i,ht]
  rfl

theorem Recorded.log_new {st : Pool Op Rep σ} (hr : Recorded st) (hi : st.threads.length ≤ i) :
    logOf i st.history = [] := by
  rw [hr i,List.getElem?_eq_none hi]
  rfl

theorem Recorded.thread_of_mem {st : Pool Op Rep σ} (hr : Recorded st) {e : Event Op Rep}
    (he : (i,e)∈st.history) : ∃ t,st.threads[i]? = some t := by
  have hmem:=mem_logOf.2 he
  rw [hr i] at hmem
  cases ht : st.threads[i]? with
  | none => simp [ht] at hmem
  | some t => exact ⟨t,rfl⟩

theorem logOf_suffix (i : ℕ) {old new : List (ℕ × Event Op Rep)} (h : old <:+ new) :
    logOf i old <:+ logOf i new :=
  (h.filter _).map Prod.snd

theorem recorded_start : Recorded (start w : Pool Op Rep σ) := by
  intro i
  simp [start,logOf]

theorem recorded_next (hr : Recorded st) : Recorded (next h st s) := by
  have hm:=next_moves h st s
  generalize next h st s=st' at hm
  intro i
  cases hm with
  | spawned p =>
    have hold:=hr i
    rw [List.getElem?_append]
    split
    · exact hold
    next hi =>
    rw [hr.log_new (Nat.le_of_not_lt hi),List.getElem?_singleton]
    split <;> rfl
  | called j a log op k hj =>
    by_cases hij : j=i
    · subst hij
      simp only [called,logOf_cons_self,getElem?_set_here hj,Option.map_some,Option.getD_some]
      rw [← hr.log_eq hj]
    · simp only [called,logOf_cons_ne hij,List.getElem?_set_ne hij]
      exact hr i
  | killed j t hj =>
    by_cases hij : j=i
    · subst hij
      simp only [getElem?_set_here hj,Option.map_some,Option.getD_some]
      exact (hr.log_eq hj).symm
    · simp only [List.getElem?_set_ne hij]
      exact hr i
  | stays => exact hr i

def Step.started : Step Op Rep Ans → List (Prog Op Rep Unit)
  | .spawn p => [p]
  | _ => []

/-- The threads run these programs: what is left of one is where its calls lead. -/
structure Follows (progs : List (Prog Op Rep Unit)) (st : Pool Op Rep σ) : Prop where
  length : st.threads.length=progs.length
  leads : ∀ (i : ℕ) (t : Thread Op Rep) (p q : Prog Op Rep Unit), st.threads[i]? = some t →
    progs[i]? = some p → t.rest = some q → Leads p t.log.reverse q

theorem follows_start : Follows [] (start w : Pool Op Rep σ) where
  length := rfl
  leads i t p q ht := by simp [start] at ht

theorem follows_next {progs : List (Prog Op Rep Unit)} (hf : Follows progs st) :
    Follows (progs++s.started) (next h st s) := by
  have hm:=next_moves h st s
  cases s with
  | spawn p' =>
    show Follows (progs ++ [p']) { st with threads := st.threads ++ [⟨[],some p'⟩] }
    refine ⟨by simp [hf.length],fun i t p q ht hp hrest => ?_⟩
    rcases of_mem_append ht with ⟨rfl,rfl⟩ | hold
    · rw [hf.length,List.getElem?_concat_length] at hp
      cases hp
      cases hrest
      exact .here _
    · have hlt : i<progs.length := hf.length ▸ (List.getElem?_eq_some_iff.1 hold).1
      rw [List.getElem?_append_left hlt] at hp
      exact hf.leads i t p q hold hp hrest
  | exec j a =>
    simp only [Step.started,List.append_nil]
    generalize next h st (.exec j a)=st' at hm
    cases hm with
    | called _ _ log op k hj =>
      refine ⟨by simp [called,hf.length],fun i t p q ht hp hrest => ?_⟩
      rcases of_mem_set ht with ⟨rfl,rfl⟩ | ⟨-,hold⟩
      · cases hrest
        have hbefore:=hf.leads i _ p _ hj hp rfl
        simpa using hbefore.snoc (h a op st.world).1
      · exact hf.leads i t p q hold hp hrest
    | stays => exact hf
  | kill j =>
    simp only [Step.started,List.append_nil]
    generalize next h st (.kill j)=st' at hm
    cases hm with
    | killed _ t' hj =>
      refine ⟨by simp [hf.length],fun i t p q ht hp hrest => ?_⟩
      rcases of_mem_set ht with ⟨-,rfl⟩ | ⟨-,hold⟩
      · cases hrest
      · exact hf.leads i t p q hold hp hrest
    | stays => exact hf

def Unkilled (st : Pool Op Rep σ) : Prop :=
  ∀ (i : ℕ) (t : Thread Op Rep), st.threads[i]? = some t → t.rest≠none

theorem unkilled_start : Unkilled (start w : Pool Op Rep σ) := by
  intro i t ht
  simp [start] at ht

theorem unkilled_next (hu : Unkilled st) (hs : ∀ i,s ≠ .kill i) : Unkilled (next h st s) := by
  have hm:=next_moves h st s
  generalize next h st s=st' at hm
  intro i t ht
  cases hm with
  | spawned p =>
    rcases of_mem_append ht with ⟨-,rfl⟩ | hold
    · exact Option.some_ne_none p
    · exact hu i t hold
  | called j a log op k hj =>
    rcases of_mem_set ht with ⟨-,rfl⟩ | ⟨-,hold⟩
    · exact Option.some_ne_none _
    · exact hu i t hold
  | killed j t' hj => exact absurd rfl (hs j)
  | stays => exact hu i t ht

/-- At most one thread is unfinished, and its calls are the last that were made. -/
structure Alone (st : Pool Op Rep σ) : Prop where
  single : ∀ (i j : ℕ) (t t' : Thread Op Rep), st.threads[i]? = some t →
    st.threads[j]? = some t' → t.finished=false → t'.finished=false → i=j
  latest : ∀ (i : ℕ) (t : Thread Op Rep), st.threads[i]? = some t → t.finished=false →
    t.log <+: st.history.map Prod.snd

theorem alone_start : Alone (start w : Pool Op Rep σ) where
  single i j t t' ht := by simp [start] at ht
  latest i t ht := by simp [start] at ht

theorem finished_of_idle {st : Pool Op Rep σ} (hidle : st.idle=true) {t : Thread Op Rep}
    (ht : st.threads[i]? = some t) : t.finished=true :=
  List.all_eq_true.mp hidle t (List.mem_of_getElem? ht)

theorem alone_next (ha : Alone st) (hs : ∀ p,s = .spawn p → st.idle=true) :
    Alone (next h st s) := by
  have hm:=next_moves h st s
  generalize next h st s=st' at hm
  cases hm with
  | spawned p =>
    have hnew : ∀ (i : ℕ) (t : Thread Op Rep), (st.threads ++ [⟨[],some p⟩])[i]? = some t →
        t.finished=false → i=st.threads.length ∧ t=⟨[],some p⟩ := by
      intro i t ht hf
      cases of_mem_append ht with
      | inl hlast => exact hlast
      | inr hold =>
        rw [finished_of_idle (hs p rfl) hold] at hf
        cases hf
    constructor
    · intro i j t t' ht ht' hf hf'
      rw [(hnew i t ht hf).1,(hnew j t' ht' hf').1]
    intro i t ht hf
    rw [(hnew i t ht hf).2]
    exact List.nil_prefix
  | called i a log op k hi =>
    -- the calling thread is the unfinished one, before and after
    have honly : ∀ (j : ℕ) (t : Thread Op Rep),
        (called h st i log op k a).threads[j]? = some t → t.finished=false → j=i := by
      intro j t ht hf
      rcases of_mem_set ht with ⟨hij,-⟩ | ⟨-,hold⟩
      · exact hij
      · exact ha.single j i t _ hold hi hf rfl
    constructor
    · intro j j' t t' ht ht' hf hf'
      rw [honly j t ht hf,honly j' t' ht' hf']
    intro j t ht hf
    have hj:=honly j t ht hf
    rcases of_mem_set ht with ⟨-,heq⟩ | ⟨hne,-⟩
    · rw [heq]
      exact List.cons_prefix_cons.mpr ⟨rfl,ha.latest i _ hi rfl⟩
    · exact absurd hj hne
  | killed i t hi =>
    have hold : ∀ (j : ℕ) (t' : Thread Op Rep),
        (st.threads.set i { t with rest := none })[j]? = some t' → t'.finished=false →
        st.threads[j]? = some t' := by
      intro j t' ht hf
      rcases of_mem_set ht with ⟨-,heq⟩ | ⟨-,hold⟩
      · rw [heq] at hf
        cases hf
      · exact hold
    constructor
    · intro j j' t₁ t₂ h₁ h₂ hf₁ hf₂
      exact ha.single j j' t₁ t₂ (hold j t₁ h₁ hf₁) (hold j' t₂ h₂ hf₂) hf₁ hf₂
    · intro j t' ht hf
      exact ha.latest j t' (hold j t' ht hf) hf
  | stays => exact ha

section Discipline
variable (ok : List (Event Op Rep) → Op → Prop) (post : List (Event Op Rep) → Prop)

/-- Every call that is still to come meets `ok`, and every thread that returns
leaves a log that meets `post`. -/
def Disciplined (st : Pool Op Rep σ) : Prop :=
  ∀ (i : ℕ) (log : List (Event Op Rep)) (p : Prog Op Rep Unit),
    st.threads[i]? = some ⟨log,some p⟩ → Obeys ok (fun _ l => post l) log p

def SpawnsObey : Step Op Rep Ans → Prop
  | .spawn p => Obeys ok (fun _ l => post l) [] p
  | _ => True

theorem disciplined_start (w : σ) : Disciplined ok post (start w : Pool Op Rep σ) := by
  intro i log p ht
  simp [start] at ht

theorem disciplined_next (st : Pool Op Rep σ) (s : Step Op Rep Ans) (hd : Disciplined ok post st)
    (hs : SpawnsObey ok post s) : Disciplined ok post (next h st s) := by
  have hm:=next_moves h st s
  generalize next h st s=st' at hm
  intro i log p ht
  cases hm with
  | spawned q =>
    rcases of_mem_append ht with ⟨-,heq⟩ | hold
    · cases heq; exact hs
    · exact hd i log p hold
  | called j a log' op k hj =>
    rcases of_mem_set ht with ⟨-,heq⟩ | ⟨-,hold⟩
    · cases heq; exact (hd j log' _ hj).2 _
    · exact hd i log p hold
  | killed j t hj =>
    rcases of_mem_set ht with ⟨-,heq⟩ | ⟨-,hold⟩
    · cases heq
    · exact hd i log p hold
  | stays => exact hd i log p ht

variable {ok post}

theorem Disciplined.permits {st : Pool Op Rep σ} (hd : Disciplined ok post st) {i : ℕ}
    {log : List (Event Op Rep)} {op : Op} {k : Rep op → Prog Op Rep Unit}
    (ht : st.threads[i]? = some ⟨log,some (.call op k)⟩) : ok log op :=
  (hd i log _ ht).1

theorem Disciplined.finished {st : Pool Op Rep σ} (hd : Disciplined ok post st) {i : ℕ}
    {t : Thread Op Rep} (ht : st.threads[i]? = some t) (hf : t.finished=true) :
    t.rest=none ∨ post t.log := by
  obtain ⟨log,_ | ⟨_ | ⟨op,k⟩⟩⟩:=t
  · exact .inl rfl
  · exact .inr (hd i log _ ht)
  · simp [Thread.finished,Thread.next?] at hf

/-- The threads are disciplined, and `inv` holds of the world and the history. -/
structure Ledger (ok : List (Event Op Rep) → Op → Prop) (post : List (Event Op Rep) → Prop)
    (inv : σ → List (ℕ × Event Op Rep) → Prop) (st : Pool Op Rep σ) : Prop where
  disciplined : Disciplined ok post st
  recorded : Recorded st
  inv : inv st.world st.history

variable {inv : σ → List (ℕ × Event Op Rep) → Prop}

theorem ledger_start {w : σ} (hi : inv w []) : Ledger ok post inv (start w) :=
  ⟨disciplined_start ok post w,recorded_start w,hi⟩

/-- Only a call changes the world or the history, so the invariant has to be
shown for a permitted call alone. -/
theorem ledger_next {st : Pool Op Rep σ} {s : Step Op Rep Ans} (hl : Ledger ok post inv st)
    (hs : SpawnsObey ok post s)
    (step : ∀ i a log op k,s = .exec i a → st.threads[i]? = some ⟨log,some (.call op k)⟩ →
      ok (logOf i st.history) op →
      inv (h a op st.world).2 ((i,⟨op,(h a op st.world).1⟩)::st.history)) :
    Ledger ok post inv (next h st s) := by
  refine ⟨disciplined_next h ok post st s hl.disciplined hs,recorded_next h st s hl.recorded,?_⟩
  have hm:=next_moves h st s
  generalize next h st s=st' at hm
  cases hm with
  | spawned p => exact hl.inv
  | called i a log op k hi =>
    have hok : ok log op := hl.disciplined.permits hi
    have hlog : log=logOf i st.history := hl.recorded.log_eq hi
    exact step i a log op k rfl hi (hlog ▸ hok)
  | killed i t hi => exact hl.inv
  | stays => exact hl.inv

end Discipline

/-! ## Runs of labelled programs

The programs are named by what is asked for, of type `R`. -/

inductive Act (R Ans : Type) where
  | start (r : R)
  | call (i : ℕ) (a : Ans)
  | crash (i : ℕ)

section Acts
variable {R : Type} (prog : R → Prog Op Rep Unit)

def Act.step : Act R Ans → Step Op Rep Ans
  | .start r => .spawn (prog r)
  | .call i a => .exec i a
  | .crash i => .kill i

def act (st : Pool Op Rep σ) (x : Act R Ans) : Pool Op Rep σ := next h st (x.step prog)

def started (xs : List (Act R Ans)) : List R :=
  xs.filterMap fun x => match x with
    | .start r => some r
    | _ => none

def upNext (st : Pool Op Rep σ) (i : ℕ) : Option Op := st.threads[i]?.bind Thread.next?

theorem thread_of_upNext {st : Pool Op Rep σ} {i : ℕ} {op : Op} (hnext : upNext st i=some op) :
    ∃ log k,st.threads[i]? = some ⟨log,some (.call op k)⟩ := by
  rcases ht : st.threads[i]? with _ | ⟨log,_ | ⟨_ | ⟨op',k⟩⟩⟩
  case some.some.call =>
    obtain rfl : op'=op := by simpa [upNext,ht,Thread.next?] using hnext
    exact ⟨log,k,rfl⟩
  all_goals simp [upNext,ht,Thread.next?] at hnext

theorem act_call {st : Pool Op Rep σ} {i : ℕ} {op : Op} (hnext : upNext st i=some op) (a : Ans) :
    (act h prog st (.call i a)).world=(h a op st.world).2 ∧
      (act h prog st (.call i a)).history=(i,⟨op,(h a op st.world).1⟩)::st.history := by
  obtain ⟨log,k,ht⟩:=thread_of_upNext hnext
  simp [act,Act.step,next,ht,called]

theorem world_next (inv : σ → Prop) (step : ∀ w a op,inv w → inv (h a op w).2) {st : Pool Op Rep σ}
    (hi : inv st.world) (s : Step Op Rep Ans) : inv (next h st s).world := by
  have hm:=next_moves h st s
  generalize next h st s=st' at hm
  cases hm with
  | called i a log op k hj => exact step _ _ _ hi
  | _ => exact hi

theorem world_acts (inv : σ → Prop) (step : ∀ w a op,inv w → inv (h a op w).2) {st : Pool Op Rep σ}
    (hi : inv st.world) (xs : List (Act R Ans)) : inv (Machine.run (act h prog) st xs).world :=
  Machine.run_invariant (act h prog) (fun st => inv st.world)
    (fun _ x hst => world_next h inv step hst (x.step prog)) st xs hi

variable {ok : List (Event Op Rep) → Op → Prop} {inv : σ → List (ℕ × Event Op Rep) → Prop}
  {post : List (Event Op Rep) → Prop}

theorem Ledger.permits {st : Pool Op Rep σ} (hl : Ledger ok post inv st) {i : ℕ} {op : Op}
    (hnext : upNext st i=some op) : ok (logOf i st.history) op := by
  obtain ⟨log,k,ht⟩:=thread_of_upNext hnext
  exact hl.recorded.log_eq ht ▸ hl.disciplined.permits ht

theorem ledger_acts_guarded {guard : Pool Op Rep σ → Act R Ans → Prop}
    (hobeys : ∀ st r,guard st (.start r) → Obeys ok (fun _ l => post l) [] (prog r))
    (step : ∀ st i a op,inv st.world st.history → guard st (.call i a) → upNext st i=some op →
      ok (logOf i st.history) op →
      inv (h a op st.world).2 ((i,⟨op,(h a op st.world).1⟩)::st.history)) {st : Pool Op Rep σ}
    (hl : Ledger ok post inv st) {xs : List (Act R Ans)}
    (hg : Machine.Guarded (act h prog) guard st xs) :
    Ledger ok post inv (Machine.run (act h prog) st xs) := by
  refine Machine.guarded_invariant (act h prog) guard (Ledger ok post inv) ?_ st xs hl hg
  intro st x hl hx
  refine ledger_next h hl ?_ ?_
  · cases x with
    | start r => exact hobeys st r hx
    | call i a => trivial
    | crash i => trivial
  intro i a log op k heq ht hok
  cases x with
  | start r => cases heq
  | call j b =>
    cases heq
    exact step st i a op hl.inv hx (by simp [upNext,ht,Thread.next?]) hok
  | crash j => cases heq

theorem ledger_acts (hobeys : ∀ r,Obeys ok (fun _ l => post l) [] (prog r))
    (step : ∀ w history i a op,inv w history → ok (logOf i history) op →
      inv (h a op w).2 ((i,⟨op,(h a op w).1⟩)::history)) {st : Pool Op Rep σ}
    (hl : Ledger ok post inv st) (xs : List (Act R Ans)) :
    Ledger ok post inv (Machine.run (act h prog) st xs) := by
  have hg : Machine.Guarded (act h prog) (fun _ _ => True) st xs :=
    Machine.guarded_of_forall _ _ st xs fun _ _ _ => trivial
  exact ledger_acts_guarded h prog (fun _ r _ => hobeys r)
    (fun st i a op hi _ _ hok => step st.world st.history i a op hi hok) hl hg

theorem follows_acts (st : Pool Op Rep σ) (progs : List (Prog Op Rep Unit)) (hf : Follows progs st)
    (xs : List (Act R Ans)) :
    Follows (progs++(started xs).map prog) (Machine.run (act h prog) st xs) := by
  induction xs generalizing st progs with
  | nil => simpa [started] using hf
  | cons x xs ih =>
    have hstep:=ih _ _ (follows_next h st (x.step prog) hf)
    have hstarted : progs++(x.step prog).started++(started xs).map prog =
        progs++(started (x::xs)).map prog := by
      cases x <;> simp [started,Act.step,Step.started]
    rw [← hstarted]
    exact hstep

theorem returned_acts {w : σ} {xs : List (Act R Ans)} {i : ℕ} {t : Thread Op Rep} {r : R}
    {post : Unit → List (Event Op Rep) → Prop} (hr : (started xs)[i]? = some r)
    (ht : (Machine.run (act h prog) (start w) xs).threads[i]? = some t)
    (hdone : t.returned=true) (ho : Obeys ok post [] (prog r)) : post () t.log := by
  have hf:=follows_acts h prog (start w) [] (follows_start w) xs
  have hp : ([]++(started xs).map prog)[i]? = some (prog r) := by simp [hr]
  unfold Thread.returned at hdone
  split at hdone
  · next a hrest =>
    have hret : Returns (prog r) t.log.reverse () := hf.leads i t _ _ ht hp hrest
    have hpost:=hret.obeys ho
    rwa [List.reverse_reverse,List.append_nil] at hpost
  · cases hdone

theorem history_acts (st : Pool Op Rep σ) (xs : List (Act R Ans)) :
    st.history <:+ (Machine.run (act h prog) st xs).history := by
  induction xs generalizing st with
  | nil => exact List.suffix_rfl
  | cons x xs ih => exact (history_next h st (x.step prog)).trans (ih _)

end Acts

end Pool
end SecureGateway
