import SecureGateway.Auth.Interleaving
import SecureGateway.Billing.Cancellation

/-!
# The grace deadline

Five handlers write the status of a mirror and its `GraceUntil`: a deadline that is there is
kept, and a new one counts from the clock (`Sets`). `syncSubscription` takes any error of
`GetSubscription` for a missing mirror and then sets the deadline anew.
-/

namespace SecureGateway.Billing
open Authstore Auth Prog

variable {p : Processor} {log : List Auth.Event}

theorem deadlines_of_books {op : Op} (h : books op=true) : Deadlines p log op := by
  unfold Deadlines
  split
  · cases h
  · trivial

theorem handle_deadlines (srv : Service) (r : Request) (hr : r.isBilling=true) :
    Makes (Deadlines srv.proc) [] (handle srv r) := by
  have hdispatch (l : List Auth.Event) (ev : Stripe.Event) :
      Makes (Deadlines srv.proc) l (dispatch srv.proc ev) :=
    obeys_weaken (dispatch_does ev) fun _ _ _ hop => hop.2
  cases r with
  | webhook payload signed =>
    exact obeys_seq (handleWebhook_lift (fun _ _ => deadlines_of_books) payload signed
      (fun _ _ _ => trivial) fun l ev _ => hdispatch l ev) fun _ _ _ _ => trivial
  | retryFailed limit =>
    exact obeys_seq (retryFailed_lift (fun _ _ => deadlines_of_books) limit
      fun l _ _ _ _ ev _ => hdispatch l ev) fun _ _ _ _ => trivial
  | reconcile =>
    refine obeys_seq (reconcile_lift (fun _ _ => deadlines_of_books) fun _ _ _ sub _ => ?_)
      fun _ _ _ _ => trivial
    exact obeys_weaken (reconcileOne_does sub) fun _ _ _ hop => hop.2
  | _ => cases hr

/- Stripe's events, retries and reconciliations, each started once the one before it has
ended or was killed. -/
def oneByOne (st : Requests) : Auth.Step → Bool
  | .start r => r.isBilling && st.idle
  | _ => true

/- The clock does not show a time from which the grace period ends at the zero time. -/
def endsDated (srv : Service) : Requests → Auth.Step → Bool := neverReads (-srv.proc.grace)

/-- A mirror that is past due can be read. -/
def readable (st : Requests) : Auth.Step → Bool
  | .call i a =>
    match nextCall st i with
    | some (.store (.getSubscription id)) => !(a.fault && pastDue st.world.store id)
    | _ => true
  | _ => true

def DueBy (s : Store) (id : String) (d : Time) : Prop :=
  ∃ m, s.subscriptions.get id = some m ∧ m.status=.pastDue ∧ m.graceUntil=d

theorem pastDue_iff {s : Store} {id : String} :
    pastDue s id=true ↔ ∃ m,s.subscriptions.get id=some m ∧ m.status=.pastDue := by
  simp [pastDue,Option.any_eq_true]

theorem DueBy.pastDue {s : Store} {id : String} {d : Time} (h : DueBy s id d) :
    pastDue s id=true := by
  obtain ⟨m,hm,hstatus,-⟩:=h
  exact pastDue_iff.mpr ⟨m,hm,hstatus⟩

/-- What the handlers rely on between two calls. -/
structure Graced (p : Processor) (w : World) (history : List (ℕ × Auth.Event)) : Prop where
  deadline : ∀ id m, w.store.subscriptions.get id = some m →
    (m.status=.pastDue ↔ m.graceUntil≠0)
  read : ∀ id m, lastRead (history.map Prod.snd) = some (id,.ok m) →
    w.store.subscriptions.get id = some m
  missing : ∀ id e, lastRead (history.map Prod.snd) = some (id,.error e) →
    pastDue w.store id = false
  time : ∀ t ∈ readings (history.map Prod.snd), t + p.grace ≠ 0

theorem graced_start (w : World) (hempty : w.store={}) : Graced p w [] where
  deadline id m hm := by simp [hempty] at hm
  read id m h := by cases h
  missing id e h := by cases h
  time t ht := by cases ht

theorem lastRead_of_grown {l l' : List Auth.Event} {x : String × Except Err Subscription}
    (hp : l <+: l') (h : lastRead l=some x) : lastRead l'=some x := by
  obtain ⟨rest,hrest⟩:=hp
  rw [← hrest]
  clear hrest
  induction l with
  | nil => cases h
  | cons e l ih =>
    unfold lastRead at h
    split at h
    next heq =>
      cases heq
      exact ih h
    next heq =>
      cases heq
      exact h
    · cases h

theorem mem_readings_of_grown {l l' : List Auth.Event} {t : Time} (hp : l <+: l')
    (h : t∈readings l) : t∈readings l' := by
  obtain ⟨rest,hrest⟩:=hp
  rw [← hrest]
  clear hrest
  induction l with
  | nil => cases h
  | cons e l ih =>
    unfold readings at h
    split at h
    next heq =>
      cases heq
      cases List.mem_cons.mp h with
      | inl heq =>
        rw [heq]
        exact List.mem_cons_self
      | inr hold => exact List.mem_cons_of_mem _ (ih hold)
    next heq =>
      cases heq
      exact ih h
    · cases h

section Call
variable {w : World} {history : List (ℕ × Auth.Event)} {a : Answer} {op : Op}

theorem mirror_perform (a : Answer) (op : Op) (w : World) (id : String) :
    (perform a op w).2.store.subscriptions.get id=w.store.subscriptions.get id ∨
      ∃ m,op = .store (.upsertSubscription m) ∧ m.id=id ∧
        (perform a op w).2.store.subscriptions.get id=some m := by
  rcases perform_writes a op w with hsame | ⟨sop,rfl,hw⟩
  · rw [hsame]
    exact .inl rfl
  generalize (perform a (.store sop) w).2.store=s' at hw
  cases hw with
  | subscription m =>
    by_cases hid : m.id=id
    · refine .inr ⟨m,rfl,hid,?_⟩
      rw [← hid]
      exact Table.get_put_self _ m
    · exact .inl (Table.get_put_ne _ _ hid)
  | _ => exact .inl rfl

/-- What a handler writes: a deadline exactly if it is past due, the one that was there,
and otherwise one from the clock. -/
theorem Graced.written (h : Graced p w history) (hlog : log <+: history.map Prod.snd)
    {m : Subscription} (hm : Sets p log m) :
    (m.status=.pastDue ↔ m.graceUntil≠0) ∧
      (m.status=.pastDue → ∀ d,DueBy w.store m.id d → m.graceUntil=d) ∧
      (m.status=.pastDue → pastDue w.store m.id=false →
        ∃ t∈readings log,m.graceUntil=t+p.grace) := by
  cases hm with
  | clears hstatus hnone =>
    refine ⟨?_,fun hdue => absurd hdue hstatus,fun hdue => absurd hdue hstatus⟩
    constructor
    · intro hdue
      exact absurd hdue hstatus
    · intro hset
      exact absurd hnone hset
  | keeps id m₀ hread hid hstatus hset hkept =>
    have hget:=h.read id m₀ (lastRead_of_grown hlog hread)
    have hdue:=(h.deadline id m₀ hget).mpr hset
    have hkey : m.id=id := hid.elim (fun heq => heq) fun heq => heq.trans (Table.key_of_get hget)
    refine ⟨?_,?_,?_⟩
    · rw [hkept]
      exact ⟨fun _ => hset,fun _ => hstatus⟩
    · intro _ d hd
      obtain ⟨m₁,hget₁,-,hd⟩:=hd
      rw [hkey,hget] at hget₁
      rw [hkept,Option.some.inj hget₁,hd]
    · intro _ hnot
      rw [hkey,pastDue_iff.mpr ⟨m₀,hget,hdue⟩] at hnot
      cases hnot
  | renews id m₀ t hread hid hstatus hnone ht hnew =>
    have hget:=h.read id m₀ (lastRead_of_grown hlog hread)
    have hnot : ¬ m₀.status=.pastDue := fun hdue => (h.deadline id m₀ hget).mp hdue hnone
    have hkey : m.id=id := hid.elim (fun heq => heq) fun heq => heq.trans (Table.key_of_get hget)
    refine ⟨?_,?_,fun _ _ => ⟨t,ht,hnew⟩⟩
    · rw [hnew]
      exact ⟨fun _ => h.time t (mem_readings_of_grown hlog ht),fun _ => hstatus⟩
    intro _ d hd
    obtain ⟨m₁,hget₁,hdue₁,-⟩:=hd
    rw [hkey,hget] at hget₁
    rw [← Option.some.inj hget₁] at hdue₁
    exact absurd hdue₁ hnot
  | begins e t hread hstatus ht hnew =>
    have hnot:=h.missing m.id e (lastRead_of_grown hlog hread)
    refine ⟨?_,?_,fun _ _ => ⟨t,ht,hnew⟩⟩
    · rw [hnew]
      exact ⟨fun _ => h.time t (mem_readings_of_grown hlog ht),fun _ => hstatus⟩
    intro _ d hd
    rw [hd.pastDue] at hnot
    cases hnot

theorem store_getSubscription (a : Answer) (id : String) (w : World) :
    (perform a (.store (.getSubscription id)) w).2.store=w.store :=
  perform_read a _ w (Store.exec_reads w.store _ rfl)

theorem Graced.called (h : Graced p w history) (hlog : log <+: history.map Prod.snd)
    (hok : Deadlines p log op) (hdated : op=.now → w.clock+a.elapsed+p.grace≠0)
    (hread : ∀ id,op = .store (.getSubscription id) → a.fault=true → pastDue w.store id=false)
    (i : ℕ) : Graced p (perform a op w).2 ((i,⟨op,(perform a op w).1⟩)::history) := by
  constructor
  · intro id m hm
    rcases mirror_perform a op w id with hsame | ⟨m',hop,-,hput⟩
    · rw [hsame] at hm
      exact h.deadline id m hm
    rw [hput] at hm
    cases hm
    subst hop
    exact (h.written hlog hok).1
  · intro id m hlast
    cases op with
    | now => exact h.read id m hlast
    | store sop =>
      cases sop with
      | getSubscription id' =>
        obtain ⟨hid,hr⟩:=Prod.mk.inj (Option.some.inj hlast)
        rw [store_getSubscription,← hid]
        have hexec:=(perform_ok hr).1
        simpa [Store.exec] using hexec
      | _ => cases hlast
    | _ => cases hlast
  · intro id e hlast
    cases op with
    | now => exact h.missing id e hlast
    | store sop =>
      cases sop with
      | getSubscription id' =>
        obtain ⟨hid,hr⟩:=Prod.mk.inj (Option.some.inj hlast)
        rw [store_getSubscription,← hid]
        cases hfault : a.fault with
        | true => exact hread id' rfl hfault
        | false =>
          have hexec : (w.store.exec ⟨w.clock,a.ties⟩ (.getSubscription id')).1 = .error e := by
            simpa [Auth.perform,hfault] using hr
          cases hget : w.store.subscriptions.get id' with
          | none => simp [pastDue,hget]
          | some m => simp [Store.exec,Store.found,hget] at hexec
      | _ => cases hlast
    | _ => cases hlast
  · intro t ht
    cases op with
    | now =>
      cases List.mem_cons.mp ht with
      | inl heq =>
        rw [heq]
        exact hdated rfl
      | inr hold => exact h.time t hold
    | store sop =>
      cases sop with
      | getSubscription id' => exact h.time t ht
      | _ => cases ht
    | _ => cases ht

end Call

structure Serial (srv : Service) (st : Requests) : Prop where
  ledger : Pool.Ledger (Deadlines srv.proc) (fun _ => True) (Graced srv.proc) st
  alone : Pool.Alone st

section Runs
variable {srv : Service} {st : Requests} {x : Auth.Step} {id : String}

theorem serial_start (w : World) (hempty : w.store={}) : Serial srv (Pool.start w) where
  ledger := Pool.ledger_start (graced_start w hempty)
  alone := Pool.alone_start w

theorem Serial.next (h : Serial srv st) (hturn : oneByOne st x=true) (hdated : endsDated srv st x=true)
    (hread : readable st x=true) : Serial srv (interleave srv st x) := by
  constructor
  · apply Pool.ledger_next perform h.ledger
    · cases x with
      | start r =>
        have hr : r.isBilling=true := (Bool.and_eq_true_iff.mp hturn).1
        exact handle_deadlines srv r hr
      | call i a => trivial
      | crash i => trivial
    intro i a log op k hx ht hok
    have hlog : log=Pool.logOf i st.history := h.ledger.recorded.log_eq ht
    cases x with
    | start r => cases hx
    | crash j => cases hx
    | call j b =>
      cases hx
      apply h.ledger.inv.called (hlog ▸ h.alone.latest i _ ht rfl) hok
      · intro hop
        subst hop
        simp only [endsDated,neverReads,nextCall_eq ht,bne_iff_ne] at hdated
        have harith : ∀ c g : ℤ,c≠-g → c+g≠0 := by omega
        exact harith _ _ hdated
      · intro id hop hfault
        subst hop
        simpa [readable,nextCall_eq ht,hfault] using hread
  · apply Pool.alone_next perform st _ h.alone
    intro q hq
    cases x with
    | start r => exact (Bool.and_eq_true_iff.mp hturn).2
    | call i a => cases hq
    | crash i => cases hq

theorem Serial.mirror_next (h : Serial srv st) (x : Auth.Step) (id : String) :
    (interleave srv st x).world.store.subscriptions.get id =
        st.world.store.subscriptions.get id ∨
      ∃ i a m,x = .call i a ∧ Sets srv.proc (Pool.logOf i st.history) m ∧
        Pool.logOf i st.history <+: st.history.map Prod.snd ∧ m.id=id ∧
        (interleave srv st x).world.store.subscriptions.get id=some m := by
  have hm:=Pool.next_moves perform st (x.pool srv)
  cases x with
  | start r => exact .inl rfl
  | crash i =>
    refine .inl ?_
    unfold interleave
    generalize Pool.next perform st (Step.pool srv (.crash i))=st' at hm
    cases hm with
    | killed _ t _ => rfl
    | stays => rfl
  | call i a =>
    unfold interleave
    generalize Pool.next perform st (Step.pool srv (.call i a))=st' at hm
    cases hm with
    | stays => exact .inl rfl
    | called _ _ log op k ht =>
      have hlog : log=Pool.logOf i st.history := h.ledger.recorded.log_eq ht
      have hlatest:=h.alone.latest i _ ht rfl
      have hok:=h.ledger.disciplined.permits ht
      rcases mirror_perform a op st.world id with hsame | ⟨m,hop,hid,hput⟩
      · exact .inl hsame
      · subst hop
        exact .inr ⟨i,a,m,rfl,hlog ▸ hok,hlog ▸ hlatest,hid,hput⟩

theorem Serial.dueBy_next (h : Serial srv st) {d : Time} (hd : DueBy st.world.store id d)
    (hdue : pastDue (interleave srv st x).world.store id=true) :
    DueBy (interleave srv st x).world.store id d := by
  rcases h.mirror_next x id with hsame | ⟨i,a,m,-,hsets,hlog,hid,hput⟩
  · obtain ⟨m,hm,hrest⟩:=hd
    exact ⟨m,hsame.trans hm,hrest⟩
  obtain ⟨m',hm',hstatus⟩:=pastDue_iff.mp hdue
  have heq : m=m' := Option.some.inj (hput.symm.trans hm')
  rw [← heq] at hstatus
  refine ⟨m,hput,hstatus,?_⟩
  exact (h.ledger.inv.written hlog hsets).2.1 hstatus d (hid.symm ▸ hd)

theorem Serial.dueBy_entered (h : Serial srv st) (hnot : pastDue st.world.store id=false)
    (hdue : pastDue (interleave srv st x).world.store id=true) :
    ∃ i a t,x = .call i a ∧ t∈readings (Pool.logOf i st.history) ∧
      DueBy (interleave srv st x).world.store id (t+srv.proc.grace) := by
  obtain ⟨m',hm',hstatus⟩:=pastDue_iff.mp hdue
  rcases h.mirror_next x id with hsame | ⟨i,a,m,hx,hsets,hlog,hid,hput⟩
  · rw [hsame] at hm'
    rw [pastDue_iff.mpr ⟨m',hm',hstatus⟩] at hnot
    cases hnot
  have heq : m=m' := Option.some.inj (hput.symm.trans hm')
  rw [← heq] at hstatus
  obtain ⟨t,ht,hnew⟩ := (h.ledger.inv.written hlog hsets).2.2 hstatus (hid.symm ▸ hnot)
  exact ⟨i,a,t,hx,ht,m,hput,hstatus,hnew⟩

theorem serial_run (h : Serial srv st) {steps : List Auth.Step}
    (hturn : Machine.Guarded (interleave srv) (fun st x => oneByOne st x=true) st steps)
    (hdated : Machine.Guarded (interleave srv) (fun st x => endsDated srv st x=true) st steps)
    (hread : Machine.Guarded (interleave srv) (fun st x => readable st x=true) st steps) :
    Serial srv (Machine.run (interleave srv) st steps) := by
  have hg:=Machine.guarded_and _ _ _ _ _ (Machine.guarded_and _ _ _ _ _ hturn hdated) hread
  refine Machine.guarded_invariant (interleave srv) _ (Serial srv) ?_ st steps h hg
  intro st x hst hx
  exact hst.next hx.1.1 hx.1.2 hx.2

theorem Serial.dueBy_run (h : Serial srv st) {steps : List Auth.Step}
    (hturn : Machine.Guarded (interleave srv) (fun st x => oneByOne st x=true) st steps)
    (hdated : Machine.Guarded (interleave srv) (fun st x => endsDated srv st x=true) st steps)
    (hread : Machine.Guarded (interleave srv) (fun st x => readable st x=true) st steps)
    (hdue : ∀ k ≤ steps.length,
      pastDue (Machine.run (interleave srv) st (steps.take k)).world.store id=true)
    {d : Time} (hd : DueBy st.world.store id d) :
    DueBy (Machine.run (interleave srv) st steps).world.store id d := by
  induction steps generalizing st with
  | nil => exact hd
  | cons x steps ih =>
    have hfirst : pastDue (interleave srv st x).world.store id=true := hdue 1 (by simp)
    have hnext:=h.next hturn.1 hdated.1 hread.1
    apply ih hnext hturn.2 hdated.2 hread.2
    · intro k hk
      exact hdue (k+1) (by simpa using hk)
    · exact h.dueBy_next hd hfirst

end Runs

/-- One request at a time, and no failed read of a mirror that is past due: in every state
a mirror is past due exactly if it has a deadline. A mirror that becomes past due gets the
deadline one grace period after the clock reading of that moment, and as long as it stays
past due the deadline stays; licenses are honoured up to it. -/
theorem grace_deadline_kept (srv : Service) (w : World) (hempty : w.store={})
    (steps : List Auth.Step)
    (hturn : Machine.Guarded (interleave srv) (fun st x => oneByOne st x = true) (Pool.start w) steps)
    (hdated : Machine.Guarded (interleave srv) (fun st x => endsDated srv st x = true) (Pool.start w)
      steps)
    (hread : Machine.Guarded (interleave srv) (fun st x => readable st x = true) (Pool.start w)
      steps) :
    (∀ id m, (Machine.run (interleave srv) (Pool.start w) steps).world.store.subscriptions.get id =
      some m → (m.status=.pastDue ↔ m.graceUntil≠0)) ∧
    ∀ before x stretch id, steps = before ++ x :: stretch →
      pastDue (Machine.run (interleave srv) (Pool.start w) before).world.store id = false →
      (∀ k ≤ stretch.length, pastDue (Machine.run (interleave srv)
        (interleave srv (Machine.run (interleave srv) (Pool.start w) before) x)
        (stretch.take k)).world.store id = true) →
      ∃ i a t m, x = .call i a ∧
        t ∈ readings (Pool.logOf i (Machine.run (interleave srv) (Pool.start w) before).history) ∧
        (Machine.run (interleave srv) (Pool.start w) steps).world.store.subscriptions.get id =
          some m ∧
        m.graceUntil = t + srv.proc.grace ∧
        ∀ now, License.issuable (License.evaluate m now) = true ↔ now < t + srv.proc.grace := by
  have hstart : Serial srv (Pool.start w) := serial_start w hempty
  have hend := serial_run hstart hturn hdated hread
  refine ⟨hend.ledger.inv.deadline,?_⟩
  intro before x stretch id hsteps hnot hdue
  rw [hsteps,Machine.guarded_append] at hturn hdated hread
  have hbefore := serial_run hstart hturn.1 hdated.1 hread.1
  have hentry := hbefore.next hturn.2.1 hdated.2.1 hread.2.1
  obtain ⟨i,a,t,hx,ht,hd⟩ := hbefore.dueBy_entered hnot (hdue 0 (Nat.zero_le _))
  obtain ⟨m,hm,hstatus,hdeadline⟩ :=
    hentry.dueBy_run hturn.2.2 hdated.2.2 hread.2.2 hdue hd
  rw [← Machine.run_cons,← Machine.run_append,← hsteps] at hm
  have hset := (hend.ledger.inv.deadline id m hm).mp hstatus
  refine ⟨i,a,t,m,hx,ht,hm,hdeadline,?_⟩
  intro now
  rw [← hdeadline]
  constructor
  · intro hissuable
    by_contra hlate
    rw [License.not_issuable_of_past_deadline m now hstatus hset (Int.not_lt.mp hlate)] at hissuable
    cases hissuable
  · intro hlt
    simp [License.evaluate,hstatus,hlt,License.issuable]

/-! The subscription is bought past due, and later an event about it arrives, for which the
read of the mirror fails or not. -/

def overdueSubscription : Stripe.Subscription := { sampleSubscription with status := .pastDue }

def overdueSteps : List Auth.Step :=
  [.start (.webhook (some ⟨"evt_1",.customerSubscriptionCreated (some overdueSubscription)⟩) true)]
    ++ calls 30 0 "a"

def laterSteps (fault : Bool) : List Auth.Step :=
  [.start (.webhook (some ⟨"evt_2",.customerSubscriptionUpdated (some overdueSubscription)⟩) true)]
    ++ calls 4 1 "b" ++ [.call 1 { fault }] ++ calls 30 1 "b"

theorem grace_deadline_kept_overdue :
    ∃ t m, (Machine.run (interleave sampleService) (Pool.start {})
        (overdueSteps ++ laterSteps false)).world.store.subscriptions.get "sub_1" = some m ∧
      m.graceUntil = t + 100 ∧
      ∀ now, License.issuable (License.evaluate m now) = true ↔ now < t + 100 := by
  obtain ⟨i,a,t,m,-,-,hm,hdeadline,hissuable⟩ :=
    (grace_deadline_kept sampleService {} rfl (overdueSteps ++ laterSteps false)
      (by decide +kernel) (by decide +kernel) (by decide +kernel)).2
      (overdueSteps.take 9) (.call 0 { elapsed := 1, fresh := "a" })
      (overdueSteps.drop 10 ++ laterSteps false) "sub_1" rfl (by decide +kernel)
      (by decide +kernel)
  exact ⟨t,m,hm,hdeadline,hissuable⟩

def mirrored (st : Requests) : Option (SubStatus × Time) :=
  (st.world.store.subscriptions.get "sub_1").map fun m => (m.status,m.graceUntil)

/- The read fails: the mirror stays past due, and gets a second deadline. -/
theorem failed_read_renews_deadline :
    Machine.Guarded (interleave sampleService) (fun st x => oneByOne st x = true) (Pool.start {})
      (overdueSteps ++ laterSteps true) ∧
    Machine.Guarded (interleave sampleService) (fun st x => endsDated sampleService st x = true)
      (Pool.start {}) (overdueSteps ++ laterSteps true) ∧
    mirrored (Machine.run (interleave sampleService) (Pool.start {}) overdueSteps) =
      some (.pastDue,103) ∧
    (∀ k ≤ (laterSteps true).length, pastDue (Machine.run (interleave sampleService)
      (Machine.run (interleave sampleService) (Pool.start {}) overdueSteps)
      ((laterSteps true).take k)).world.store "sub_1" = true) ∧
    mirrored (Machine.run (interleave sampleService) (Pool.start {})
      (overdueSteps ++ laterSteps true)) = some (.pastDue,107) := by
  decide +kernel

end SecureGateway.Billing
