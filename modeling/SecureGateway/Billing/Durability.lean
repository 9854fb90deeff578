import SecureGateway.Auth.Interleaving

/-!
# What becomes of a recorded event

`handleWebhook` records an event, dispatches it and writes its status, each a call of its own.
A process that stops in between, or whose write of the status fails, leaves the event
`pending`, which nothing picks up. As long as this does not happen (`sheltered`), every
recorded event is applied, waits for a retry, or was dead-lettered.
-/

namespace SecureGateway.Billing
open Authstore Auth Prog

def inserted : Auth.Event → Option String
  | ⟨.store (.insertWebhookEventIfAbsent e),.ok true⟩ => some e.id
  | _ => none

def applied : Auth.Event → Option String
  | ⟨.dispatched id true,_⟩ => some id
  | _ => none

def refused : Auth.Event → Option String
  | ⟨.dispatched id false,_⟩ => some id
  | _ => none

def requeues : Op → Option String
  | .store (.setWebhookStatus id .failed _ _) => some id
  | _ => none

def requeued : Auth.Event → Option String
  | ⟨.store (.setWebhookStatus id .failed _ _),.ok _⟩ => some id
  | _ => none

/-- The event the request recorded, if any, was applied or queued for a retry. -/
def concluded (log : List Auth.Event) : Bool :=
  log.all fun x => (inserted x).all fun id =>
    log.any fun y => applied y == some id || requeued y == some id

/-- The event is applied, will be picked by the retry worker, was dead-lettered
after a failed dispatch, or is accepted when it is delivered again. -/
def secured (st : Requests) (id : String) : Bool :=
  (st.history.any fun x => applied x.2 == some id) ||
    match st.world.store.webhookEvents.get id with
    | none => true
    | some e =>
      e.status == .failed || (e.status == .dead && st.history.any fun x => refused x.2 == some id)

/-- No request stops, and no write of the status `failed` fails, before the event
the request recorded is applied or queued. -/
def sheltered (st : Requests) : Auth.Step → Bool
  | .start _ => true
  | .call i a => (st.threads[i]?).all fun t =>
    concluded t.log || (t.next?.bind requeues).isNone || !a.fault
  | .crash i => (st.threads[i]?).all fun t => concluded t.log

def ofWebhooks : Auth.Step → Bool
  | .start (.webhook _ _) | .start (.retryFailed _) => true
  | .start _ => false
  | _ => true

/-! ## What the programs do with recorded events -/

def Unreadable (log : List Auth.Event) (id : String) : Prop :=
  ∃ status limit events e, Saw log (.listWebhookEventsByStatus status limit) (.ok events) ∧
    e ∈ events ∧ e.id=id ∧ e.payload=none

def Durable (log : List Auth.Event) : Op → Prop
  | .store (.insertWebhookEventIfAbsent e) =>
    e.status = .pending ∧ e.payload.isSome=true ∧ ∀ x ∈ log, x.1=.now
  | .store (.setWebhookStatus _ .pending _ _) => False
  | .store (.setWebhookStatus id .processed _ _) => ∃ x ∈ log, applied x = some id
  | .store (.setWebhookStatus id .dead _ _) =>
    (∃ x ∈ log, refused x = some id) ∨ Unreadable log id
  | _ => True

/- The recorded event was applied, or at least a write of `failed` was tried. -/
def Concludes (log : List Auth.Event) : Prop :=
  ∀ x ∈ log, ∀ id, inserted x = some id →
    (∃ y ∈ log, applied y = some id) ∨ ∃ y ∈ log, requeues y.1 = some id

def OnlyInserts (k : String → Prop) (log : List Auth.Event) : Prop :=
  ∀ x ∈ log, ∀ id, inserted x = some id → k id

variable {k : String → Prop} {log : List Auth.Event}

theorem OnlyInserts.cons {x : Auth.Event} (h : OnlyInserts k log)
    (hx : ∀ id,inserted x=some id → k id) : OnlyInserts k (x::log) := by
  intro y hy id hid
  rcases List.mem_cons.1 hy with rfl | hy
  · exact hx id hid
  · exact h y hy id hid

theorem OnlyInserts.other {x : Auth.Event} (h : OnlyInserts k log) (hx : inserted x=none) :
    OnlyInserts k (x::log) := h.cons fun id hid => by simp [hx] at hid

variable {id : String}

theorem insert_of_inserted {op : Op} {r : op.Rep} (h : inserted ⟨op,r⟩=some id) :
    ∃ e,op = .store (.insertWebhookEventIfAbsent e) ∧ e.id=id := by
  unfold inserted at h
  split at h
  · next e heq =>
    obtain ⟨rfl,-⟩:=Sigma.mk.inj heq
    exact ⟨e,rfl,Option.some.inj h⟩
  · cases h

theorem durable_of_acts {c : Cause} {op : Op} (h : Acts c log op) : Durable log op := by
  cases op with
  | store sop =>
    cases sop with
    | insertWebhookEventIfAbsent | setWebhookStatus => exact absurd h id
    | _ => trivial
  | _ => trivial

variable (p : Processor)

theorem dispatch_durable (ev : Stripe.Event) (hk : OnlyInserts k log) :
    Obeys Durable (fun _ l => OnlyInserts k l) log (dispatch p ev) := by
  have hstep (l : List Auth.Event) (op : Op) (r : op.Rep) (hl : OnlyInserts k l)
      (hop : Acts (.of ev) l op) : OnlyInserts k (⟨op,r⟩::l) := by
    refine hl.cons fun id hid => ?_
    obtain ⟨e,rfl,-⟩:=insert_of_inserted hid
    exact absurd hop fun h => h
  have hacts:=obeys_log hstep (dispatch_acts p ev) hk
  exact obeys_weaken (obeys_mono hacts fun _ _ h => h.2) fun _ _ _ => durable_of_acts

theorem process_durable (ev : Stripe.Event) (hk : OnlyInserts (· = ev.id) log) :
    Obeys Durable (fun _ l => Concludes l) log (process p ev) := by
  refine obeys_seq (dispatch_durable p ev hk) fun r l hl _ => ?_
  rcases r with e | u
  · refine obeys_step trivial fun _ => obeys_step trivial fun r => obeys_pure fun x hx id hid => ?_
    obtain rfl : id=ev.id := ((hl.other rfl).other rfl) x hx id hid
    exact .inr ⟨_,List.mem_cons_self,rfl⟩
  refine obeys_step trivial fun _ => obeys_step trivial fun t => obeys_step ?_ fun r => ?_
  · exact ⟨_,List.mem_cons_of_mem _ List.mem_cons_self,rfl⟩
  have hdone (r : (Op.store (.setWebhookStatus ev.id .processed 0 t)).Rep) :
      Concludes (⟨_,r⟩::⟨.now,t⟩::⟨.dispatched ev.id true,()⟩::l) := by
    intro x hx id hid
    obtain rfl : id=ev.id := (((hl.other rfl).other rfl).other rfl) x hx id hid
    exact .inl ⟨⟨.dispatched ev.id true,()⟩,by simp,rfl⟩
  rcases r with e | u <;> exact obeys_pure (hdone _)

theorem concludes_of_none (h : OnlyInserts (fun _ => False) log) : Concludes log :=
  fun x hx id hid => absurd (h x hx id hid) fun h => h

theorem onlyInserts_nil : OnlyInserts k [] := fun _ hx => by cases hx

theorem handleWebhook_durable (s : Service) (payload : Option Stripe.Event) (signed : Bool) :
    Obeys Durable (fun _ l => Concludes l) [] (handleWebhook s payload signed) := by
  have hnil : Concludes [] := concludes_of_none onlyInserts_nil
  refine obeys_ite (fun _ => obeys_pure hnil) fun _ => ?_
  rcases hv : verify payload signed with _ | ev
  · exact obeys_pure hnil
  have hpayload : payload=some ev := verify_eq_some hv
  have hrecord : Obeys Durable (fun res l => OnlyInserts (· = ev.id) l ∧
      (res ≠ .ok true → Concludes l)) [] (record ev payload) := by
    refine obeys_step trivial fun t => ⟨⟨rfl,by simp [hpayload],by simp⟩,fun r => ?_⟩
    refine ⟨(onlyInserts_nil.other rfl).cons fun id hid => ?_,fun hr => ?_⟩
    · obtain ⟨e,he,rfl⟩:=insert_of_inserted hid
      cases he
      rfl
    refine concludes_of_none ((onlyInserts_nil.other rfl).other ?_)
    rcases r with e | _ | _
    · rfl
    · rfl
    · exact absurd rfl hr
  refine obeys_seq hrecord fun r l hl _ => ?_
  rcases r with e | _ | _
  · exact obeys_pure (hl.2 (by simp))
  · exact obeys_pure (hl.2 (by simp))
  refine obeys_seq (process_durable s.proc ev hl.1) fun r l hl _ => ?_
  rcases r with e | u <;> exact obeys_pure hl

theorem retryEvent_durable (e : WebhookEvent) (he : e.payload=none → Unreadable log e.id)
    (hk : OnlyInserts k log) : Obeys Durable (fun _ l => OnlyInserts k l) log (retryEvent p e) := by
  unfold retryEvent
  split
  · next hnone =>
    refine obeys_step trivial fun t => obeys_step (.inr ?_) fun r =>
      obeys_pure ((hk.other rfl).other rfl)
    obtain ⟨status,limit,events,e',hsaw,he'⟩:=he hnone
    exact ⟨status,limit,events,e',hsaw.tail,he'⟩
  refine obeys_seq (dispatch_durable p _ hk) fun r l hl _ => ?_
  rcases r with e | u
  · refine obeys_step trivial fun _ => obeys_step ?_ fun r => obeys_pure ((hl.other rfl).other ?_)
    · split
      · exact .inl ⟨_,List.mem_cons_self,rfl⟩
      · trivial
    · rfl
  · refine obeys_step trivial fun _ => obeys_step trivial fun t => obeys_step ?_ fun r =>
      obeys_pure (((hl.other rfl).other rfl).other rfl)
    exact ⟨_,List.mem_cons_of_mem _ List.mem_cons_self,rfl⟩

theorem retryEvents_durable (events : List WebhookEvent)
    (he : ∀ e∈events,e.payload=none → Unreadable log e.id) (hk : OnlyInserts k log) :
    Obeys Durable (fun _ l => OnlyInserts k l) log (retryEvents p events) := by
  induction events generalizing log with
  | nil => exact obeys_pure hk
  | cons e events ih =>
    refine obeys_seq (retryEvent_durable p e (he e List.mem_cons_self) hk) fun one l hl hgrow => ?_
    refine obeys_seq (ih (fun e' he' hnone => ?_) hl) fun rest l hl _ => obeys_pure hl
    obtain ⟨status,limit,events,e'',hsaw,h⟩:=he e' (List.mem_cons_of_mem _ he') hnone
    exact ⟨status,limit,events,e'',hsaw.mono hgrow,h⟩

theorem retryFailed_durable (limit : ℕ) :
    Obeys Durable (fun _ l => Concludes l) [] (retryFailed p limit) := by
  refine obeys_step trivial fun r => ?_
  rcases r with e | events
  · exact obeys_pure (concludes_of_none (onlyInserts_nil.other rfl))
  refine obeys_seq (retryEvents_durable p events (fun e he hnone => ?_)
    (onlyInserts_nil.other rfl)) fun counts l hl _ => obeys_pure (concludes_of_none hl)
  exact ⟨_,_,events,e,saw_head _ _ _,he,rfl,hnone⟩

theorem handle_durable (s : Service) (r : Request) (hr : ofWebhooks (.start r)=true) :
    Obeys Durable (fun _ l => Concludes l) [] (handle s r) := by
  cases r with
  | webhook payload signed =>
    exact obeys_seq (handleWebhook_durable s payload signed) fun _ _ hl _ => obeys_pure hl
  | retryFailed limit =>
    exact obeys_seq (retryFailed_durable s.proc limit) fun _ _ hl _ => obeys_pure hl
  | _ => cases hr

/-- What a call does to the recorded events. -/
inductive Records (s : Store) : Auth.Event → Table WebhookEvent WebhookEvent.id → Prop
  | insert (e : WebhookEvent) (hnew : s.webhookEvents.get e.id = none) :
      Records s ⟨.store (.insertWebhookEventIfAbsent e),.ok true⟩ (s.webhookEvents.put e)
  | status (id : String) (status : WebhookStatus) (attempts : ℤ) (processedAt : Time)
      (e : WebhookEvent) (hold : s.webhookEvents.get id = some e) :
      Records s ⟨.store (.setWebhookStatus id status attempts processedAt),.ok ()⟩
        (s.webhookEvents.put (e.withStatus status attempts processedAt))
  | same (x : Auth.Event) (hins : inserted x = none) (hre : requeued x = none) :
      Records s x s.webhookEvents

theorem webhookEvents_exec (s : Store) (m : Moment) (op : StoreOp)
    (hins : ∀ e,op ≠ .insertWebhookEventIfAbsent e)
    (hset : ∀ id status attempts processedAt,
      op ≠ .setWebhookStatus id status attempts processedAt) :
    (s.exec m op).2.webhookEvents=s.webhookEvents := by
  have hw:=s.exec_writes m op
  generalize (s.exec m op).2=s' at hw
  cases hw with
  | webhook e => exact absurd rfl (hins e)
  | webhookStatus id status attempts processedAt => exact absurd rfl (hset _ _ _ _)
  | _ => rfl

theorem perform_records (a : Answer) (op : Op) (w : World) :
    Records w.store ⟨op,(perform a op w).1⟩ (perform a op w).2.store.webhookEvents := by
  cases op with
  | store sop =>
    cases hf : a.fault with
    | true =>
      simp only [Auth.perform,hf,if_true]
      cases sop with
      | setWebhookStatus id status => exact .same _ rfl (by cases status <;> rfl)
      | _ => exact .same _ rfl rfl
    | false =>
      simp only [Auth.perform,hf,Bool.false_eq_true,if_false]
      cases sop with
      | insertWebhookEventIfAbsent e =>
        simp only [Store.exec,Store.insertWebhookEventIfAbsent]
        cases hget : w.store.webhookEvents.get e.id with
        | none => exact .insert e hget
        | some e' => exact .same _ rfl rfl
      | setWebhookStatus id status attempts processedAt =>
        simp only [Store.exec,Store.setWebhookStatus]
        cases hget : w.store.webhookEvents.get id with
        | none => exact .same _ rfl (by cases status <;> rfl)
        | some e => exact .status id status attempts processedAt e hget
      | _ =>
        rw [webhookEvents_exec _ _ _ (by simp) (by simp)]
        exact .same _ rfl rfl
  | _ => exact .same _ rfl rfl

theorem requeued_perform {a : Answer} {op : Op} {w : World} (hop : requeues op=some id)
    (hf : a.fault=false) (hrow : (w.store.webhookEvents.get id).isSome=true) :
    requeued ⟨op,(perform a op w).1⟩=some id := by
  unfold requeues at hop
  split at hop
  · next id' attempts processedAt =>
    cases hop
    obtain ⟨e,he⟩:=Option.isSome_iff_exists.1 hrow
    simp [Auth.perform,hf,Store.exec,Store.setWebhookStatus,he,requeued]
  · cases hop

/-- What the history says of a recorded event. -/
structure Kept (history : List (ℕ × Auth.Event)) (e : WebhookEvent) : Prop where
  payload : e.payload.isSome=true
  processed : e.status=.processed → ∃ x ∈ history, applied x.2 = some e.id
  dead : e.status=.dead → ∃ x ∈ history, refused x.2 = some e.id
  pending : e.status=.pending → ∀ x ∈ history, requeued x.2 ≠ some e.id

theorem Kept.cons {history : List (ℕ × Auth.Event)} {e : WebhookEvent} (h : Kept history e)
    (x : ℕ × Auth.Event) (hx : requeued x.2≠some e.id) : Kept (x::history) e where
  payload := h.payload
  processed hs := by
    obtain ⟨y,hy,hid⟩:=h.processed hs
    exact ⟨y,List.mem_cons_of_mem _ hy,hid⟩
  dead hs := by
    obtain ⟨y,hy,hid⟩:=h.dead hs
    exact ⟨y,List.mem_cons_of_mem _ hy,hid⟩
  pending hs y hy := by
    rcases List.mem_cons.1 hy with rfl | hy
    · exact hx
    · exact h.pending hs y hy

def Done (log : List Auth.Event) (id : String) : Prop :=
  ∃ y ∈ log, applied y = some id ∨ requeued y = some id

theorem Done.tail {x : Auth.Event} (h : Done log id) : Done (x::log) id := by
  obtain ⟨y,hy,hid⟩:=h
  exact ⟨y,List.mem_cons_of_mem _ hy,hid⟩

theorem done_of_concluded (h : concluded log=true) {x : Auth.Event} (hx : x∈log)
    (hid : inserted x=some id) : Done log id := by
  have hall:=List.all_eq_true.1 h x hx
  simpa [hid,Done] using hall

/-- What holds of every request. -/
structure Steady (t : Thread Op Op.Rep) : Prop where
  readable : ∀ id, ¬ Unreadable t.log id
  /- a request that tried to queue its event has done so -/
  tried : ∀ x ∈ t.log, ∀ id, inserted x = some id → ∀ y ∈ t.log, requeues y.1 = some id →
    Done t.log id
  stopped : t.rest=none → ∀ x ∈ t.log, ∀ id, inserted x = some id → Done t.log id

structure Durables (st : Requests) : Prop where
  disciplined : Pool.Disciplined Durable Concludes st
  logged : Pool.Logged st
  attributed : Pool.Attributed st
  kept : ∀ id e, st.world.store.webhookEvents.get id = some e → Kept st.history e
  present : ∀ x ∈ st.history, ∀ id, inserted x.2 = some id ∨ requeued x.2 = some id →
    (st.world.store.webhookEvents.get id).isSome = true
  steady : ∀ (i : ℕ) (t : Thread Op Op.Rep), st.threads[i]? = some t → Steady t

theorem durables_start (w : World) (hw : w.store={}) : Durables (Pool.start w) where
  disciplined := Pool.disciplined_start _ _ w
  logged := Pool.logged_start w
  attributed := Pool.attributed_start w
  kept := by simp [Pool.start,hw]
  present := by simp [Pool.start]
  steady := by simp [Pool.start]

section Called
variable {st : Requests} {i : ℕ} {op : Op} {f : op.Rep → Handler Unit}

theorem Durables.kept_status (h : Durables st) {status : WebhookStatus} {attempts : ℤ}
    {processedAt : Time} {e : WebhookEvent}
    {f : (Op.store (.setWebhookStatus id status attempts processedAt)).Rep → Handler Unit}
    (hi : st.threads[i]? =
      some ⟨log,some (.call (.store (.setWebhookStatus id status attempts processedAt)) f)⟩)
    (hold : st.world.store.webhookEvents.get id=some e) (x : ℕ × Auth.Event) :
    Kept (x::st.history) (e.withStatus status attempts processedAt) := by
  have hok : Durable log (.store (.setWebhookStatus id status attempts processedAt)) :=
    h.disciplined.permits hi
  have hkey : e.id=id := Table.key_of_get hold
  have hlog {y : Auth.Event} (hy : y∈log) : (i,y)∈x::st.history :=
    List.mem_cons_of_mem _ (h.logged i _ y hi hy)
  refine ⟨(h.kept id e hold).payload,fun hs => ?_,fun hs => ?_,fun hs => ?_⟩
  · obtain rfl : status=.processed := hs
    obtain ⟨y,hy,hid⟩:=hok
    exact ⟨_,hlog hy,hid.trans (congrArg some hkey.symm)⟩
  · obtain rfl : status=.dead := hs
    rcases hok with ⟨y,hy,hid⟩ | hunreadable
    · exact ⟨_,hlog hy,hid.trans (congrArg some hkey.symm)⟩
    · exact absurd hunreadable ((h.steady i _ hi).readable id)
  · obtain rfl : status=.pending := hs
    exact absurd hok fun h => h

theorem Durables.kept_called (h : Durables st) (a : Answer)
    (hi : st.threads[i]? = some ⟨log,some (.call op f)⟩) (id : String) (e : WebhookEvent)
    (he : (perform a op st.world).2.store.webhookEvents.get id=some e) :
    Kept ((i,⟨op,(perform a op st.world).1⟩)::st.history) e := by
  have hok : Durable log op := h.disciplined.permits hi
  have hr:=perform_records a op st.world
  generalize (perform a op st.world).2.store.webhookEvents=t at hr he
  generalize hx : (⟨op,(perform a op st.world).1⟩ : Auth.Event)=x at hr
  cases hr with
  | same _ hins hre => exact (h.kept id e he).cons _ (by simp [hre])
  | insert e' hnew =>
    obtain ⟨rfl,-⟩:=Sigma.mk.inj hx
    rw [Table.get_put] at he
    split at he
    · cases he
      refine ⟨hok.2.1,by simp [hok.1],by simp [hok.1],fun _ y hy => ?_⟩
      rcases List.mem_cons.1 hy with rfl | hy
      · simp [requeued]
      · intro hre
        simpa [hnew] using h.present y hy e.id (.inr hre)
    · exact (h.kept id e he).cons _ (by simp [requeued])
  | status id' status attempts processedAt e' hold =>
    obtain ⟨rfl,-⟩:=Sigma.mk.inj hx
    rw [Table.get_put] at he
    split at he
    · cases he
      exact h.kept_status hi hold _
    next hne =>
    refine (h.kept id e he).cons _ fun hre => hne ?_
    rw [← Table.key_of_get he]
    cases status with
    | failed => exact (Table.key_of_get hold).trans (Option.some.inj hre)
    | _ => cases hre

theorem Durables.present_called (h : Durables st) (a : Answer) (x : ℕ × Auth.Event)
    (hx : x∈(i,⟨op,(perform a op st.world).1⟩)::st.history) (id : String)
    (hid : inserted x.2=some id ∨ requeued x.2=some id) :
    ((perform a op st.world).2.store.webhookEvents.get id).isSome=true := by
  have hr:=perform_records a op st.world
  generalize (perform a op st.world).2.store.webhookEvents=t at hr
  generalize (⟨op,(perform a op st.world).1⟩ : Auth.Event)=y at hr hx
  have hput (e : WebhookEvent) (hold : e.id=id ∨
      (st.world.store.webhookEvents.get id).isSome=true) :
      ((st.world.store.webhookEvents.put e).get id).isSome=true := by
    rw [Table.get_put]
    split
    · rfl
    · next hne => exact hold.resolve_left hne
  rcases List.mem_cons.1 hx with rfl | hx
  · cases hr with
    | same _ hins hre => simp [hins,hre] at hid
    | insert e hnew => exact hput e (.inl (by simpa [inserted,requeued] using hid))
    | status id' status attempts processedAt e hold =>
      refine hput _ (.inl ((Table.key_of_get hold).trans ?_))
      cases status with
      | failed => simpa [inserted,requeued] using hid
      | _ => simp [inserted,requeued] at hid
  · have hold:=h.present x hx id hid
    cases hr with
    | same => exact hold
    | insert e hnew => exact hput e (.inr hold)
    | status id' status attempts processedAt e => exact hput _ (.inr hold)

theorem Durables.steady_called (h : Durables st) (a : Answer)
    (hi : st.threads[i]? = some ⟨log,some (.call op f)⟩) (hguard : sheltered st (.call i a)=true) :
    Steady ⟨⟨op,(perform a op st.world).1⟩::log,some (f (perform a op st.world).1)⟩ := by
  have hok : Durable log op := h.disciplined.permits hi
  have hst:=h.steady i _ hi
  refine ⟨fun id => ?_,fun x hx id hins y hy hre => ?_,fun hnone => by cases hnone⟩
  · rintro ⟨status,limit,events,e,hsaw,he,hid,hpayload⟩
    rcases saw_perform hsaw with ⟨-,hexec⟩ | hold
    · cases hexec
      have hrow:=(h.kept _ e ((Store.mem_listWebhookEvents he).1)).payload
      simp [hpayload] at hrow
    · exact hst.readable id ⟨status,limit,events,e,hold,he,hid,hpayload⟩
  rcases List.mem_cons.1 hx with rfl | hx
  · obtain ⟨e,rfl,-⟩:=insert_of_inserted hins
    -- an insertion comes before anything but a look at the clock
    rcases List.mem_cons.1 hy with rfl | hy
    · cases hre
    · rw [hok.2.2 y hy] at hre
      cases hre
  · rcases List.mem_cons.1 hy with rfl | hy
    · simp only [sheltered,hi,Option.all_some,Thread.next?,Option.bind_some,hre,
        Option.isNone_some,Bool.or_false,Bool.or_eq_true,Bool.not_eq_true'] at hguard
      rcases hguard with hdone | hfault
      · exact (done_of_concluded hdone hx hins).tail
      · have hrow:=h.present _ (h.logged i _ x hi hx) id (.inl hins)
        exact ⟨_,List.mem_cons_self,.inr (requeued_perform hre hfault hrow)⟩
    · exact (hst.tried x hx id hins y hy hre).tail

end Called

theorem steady_spawned (p : Handler Unit) : Steady ⟨[],some p⟩ where
  readable := by
    rintro id ⟨status,limit,events,e,hsaw,-⟩
    cases hsaw
  tried _ hx := by cases hx
  stopped hnone := by cases hnone

theorem Durables.interleave {srv : Service} {st : Requests} (h : Durables st) (x : Auth.Step)
    (hx : ofWebhooks x=true) (hguard : sheltered st x=true) : Durables (interleave srv st x) := by
  have hd : Pool.Disciplined Durable Concludes (Auth.interleave srv st x) := by
    refine disciplined_interleave st x h.disciplined fun r hr => ?_
    subst hr
    exact handle_durable srv r hx
  have hl : Pool.Logged (Auth.interleave srv st x) := Pool.logged_next perform st _ h.logged
  have ha : Pool.Attributed (Auth.interleave srv st x) :=
    Pool.attributed_next perform st _ h.attributed
  have hm : Pool.Moves perform st (x.pool srv) (Auth.interleave srv st x) :=
    Pool.next_moves perform st _
  generalize Auth.interleave srv st x=st' at hd hl ha hm
  cases x with
  | start r =>
    cases hm with
    | spawned p =>
      refine ⟨hd,hl,ha,h.kept,h.present,fun i t ht => ?_⟩
      rcases Pool.of_mem_append ht with ⟨-,rfl⟩ | hold
      · exact steady_spawned _
      · exact h.steady i t hold
    | stays => exact h
  | call i a =>
    cases hm with
    | called _ _ log op f hi =>
      refine ⟨hd,hl,ha,h.kept_called a hi,h.present_called a,fun j t ht => ?_⟩
      rcases Pool.of_mem_set ht with ⟨-,rfl⟩ | ⟨-,hold⟩
      · exact h.steady_called a hi hguard
      · exact h.steady j t hold
    | stays => exact h
  | crash i =>
    cases hm with
    | killed _ t hi =>
      refine ⟨hd,hl,ha,h.kept,h.present,fun j t' ht => ?_⟩
      rcases Pool.of_mem_set ht with ⟨-,rfl⟩ | ⟨-,hold⟩
      · have hst:=h.steady i t hi
        refine ⟨hst.readable,hst.tried,fun _ x hx id hins => done_of_concluded ?_ hx hins⟩
        simpa [sheltered,hi] using hguard
      · exact h.steady j t' hold
    | stays => exact h

theorem Durables.done {st : Requests} (h : Durables st) (hidle : st.idle=true)
    {x : ℕ × Auth.Event} (hx : x∈st.history) (hid : inserted x.2=some id) :
    (∃ y∈st.history,applied y.2=some id) ∨ ∃ y∈st.history,requeued y.2=some id := by
  obtain ⟨t,ht,hmem⟩:=h.attributed x.1 x.2 hx
  have hst:=h.steady _ t ht
  have hfinished : t.finished=true := List.all_eq_true.1 hidle t (List.mem_of_getElem? ht)
  have hdone : Done t.log id := by
    rcases h.disciplined.finished ht hfinished with hnone | hpost
    · exact hst.stopped hnone x.2 hmem id hid
    rcases hpost x.2 hmem id hid with ⟨y,hy,happ⟩ | ⟨y,hy,hre⟩
    · exact ⟨y,hy,.inl happ⟩
    · exact hst.tried x.2 hmem id hid y hy hre
  obtain ⟨y,hy,hwhy⟩:=hdone
  have hlog:=h.logged _ t y ht hy
  exact hwhy.imp (fun happ => ⟨_,hlog,happ⟩) fun hre => ⟨_,hlog,hre⟩

theorem Durables.secured {st : Requests} (h : Durables st) (hidle : st.idle=true)
    {x : ℕ × Auth.Event} (hx : x∈st.history) (hid : inserted x.2=some id) : secured st id=true := by
  have hsecured : (∃ y∈st.history,applied y.2=some id) → Billing.secured st id=true := by
    rintro ⟨y,hy,happ⟩
    simp only [Billing.secured,Bool.or_eq_true,List.any_eq_true]
    exact .inl ⟨y,hy,by simp [happ]⟩
  rcases h.done hidle hx hid with happ | ⟨y,hy,hre⟩
  · exact hsecured happ
  obtain ⟨e,he⟩:=Option.isSome_iff_exists.1 (h.present x hx id (.inl hid))
  have hk:=h.kept id e he
  have hkey : e.id=id := Table.key_of_get he
  cases hstatus : e.status with
  | pending => exact absurd (hkey ▸ hre) (hk.pending hstatus y hy)
  | processed => exact hsecured (hkey ▸ hk.processed hstatus)
  | failed => simp [Billing.secured,he,hstatus]
  | dead =>
    obtain ⟨z,hz,hrefused⟩:=hk.dead hstatus
    have hany : st.history.any (fun x => refused x.2 == some id)=true :=
      List.any_eq_true.2 ⟨z,hz,by simp [hrefused,hkey]⟩
    simp [Billing.secured,he,hstatus,hany]

/-- Webhook requests and retry rounds, started, run and stopped in any order,
where none stops between recording its event and having it applied or queued:
in every state with none in progress, no recorded event is lost. -/
theorem recorded_events_secured (srv : Service) (w : World) (hempty : w.store={})
    (steps : List Auth.Step)
    (hsteps : Machine.Guarded (interleave srv)
      (fun st x => (ofWebhooks x && sheltered st x) = true) (Pool.start w) steps)
    (hidle : (Machine.run (interleave srv) (Pool.start w) steps).idle = true)
    (x : ℕ × Auth.Event)
    (hx : x ∈ (Machine.run (interleave srv) (Pool.start w) steps).history) (id : String)
    (hid : inserted x.2 = some id) :
    secured (Machine.run (interleave srv) (Pool.start w) steps) id = true := by
  have h : Durables (Machine.run (interleave srv) (Pool.start w) steps) := by
    refine Machine.guarded_invariant (interleave srv) _ Durables ?_ _ steps
      (durables_start w hempty) hsteps
    intro st x h hx
    rw [Bool.and_eq_true] at hx
    exact h.interleave x hx.1 hx.2
  exact h.secured hidle hx hid

/- An event whose dispatch fails: its object names no customer. -/
def sampleRefused : Request :=
  .webhook (some ⟨"evt_3",
    .customerSubscriptionUpdated (some { sampleSubscription with customer := none })⟩) true

def completeRequests : List Auth.Step :=
  [.start sampleCreated,.start sampleRefused] ++ calls 30 0 "a" ++ calls 30 1 "b"

theorem recorded_events_secured_complete :
    ((Machine.run (interleave sampleService) (Pool.start {}) completeRequests).history.filterMap
        fun x => inserted x.2) = ["evt_3","evt_1"] ∧
      ∀ x ∈ (Machine.run (interleave sampleService) (Pool.start {}) completeRequests).history,
        ∀ id, inserted x.2 = some id →
          secured (Machine.run (interleave sampleService) (Pool.start {}) completeRequests) id =
            true :=
  ⟨by decide +kernel,recorded_events_secured sampleService {} rfl completeRequests
    (by decide +kernel) (by decide +kernel)⟩

/- The request stops after it has recorded its event; Stripe delivers the event
again and a round of the retry worker follows. -/
def stoppedRequest : List Auth.Step :=
  [.start sampleCreated] ++ calls 2 0 "a" ++ [.crash 0,.start sampleCreated] ++ calls 30 1 "b" ++
    [.start (.retryFailed 0)] ++ calls 30 2 "c"

theorem stopped_request_loses_event :
    stoppedRequest.all ofWebhooks = true ∧
      (Machine.run (interleave sampleService) (Pool.start {}) stoppedRequest).idle = true ∧
      ((Machine.run (interleave sampleService) (Pool.start {}) stoppedRequest).history.filterMap
        fun x => inserted x.2) = ["evt_1"] ∧
      secured (Machine.run (interleave sampleService) (Pool.start {}) stoppedRequest) "evt_1" =
        false := by
  decide +kernel

end SecureGateway.Billing
