import SecureGateway.Billing.Durability

/-!
# Rounds of the retry worker

`RetryFailed` lists the failed events, dispatches one after the other and writes the status
without looking at the row again, so overlapping rounds dispatch an event twice. A request is
in charge of an event from the moment it records or lists it until it writes its status. As
long as a round lists only while no other is in progress, no two are in charge of one event.
-/

namespace SecureGateway.Billing
open Authstore Auth Prog

def dispatchOf : Auth.Event → Option String
  | ⟨.dispatched id _,_⟩ => some id
  | _ => none

def settles : Auth.Event → Option String
  | ⟨.store (.setWebhookStatus id _ _ _),_⟩ => some id
  | _ => none

def listedAs (id : String) : Auth.Event → Option (WebhookStatus × ℤ)
  | ⟨.store (.listWebhookEventsByStatus _ _),.ok events⟩ =>
    (events.find? (·.id == id)).map fun e => (e.status,e.attempts)
  | _ => none

def lists : Op → Bool
  | .store (.listWebhookEventsByStatus _ _) => true
  | _ => false

def dispatches (id : String) (history : List (ℕ × Auth.Event)) : ℕ :=
  history.countP fun x => dispatchOf x.2 == some id

def unsettled (id : String) : List (ℕ × Auth.Event) → Bool
  | [] => false
  | x :: older =>
    if dispatchOf x.2 = some id then true
    else if settles x.2 = some id then false
    else unsettled id older

/-- The request is in charge of the event: the status and the attempts the event had
when the request recorded or listed it. -/
def charge (id : String) : List Auth.Event → Option (WebhookStatus × ℤ)
  | [] => none
  | e :: older =>
    if settles e = some id then none
    else if inserted e = some id then some (.pending,0)
    else match listedAs id e with
      | some s => some s
      | none => charge id older

def owing : List Auth.Event → Option (String × Bool)
  | ⟨.dispatched id ok,_⟩ :: _ => some (id,ok)
  | ⟨.now,_⟩ :: older => owing older
  | _ => none

def outcome (ok : Bool) (attempts : ℤ) : WebhookStatus × ℤ :=
  if ok then (.processed,0)
  else (if maxAttempts ≤ attempts + 1 then .dead else .failed,attempts + 1)

def Distinct (log : List Auth.Event) : Prop :=
  ∀ status limit events, Saw log (.listWebhookEventsByStatus status limit) (.ok events) →
    (events.map (·.id)).Nodup

def Proper (log : List Auth.Event) : Op → Prop
  | .dispatched id _ => owing log = none ∧ ∃ s, charge id log = some s
  | .store (.setWebhookStatus id status attempts _) => ∃ s n, charge id log = some (s,n) ∧
    (owing log = none ∧ (status,attempts) = (.dead,n) ∨
      ∃ ok, owing log = some (id,ok) ∧ (status,attempts) = outcome ok n)
  | .store (.insertWebhookEventIfAbsent e) => owing log = none ∧ e.status=.pending ∧ e.attempts=0
  | .store (.listWebhookEventsByStatus status _) => log = [] ∧ status=.failed
  | .now => True
  | _ => owing log = none

abbrev Attends (log : List Auth.Event) (op : Op) : Prop := Distinct log → Proper log op

abbrev Attended (log : List Auth.Event) : Prop := Distinct log → owing log = none

variable (p : Processor)

section Programs
variable {log : List Auth.Event}

theorem Distinct.tail {x : Auth.Event} (h : Distinct (x::log)) : Distinct log :=
  fun status limit events hsaw => h status limit events (List.mem_cons_of_mem _ hsaw)

theorem owing_cons {op : Op} {r : op.Rep} (h : owing log=none)
    (hop : dispatchOf ⟨op,r⟩=none) : owing (⟨op,r⟩::log)=none := by
  cases op with
  | now => exact h
  | dispatched => cases hop
  | _ => rfl

theorem charge_cons {id : String} {x : Auth.Event} (hs : settles x≠some id)
    (hi : inserted x≠some id) (hl : listedAs id x=none) : charge id (x::log)=charge id log := by
  simp only [charge,if_neg hs,if_neg hi,hl]

theorem acts_plain {c : Cause} {op : Op} (h : Acts c log op) (r : op.Rep) :
    dispatchOf ⟨op,r⟩=none ∧ settles ⟨op,r⟩=none ∧ inserted ⟨op,r⟩=none ∧
      ∀ id,listedAs id ⟨op,r⟩=none := by
  cases op with
  | store sop =>
    cases sop with
    | insertWebhookEventIfAbsent | setWebhookStatus | listWebhookEventsByStatus => exact absurd h id
    | _ => exact ⟨rfl,rfl,rfl,fun _ => rfl⟩
  | dispatched => exact absurd h id
  | _ => exact ⟨rfl,rfl,rfl,fun _ => rfl⟩

theorem proper_of_acts {c : Cause} {op : Op} (h : Acts c log op) (howing : owing log=none) :
    Proper log op := by
  cases op with
  | store sop =>
    cases sop with
    | insertWebhookEventIfAbsent | setWebhookStatus | listWebhookEventsByStatus => exact absurd h id
    | _ => exact howing
  | now => trivial
  | dispatched => exact absurd h id
  | _ => exact howing

theorem dispatch_attends (ev : Stripe.Event) (h : owing log=none) :
    Obeys Attends (fun _ l => owing l=none ∧ ∀ id,charge id l=charge id log) log
      (dispatch p ev) := by
  have hstep (l : List Auth.Event) (op : Op) (r : op.Rep)
      (hl : owing l=none ∧ ∀ id,charge id l=charge id log) (hop : Acts (.of ev) l op) :
      owing (⟨op,r⟩::l)=none ∧ ∀ id,charge id (⟨op,r⟩::l)=charge id log := by
    obtain ⟨hd,hs,hi,hlist⟩:=acts_plain hop r
    refine ⟨owing_cons hl.1 hd,fun id => ?_⟩
    rw [charge_cons (by simp [hs]) (by simp [hi]) (hlist id)]
    exact hl.2 id
  have hguard:=obeys_guard hstep (dispatch_acts p ev) ⟨h,fun _ => rfl⟩
  exact obeys_weaken (obeys_mono hguard fun _ _ hpost => hpost.2) fun _ _ _ hop _ =>
    proper_of_acts hop.1 hop.2.1

theorem process_attends (ev : Stripe.Event) (h : owing log=none)
    (hcharge : charge ev.id log=some (.pending,0)) :
    Obeys Attends (fun _ l => Attended l) log (process p ev) := by
  refine obeys_seq (dispatch_attends p ev h) fun r l hl _ => ?_
  have hl' : charge ev.id l=some (.pending,0) := (hl.2 ev.id).trans hcharge
  have hmark (ok : Bool) : charge ev.id (⟨.dispatched ev.id ok,()⟩::l)=some (.pending,0) := by
    rw [charge_cons (by simp [settles]) (by simp [inserted]) rfl,hl']
  rcases r with e | u
  · refine obeys_step (fun _ => ⟨hl.1,_,hl'⟩) fun _ => obeys_step (fun _ => ?_) fun _ =>
      obeys_pure fun _ => rfl
    exact ⟨.pending,0,hmark false,.inr ⟨false,rfl,by decide⟩⟩
  refine obeys_step (fun _ => ⟨hl.1,_,hl'⟩) fun _ => obeys_step (fun _ => trivial) fun t =>
    obeys_step (fun _ => ?_) fun r => ?_
  · refine ⟨.pending,0,?_,.inr ⟨true,rfl,rfl⟩⟩
    rw [charge_cons (by simp [settles]) (by simp [inserted]) rfl,hmark true]
  · rcases r with e | u <;> exact obeys_pure fun _ => rfl

theorem handleWebhook_attends (s : Service) (payload : Option Stripe.Event) (signed : Bool) :
    Obeys Attends (fun _ l => Attended l) [] (handleWebhook s payload signed) := by
  refine obeys_ite (fun _ => obeys_pure fun _ => rfl) fun _ => ?_
  rcases hv : verify payload signed with _ | ev
  · exact obeys_pure fun _ => rfl
  have hrecord : Obeys Attends (fun res l => owing l=none ∧
      (res = .ok true → charge ev.id l=some (.pending,0))) [] (record ev payload) := by
    refine obeys_step (fun _ => trivial) fun t => ⟨fun _ => ⟨rfl,rfl,rfl⟩,fun r => ⟨rfl,?_⟩⟩
    rintro rfl
    simp [charge,settles,inserted]
  refine obeys_seq hrecord fun r l hl _ => ?_
  rcases r with e | _ | _
  · exact obeys_pure fun _ => hl.1
  · exact obeys_pure fun _ => hl.1
  refine obeys_seq (process_attends s.proc ev hl.1 (hl.2 rfl)) fun r l hl _ => ?_
  rcases r with e | u <;> exact obeys_pure hl

theorem retryEvent_attends (e : WebhookEvent) (h : owing log=none)
    (hcharge : charge e.id log=some (e.status,e.attempts)) :
    Obeys Attends (fun _ l => owing l=none ∧ ∀ id,id≠e.id → charge id l=charge id log) log
      (retryEvent p e) := by
  have hother {l : List Auth.Event} {status : WebhookStatus} {attempts : ℤ} {t : Time}
      (r : (Op.store (.setWebhookStatus e.id status attempts t)).Rep) (id : String)
      (hid : id≠e.id) : charge id (⟨_,r⟩::l)=charge id l :=
    charge_cons (by simpa [settles] using hid.symm) (by simp [inserted]) rfl
  unfold retryEvent
  split
  · refine obeys_step (fun _ => trivial) fun t => obeys_step (fun _ => ?_) fun r =>
      obeys_pure ⟨rfl,fun id hid => ?_⟩
    · exact ⟨e.status,e.attempts,hcharge,.inl ⟨h,rfl⟩⟩
    · rw [hother r id hid]
      rfl
  refine obeys_seq (dispatch_attends p _ h) fun r l hl _ => ?_
  have hl' : charge e.id l=some (e.status,e.attempts) := (hl.2 e.id).trans hcharge
  have hmark (ok : Bool) (id : String) : charge id (⟨.dispatched e.id ok,()⟩::l)=charge id l :=
    charge_cons (by simp [settles]) (by simp [inserted]) rfl
  rcases r with err | u
  · refine obeys_step (fun _ => ⟨hl.1,_,hl'⟩) fun _ => obeys_step (fun _ => ?_) fun r =>
      obeys_pure ⟨rfl,fun id hid => ?_⟩
    · exact ⟨e.status,e.attempts,(hmark false e.id).trans hl',.inr ⟨false,rfl,rfl⟩⟩
    · rw [hother r id hid,hmark false id,hl.2 id]
  · refine obeys_step (fun _ => ⟨hl.1,_,hl'⟩) fun _ => obeys_step (fun _ => trivial) fun t =>
      obeys_step (fun _ => ?_) fun r => obeys_pure ⟨rfl,fun id hid => ?_⟩
    · exact ⟨e.status,e.attempts,(hmark true e.id).trans hl',.inr ⟨true,rfl,rfl⟩⟩
    · rw [hother r id hid,← hl.2 id]
      exact hmark true id

theorem retryEvents_attends (events : List WebhookEvent) (hdistinct : (events.map (·.id)).Nodup)
    (h : owing log=none) (hcharge : ∀ e∈events,charge e.id log=some (e.status,e.attempts)) :
    Obeys Attends (fun _ l => Attended l) log (retryEvents p events) := by
  induction events generalizing log with
  | nil => exact obeys_pure fun _ => h
  | cons e events ih =>
    rw [List.map_cons,List.nodup_cons] at hdistinct
    refine obeys_seq (retryEvent_attends p e h (hcharge e List.mem_cons_self)) fun one l hl _ => ?_
    refine obeys_seq (ih hdistinct.2 hl.1 fun e' he' => ?_) fun rest l hl _ => obeys_pure hl
    -- the other events of the round are not touched
    have hne : e'.id≠e.id := by
      intro heq
      exact hdistinct.1 (heq ▸ List.mem_map_of_mem he')
    rw [hl.2 e'.id hne]
    exact hcharge e' (List.mem_cons_of_mem _ he')

theorem obeys_indistinct {α : Type} {p : Handler α} (h : ¬ Distinct log) :
    Obeys Attends (fun _ l => Attended l) log p := by
  induction p generalizing log with
  | ret a => exact fun hd => absurd hd h
  | call op k ih => exact ⟨fun hd => absurd hd h,fun r => ih r fun hd => h hd.tail⟩

theorem find?_of_nodup {events : List WebhookEvent} (h : (events.map (·.id)).Nodup)
    {e : WebhookEvent} (he : e∈events) : events.find? (·.id == e.id)=some e := by
  induction events with
  | nil => cases he
  | cons e' events ih =>
    rw [List.map_cons,List.nodup_cons] at h
    rcases List.mem_cons.1 he with rfl | he
    · simp
    have hne : e'.id≠e.id := by
      intro heq
      exact h.1 (heq ▸ List.mem_map_of_mem he)
    simp [hne,ih h.2 he]

theorem retryFailed_attends (limit : ℕ) :
    Obeys Attends (fun _ l => Attended l) [] (retryFailed p limit) := by
  refine obeys_step (fun _ => ⟨rfl,rfl⟩) fun r => ?_
  rcases r with e | events
  · exact obeys_pure fun _ => rfl
  by_cases hdistinct : (events.map (·.id)).Nodup
  · refine obeys_seq (retryEvents_attends p events hdistinct rfl fun e he => ?_) fun _ _ hl _ =>
      obeys_pure hl
    simp [charge,settles,inserted,listedAs,find?_of_nodup hdistinct he]
  · exact obeys_indistinct fun hd => hdistinct (hd _ _ _ (saw_head _ _ _))

theorem handle_attends (s : Service) (r : Request) (hr : ofWebhooks (.start r)=true) :
    Obeys Attends (fun _ l => Attended l) [] (handle s r) := by
  cases r with
  | webhook payload signed =>
    exact obeys_seq (handleWebhook_attends s payload signed) fun _ _ hl _ => obeys_pure hl
  | retryFailed limit =>
    exact obeys_seq (retryFailed_attends s.proc limit) fun _ _ hl _ => obeys_pure hl
  | _ => cases hr

end Programs

variable {s status : WebhookStatus}

section Call
variable {id : String} {i : ℕ} {e : Auth.Event} {history : List (ℕ × Auth.Event)}

theorem dispatches_cons (h : dispatchOf e≠some id) :
    dispatches id ((i,e)::history)=dispatches id history := by
  simp [dispatches,h]

theorem dispatches_mark (h : dispatchOf e=some id) :
    dispatches id ((i,e)::history)=dispatches id history+1 := by
  simp [dispatches,h]

theorem unsettled_cons (hd : dispatchOf e≠some id) (hs : settles e≠some id) :
    unsettled id ((i,e)::history)=unsettled id history := by
  simp only [unsettled,if_neg hd,if_neg hs]

variable {a : Answer} {op : Op} {w : World}

theorem row_other (hi : inserted ⟨op,(perform a op w).1⟩≠some id)
    (hs : settles ⟨op,(perform a op w).1⟩≠some id) :
    (perform a op w).2.store.webhookEvents.get id=w.store.webhookEvents.get id := by
  have hr:=perform_records a op w
  generalize (perform a op w).2.store.webhookEvents=t at hr ⊢
  generalize (⟨op,(perform a op w).1⟩ : Auth.Event)=x at hr hi hs
  cases hr with
  | insert e hnew => exact Table.get_put_ne _ e fun heq => hi (by rw [← heq]; rfl)
  | status id' status attempts processedAt e hold =>
    have hkey : e.id=id' := Table.key_of_get hold
    exact Table.get_put_ne _ _ fun heq => hs (by rw [← heq]; exact congrArg some hkey.symm)
  | same => rfl

theorem row_insert (hi : inserted ⟨op,(perform a op w).1⟩=some id) :
    ∃ e,op = .store (.insertWebhookEventIfAbsent e) ∧ e.id=id ∧
      w.store.webhookEvents.get id=none ∧
      (perform a op w).2.store.webhookEvents.get id=some e := by
  have hr:=perform_records a op w
  generalize (perform a op w).2.store.webhookEvents=t at hr ⊢
  generalize hx : (⟨op,(perform a op w).1⟩ : Auth.Event)=x at hr hi
  cases hr with
  | insert e hnew =>
    obtain ⟨rfl,-⟩:=Sigma.mk.inj hx
    obtain rfl : e.id=id := Option.some.inj hi
    exact ⟨e,rfl,rfl,hnew,Table.get_put_self _ e⟩
  | status => cases hi
  | same _ hins =>
    rw [hins] at hi
    cases hi

theorem row_listed {n : ℤ} (h : listedAs id ⟨op,(perform a op w).1⟩=some (s,n)) :
    ∃ limit e,op = .store (.listWebhookEventsByStatus s limit) ∧
      w.store.webhookEvents.get id=some e ∧ e.status=s ∧ e.attempts=n := by
  unfold listedAs at h
  split at h
  · next status limit events heq =>
    obtain ⟨rfl,hr⟩:=Sigma.mk.inj heq
    have hexec:=(perform_ok (eq_of_heq hr)).1
    obtain ⟨e,hfind,hs⟩:=Option.map_eq_some_iff.1 h
    obtain ⟨hstatus,hattempts⟩:=Prod.mk.inj hs
    obtain rfl : e.id=id := by simpa using List.find?_some hfind
    have hmem : e∈w.store.listWebhookEventsByStatus a.ties status limit := by
      have heq : w.store.listWebhookEventsByStatus a.ties status limit=events := Except.ok.inj hexec
      rw [heq]
      exact List.mem_of_find?_eq_some hfind
    obtain ⟨hget,hst⟩:=Store.mem_listWebhookEvents hmem
    obtain rfl : status=s := hst.symm.trans hstatus
    exact ⟨limit,e,rfl,hget,hstatus,hattempts⟩
  · cases h

theorem row_settle {attempts : ℤ} {t : Time} {row : WebhookEvent} (hf : a.fault=false)
    (hrow : w.store.webhookEvents.get id=some row) :
    (perform a (.store (.setWebhookStatus id status attempts t)) w).2.store.webhookEvents.get id =
      some (row.withStatus status attempts t) := by
  have hkey : row.id=id := Table.key_of_get hrow
  simp only [Auth.perform,hf,Bool.false_eq_true,if_false,Store.exec,Store.setWebhookStatus,
    hrow]
  rw [← hkey]
  exact Table.get_put_self _ (row.withStatus status attempts t)

end Call

theorem dispatched_of_dispatchOf {op : Op} {r : op.Rep} {id : String}
    (h : dispatchOf ⟨op,r⟩=some id) : ∃ ok,op = .dispatched id ok := by
  cases op with
  | dispatched id' ok =>
    cases h
    exact ⟨ok,rfl⟩
  | _ => cases h

theorem status_of_settles {op : Op} {r : op.Rep} {id : String} (h : settles ⟨op,r⟩=some id) :
    ∃ status attempts t,op = .store (.setWebhookStatus id status attempts t) := by
  cases op with
  | store sop =>
    cases sop with
    | setWebhookStatus id' status attempts t =>
      cases h
      exact ⟨status,attempts,t,rfl⟩
    | _ => cases h
  | _ => cases h

theorem listed_of_charge {id : String} {n : ℤ} {log : List Auth.Event}
    (h : charge id log=some (.failed,n)) : (log.any fun e => lists e.1)=true := by
  induction log with
  | nil => cases h
  | cons e log ih =>
    rw [List.any_cons,Bool.or_eq_true]
    simp only [charge] at h
    split at h
    · cases h
    split at h
    · cases h
    split at h
    · next hl =>
      left
      unfold listedAs at hl
      split at hl
      · rfl
      · cases hl
    · exact .inr (ih h)

/- A write of an event's status that may fail, or a request that stops, is excluded. -/
def dependable (st : Requests) : Auth.Step → Bool
  | .start _ => true
  | .call i a => (st.threads[i]?.bind Thread.next?).all fun op =>
    match op with
    | .store (.setWebhookStatus _ _ _ _) => !a.fault
    | _ => true
  | .crash _ => false

def inRound (t : Thread Op Op.Rep) : Bool := (t.log.any fun e => lists e.1) && !t.finished

/-- A round lists the failed events only while no other round is in progress. -/
def oneRound (st : Requests) : Auth.Step → Bool
  | .call i _ => !(st.threads[i]?.bind Thread.next?).any lists || !st.threads.any inRound
  | _ => true

def terminal : WebhookStatus → Bool
  | .processed | .dead => true
  | _ => false

/-- The attempts of an event count its dispatches, but for the last one if its status
is still to be written. -/
def Counted (count : ℕ) (opened : Bool) : Option WebhookEvent → Prop
  | none => count = 0 ∧ opened=false
  | some e =>
    if terminal e.status then opened = false ∧ (count : ℤ) ≤ maxAttempts
    else (count : ℤ) = e.attempts + (if opened then 1 else 0) ∧ 0≤e.attempts ∧
      e.attempts < maxAttempts

theorem Counted.le {count : ℕ} {opened : Bool} {row : Option WebhookEvent}
    (h : Counted count opened row) : (count : ℤ) ≤ maxAttempts := by
  unfold Counted at h
  split at h
  · rw [h.1]
    decide
  split at h
  · exact h.2
  · obtain ⟨hcount,-,hlt⟩:=h
    split at hcount <;> omega

structure Holds (st : Requests) (log : List Auth.Event) (id : String) (s : WebhookStatus)
    (n : ℤ) : Prop where
  row : ∃ e, st.world.store.webhookEvents.get id = some e ∧ e.status=s ∧ e.attempts=n
  early : terminal s = false
  owes : unsettled id st.history = true ↔ ∃ ok, owing log = some (id,ok)

structure Rounds (st : Requests) : Prop where
  disciplined : Pool.Disciplined Attends Attended st
  unkilled : Pool.Unkilled st
  distinct : ∀ (i : ℕ) (t : Thread Op Op.Rep), st.threads[i]? = some t → Distinct t.log
  counted : ∀ id, Counted (dispatches id st.history) (unsettled id st.history)
    (st.world.store.webhookEvents.get id)
  holds : ∀ (i : ℕ) (t : Thread Op Op.Rep) (id : String) (s : WebhookStatus) (n : ℤ),
    st.threads[i]? = some t → t.finished=false → charge id t.log = some (s,n) →
      Holds st t.log id s n
  alone : ∀ (i j : ℕ) (t u : Thread Op Op.Rep) (id : String), st.threads[i]? = some t →
    st.threads[j]? = some u → t.finished=false → u.finished=false →
    (charge id t.log).isSome = true → (charge id u.log).isSome = true → i=j
  owed : ∀ id, unsettled id st.history = true → ∃ (i : ℕ) (t : Thread Op Op.Rep) (ok : Bool),
    st.threads[i]? = some t ∧ owing t.log = some (id,ok) ∧ (charge id t.log).isSome = true

theorem rounds_start (w : World) (hw : w.store={}) : Rounds (Pool.start w) where
  disciplined := Pool.disciplined_start _ _ w
  unkilled := Pool.unkilled_start w
  distinct := by simp [Pool.start]
  counted := by
    intro id
    simp [Pool.start,hw,Counted,dispatches,unsettled]
  holds := by simp [Pool.start]
  alone := by simp [Pool.start]
  owed := by simp [Pool.start,unsettled]

variable {t : Thread Op Op.Rep}

theorem Rounds.unfinished {st : Requests} (h : Rounds st) {i : ℕ} (ht : st.threads[i]? = some t)
    {id : String} {ok : Bool} (ho : owing t.log=some (id,ok)) : t.finished=false := by
  cases hf : t.finished with
  | false => rfl
  | true =>
    rcases h.disciplined.finished ht hf with hnone | hpost
    · exact absurd hnone (h.unkilled i t ht)
    · rw [hpost (h.distinct i t ht)] at ho
      cases ho

section Called
variable {st : Requests} {i : ℕ} {log : List Auth.Event} {op : Op} {f : op.Rep → Handler Unit}

theorem Rounds.proper (h : Rounds st) (hi : st.threads[i]? = some ⟨log,some (.call op f)⟩) :
    Proper log op :=
  h.disciplined.permits hi (h.distinct i _ hi)

variable {id : String}

variable {n : ℤ}

theorem Rounds.holds_next (h : Rounds st) (hi : st.threads[i]? = some ⟨log,some (.call op f)⟩)
    (hc : charge id log=some (s,n)) : Holds st log id s n :=
  h.holds i _ id s n hi rfl hc

theorem Holds.settled (h : Holds st log id s n) (ho : ∀ ok,owing log≠some (id,ok)) :
    unsettled id st.history=false := by
  rw [Bool.eq_false_iff]
  intro hu
  obtain ⟨ok,hok⟩:=h.owes.1 hu
  exact ho ok hok

theorem Rounds.count (h : Rounds st) (hh : Holds st log id s n) :
    (dispatches id st.history : ℤ)=n+(if unsettled id st.history then 1 else 0) ∧ 0≤n ∧
      n < maxAttempts := by
  obtain ⟨e,hrow,rfl,rfl⟩:=hh.row
  have hcounted:=h.counted id
  rw [hrow] at hcounted
  simpa only [Counted,hh.early,Bool.false_eq_true,if_false] using hcounted

variable {e : WebhookEvent}

theorem counted_settled {n attempts : ℤ} {count : ℕ} (h : Rounds st) (hh : Holds st log id s n)
    (hcount : count=dispatches id st.history) (hstatus : e.status=status)
    (hattempts : e.attempts=attempts) (hw : owing log=none ∧ (status,attempts)=(.dead,n) ∨
      ∃ ok,owing log=some (id,ok) ∧ (status,attempts)=outcome ok n) :
    Counted count false (some e) := by
  subst hcount
  obtain ⟨hc,hnonneg,hlt⟩:=h.count hh
  rcases hw with ⟨ho,heq⟩ | ⟨ok,ho,heq⟩
  · obtain ⟨rfl,rfl⟩:=Prod.mk.inj heq
    have hsettled : unsettled id st.history=false := hh.settled fun ok => by simp [ho]
    rw [hsettled] at hc
    simp only [Counted,hstatus,terminal,if_true,true_and]
    simp only [Bool.false_eq_true,if_false] at hc
    omega
  have hopen : unsettled id st.history=true := hh.owes.2 ⟨ok,ho⟩
  rw [hopen,if_pos rfl] at hc
  cases ok with
  | true =>
    obtain ⟨rfl,-⟩:=Prod.mk.inj heq
    simp only [Counted,hstatus,terminal,if_true,true_and]
    omega
  | false =>
    by_cases hlast : maxAttempts≤n+1
    · simp only [outcome,hlast,Bool.false_eq_true,if_false,if_true,Prod.mk.injEq] at heq
      simp only [Counted,hstatus,heq.1,terminal,if_true,true_and]
      omega
    · simp only [outcome,hlast,Bool.false_eq_true,if_false,Prod.mk.injEq] at heq
      simp only [Counted,hstatus,heq.1,terminal,Bool.false_eq_true,if_false,hattempts,heq.2]
      omega

theorem Rounds.counted_called (h : Rounds st) (a : Answer)
    (hi : st.threads[i]? = some ⟨log,some (.call op f)⟩)
    (hdep : dependable st (.call i a)=true) (id : String) :
    Counted (dispatches id ((i,⟨op,(perform a op st.world).1⟩)::st.history))
      (unsettled id ((i,⟨op,(perform a op st.world).1⟩)::st.history))
      ((perform a op st.world).2.store.webhookEvents.get id) := by
  have hproper:=h.proper hi
  by_cases hd : dispatchOf ⟨op,(perform a op st.world).1⟩=some id
  · obtain ⟨ok,rfl⟩:=dispatched_of_dispatchOf hd
    obtain ⟨ho,⟨s,n⟩,hc⟩:=hproper
    have hh:=h.holds_next hi hc
    obtain ⟨hcount,hnonneg,hlt⟩:=h.count hh
    obtain ⟨e,hrow,rfl,rfl⟩:=hh.row
    rw [hh.settled fun ok => by simp [ho]] at hcount
    rw [dispatches_mark hd]
    show Counted _ (unsettled id ((i,⟨.dispatched id ok,()⟩)::st.history))
      (st.world.store.webhookEvents.get id)
    have hopen : unsettled id ((i,⟨.dispatched id ok,()⟩)::st.history)=true := by
      simp [unsettled,dispatchOf]
    rw [hopen,hrow]
    simp only [Counted,hh.early,Bool.false_eq_true,if_false,if_true] at hcount ⊢
    refine ⟨?_,hnonneg,hlt⟩
    push_cast
    omega
  rw [dispatches_cons hd]
  by_cases hs : settles ⟨op,(perform a op st.world).1⟩=some id
  · obtain ⟨status,attempts,t,rfl⟩:=status_of_settles hs
    obtain ⟨s,n,hc,hw⟩:=hproper
    have hh:=h.holds_next hi hc
    obtain ⟨e,hrow,-,-⟩:=hh.row
    have hf : a.fault=false := by simpa [dependable,hi,Thread.next?] using hdep
    have hclosed (r : (Op.store (.setWebhookStatus id status attempts t)).Rep) :
        unsettled id ((i,⟨_,r⟩)::st.history)=false := by
      simp [unsettled,dispatchOf,settles]
    rw [hclosed,row_settle hf hrow]
    exact counted_settled h hh rfl rfl rfl hw
  rw [unsettled_cons hd hs]
  by_cases hins : inserted ⟨op,(perform a op st.world).1⟩=some id
  · obtain ⟨e,rfl,-,hnone,hrow⟩:=row_insert hins
    obtain ⟨-,hstatus,hattempts⟩:=hproper
    have hcounted:=h.counted id
    rw [hnone] at hcounted
    rw [hrow,hcounted.1,hcounted.2]
    simp only [Counted,hstatus,terminal,Bool.false_eq_true,if_false,hattempts]
    decide
  · rw [row_other hins hs]
    exact h.counted id

variable {a : Answer}

theorem Holds.cons {l : List Auth.Event} {x : Requests} (h : Holds st l id s n)
    (hd : dispatchOf ⟨op,(perform a op st.world).1⟩≠some id)
    (hs : settles ⟨op,(perform a op st.world).1⟩≠some id)
    (hins : inserted ⟨op,(perform a op st.world).1⟩≠some id)
    (hworld : x.world=(perform a op st.world).2)
    (hhistory : x.history=(i,⟨op,(perform a op st.world).1⟩)::st.history) {l' : List Auth.Event}
    (howing : ∀ ok,owing l'=some (id,ok) ↔ owing l=some (id,ok)) : Holds x l' id s n where
  row := by
    rw [hworld,row_other hins hs]
    exact h.row
  early := h.early
  owes := by
    rw [hhistory,unsettled_cons hd hs,h.owes]
    simp only [howing]

theorem owing_called {r : op.Rep} (hproper : Proper log op) (hd : dispatchOf ⟨op,r⟩≠some id)
    (hs : settles ⟨op,r⟩≠some id) (ok : Bool) :
    owing (⟨op,r⟩::log)=some (id,ok) ↔ owing log=some (id,ok) := by
  have hnone (hnone : owing log=none) (hno : owing (⟨op,r⟩::log)≠some (id,ok)) :
      owing (⟨op,r⟩::log)=some (id,ok) ↔ owing log=some (id,ok) := by
    rw [hnone]
    exact ⟨fun h => absurd h hno,fun h => by cases h⟩
  cases op with
  | now => exact Iff.rfl
  | dispatched id' ok' =>
    refine hnone hproper.1 fun h => hd ?_
    cases h
    rfl
  | store sop =>
    cases sop with
    | setWebhookStatus id' status attempts t =>
      obtain ⟨s,n,-,⟨ho,-⟩ | ⟨ok',ho,-⟩⟩:=hproper
      · exact hnone ho fun h => by cases h
      rw [ho]
      refine ⟨fun h => (by cases h),fun h => ?_⟩
      obtain ⟨rfl,-⟩:=Prod.mk.inj (Option.some.inj h)
      exact absurd rfl hs
    | insertWebhookEventIfAbsent e => exact hnone hproper.1 fun h => by cases h
    | listWebhookEventsByStatus status limit =>
      obtain ⟨rfl,-⟩:=hproper
      exact hnone rfl fun h => by cases h
    | _ => exact hnone hproper fun h => by cases h
  | _ => exact hnone hproper fun h => by cases h

section Failed
variable {limit : ℕ} {f : (Op.store (.listWebhookEventsByStatus status limit)).Rep → Handler Unit}
  (h : Rounds st) (hi : st.threads[i]? =
    some ⟨log,some (.call (.store (.listWebhookEventsByStatus status limit)) f)⟩)
  (hround : oneRound st (.call i a)=true)
  (hrow : st.world.store.webhookEvents.get id=some e) (hfailed : e.status=.failed)
include h hi hround hrow hfailed

theorem Rounds.free_of_failed {j : ℕ} (ht : st.threads[j]? = some t) (hf : t.finished=false) :
    charge id t.log=none := by
  cases hc : charge id t.log with
  | none => rfl
  | some s =>
    obtain ⟨s,n⟩:=s
    obtain ⟨e',hrow',hs,-⟩:=(h.holds j t id s n ht hf hc).row
    rw [hrow,Option.some.injEq] at hrow'
    subst hrow'
    obtain rfl : s=.failed := hs.symm.trans hfailed
    have hbusy : st.threads.any inRound=true := by
      refine List.any_eq_true.2 ⟨t,List.mem_of_getElem? ht,?_⟩
      simp only [inRound,listed_of_charge hc,hf,Bool.not_false,Bool.and_self]
    simp [oneRound,hi,Thread.next?,lists,hbusy] at hround

theorem Rounds.settled_of_failed : unsettled id st.history=false := by
  rw [Bool.eq_false_iff]
  intro hopen
  obtain ⟨j,t,ok,ht,ho,hc⟩:=h.owed id hopen
  rw [h.free_of_failed hi hround hrow hfailed ht (h.unfinished ht ho)] at hc
  cases hc

end Failed

theorem Rounds.holds_self (h : Rounds st) (a : Answer)
    (hi : st.threads[i]? = some ⟨log,some (.call op f)⟩) (hround : oneRound st (.call i a)=true)
    (hc : charge id (⟨op,(perform a op st.world).1⟩::log)=some (s,n)) :
    Holds (Pool.called perform st i log op f a) (⟨op,(perform a op st.world).1⟩::log) id s n := by
  have hproper:=h.proper hi
  simp only [charge] at hc
  split at hc
  · cases hc
  next hs =>
  split at hc
  · next hins =>
    -- the request has just recorded the event
    obtain ⟨e,rfl,-,hnone,hrow⟩:=row_insert hins
    cases hc
    have hcounted:=h.counted id
    rw [hnone] at hcounted
    refine ⟨⟨e,hrow,hproper.2.1,hproper.2.2⟩,rfl,?_⟩
    have hhist : unsettled id (Pool.called perform st i log _ f a).history=false := by
      show unsettled id ((i,⟨.store (.insertWebhookEventIfAbsent e),_⟩)::st.history)=false
      rw [unsettled_cons (by simp [dispatchOf]) (by simp [settles]),hcounted.2]
    rw [hhist]
    exact ⟨fun h => (by cases h),fun ⟨ok,h⟩ => (by cases h)⟩
  next hins =>
  split at hc
  · next s' hl =>
    -- the request has just listed it, so no other round is in progress
    cases hc
    obtain ⟨limit,e,rfl,hrow,hstatus,hattempts⟩:=row_listed hl
    obtain ⟨rfl,rfl⟩:=hproper
    refine ⟨⟨e,?_,hstatus,hattempts⟩,rfl,?_⟩
    · show (perform a _ st.world).2.store.webhookEvents.get id=some e
      rw [row_other hins hs,hrow]
    have hhist : unsettled id (Pool.called perform st i [] _ f a).history=false := by
      show unsettled id ((i,⟨.store (.listWebhookEventsByStatus .failed limit),_⟩) ::
        st.history)=false
      rw [unsettled_cons (by simp [dispatchOf]) (by simp [settles])]
      exact h.settled_of_failed hi hround hrow hstatus
    rw [hhist]
    exact ⟨fun h => (by cases h),fun ⟨ok,h⟩ => (by cases h)⟩
  · next hl =>
    have hh:=h.holds_next hi hc
    by_cases hd : dispatchOf ⟨op,(perform a op st.world).1⟩=some id
    · obtain ⟨ok,rfl⟩:=dispatched_of_dispatchOf hd
      refine ⟨hh.row,hh.early,?_⟩
      have hhist : unsettled id (Pool.called perform st i log _ f a).history=true := by
        show unsettled id ((i,⟨.dispatched id ok,()⟩)::st.history)=true
        simp [unsettled,dispatchOf]
      rw [hhist]
      exact ⟨fun _ => ⟨ok,rfl⟩,fun _ => rfl⟩
    · exact hh.cons hd hs hins rfl rfl (owing_called hproper hd hs)

theorem Rounds.charged (h : Rounds st) (hi : st.threads[i]? = some ⟨log,some (.call op f)⟩)
    (hop : dispatchOf ⟨op,(perform a op st.world).1⟩=some id ∨
      settles ⟨op,(perform a op st.world).1⟩=some id) : (charge id log).isSome=true := by
  have hproper:=h.proper hi
  rcases hop with hd | hs
  · obtain ⟨ok,rfl⟩:=dispatched_of_dispatchOf hd
    obtain ⟨-,s,hc⟩:=hproper
    rw [hc]
    rfl
  · obtain ⟨status,attempts,t,rfl⟩:=status_of_settles hs
    obtain ⟨s,n,hc,-⟩:=hproper
    rw [hc]
    rfl

theorem Rounds.holds_other (h : Rounds st) (a : Answer)
    (hi : st.threads[i]? = some ⟨log,some (.call op f)⟩) {j : ℕ} (hji : j≠i)
    (ht : st.threads[j]? = some t) (hf : t.finished=false) (hc : charge id t.log=some (s,n)) :
    Holds (Pool.called perform st i log op f a) t.log id s n := by
  have hh:=h.holds j t id s n ht hf hc
  have hmine : charge id t.log=some (s,n) → ¬ (charge id log).isSome=true := by
    intro hc hlog
    exact hji (h.alone j i t _ id ht hi hf rfl (by rw [hc]; rfl) hlog)
  refine hh.cons (fun hd => ?_) (fun hs => ?_) (fun hins => ?_) rfl rfl fun ok => Iff.rfl
  · exact hmine hc (h.charged hi (.inl hd))
  · exact hmine hc (h.charged hi (.inr hs))
  obtain ⟨e,-,-,hnone,-⟩:=row_insert hins
  obtain ⟨e',hrow,-⟩:=hh.row
  rw [hnone] at hrow
  cases hrow

theorem Rounds.alone_called (h : Rounds st) (a : Answer)
    (hi : st.threads[i]? = some ⟨log,some (.call op f)⟩) (hround : oneRound st (.call i a)=true)
    {j : ℕ} (hji : j≠i) (ht : st.threads[j]? = some t) (hf : t.finished=false)
    (hc : (charge id (⟨op,(perform a op st.world).1⟩::log)).isSome=true) :
    charge id t.log=none := by
  cases hct : charge id t.log with
  | none => rfl
  | some s =>
    obtain ⟨s,n⟩:=s
    have hrow:=(h.holds j t id s n ht hf hct).row
    simp only [charge] at hc
    split at hc
    · cases hc
    split at hc
    · next hins =>
      obtain ⟨e,-,-,hnone,-⟩:=row_insert hins
      obtain ⟨e',hrow',-⟩:=hrow
      rw [hnone] at hrow'
      cases hrow'
    split at hc
    · next s' hl =>
      obtain ⟨limit,e,rfl,hget,hstatus,-⟩:=row_listed hl
      obtain ⟨-,hfailed⟩ : log=[] ∧ s'.1=.failed := h.proper hi
      rw [h.free_of_failed hi hround hget (hstatus.trans hfailed) ht hf] at hct
      cases hct
    · exact absurd (h.alone j i t _ id ht hi hf rfl (by rw [hct]; rfl) hc) hji

theorem Rounds.owed_called (h : Rounds st) (a : Answer)
    (hi : st.threads[i]? = some ⟨log,some (.call op f)⟩)
    (hopen : unsettled id ((i,⟨op,(perform a op st.world).1⟩)::st.history)=true) :
    ∃ (j : ℕ) (t : Thread Op Op.Rep) (ok : Bool),
      (Pool.called perform st i log op f a).threads[j]? = some t ∧
        owing t.log=some (id,ok) ∧ (charge id t.log).isSome=true := by
  have hproper:=h.proper hi
  by_cases hd : dispatchOf ⟨op,(perform a op st.world).1⟩=some id
  · have hc:=h.charged hi (.inl hd)
    obtain ⟨ok,rfl⟩:=dispatched_of_dispatchOf hd
    refine ⟨i,_,ok,Pool.getElem?_set_here hi,rfl,?_⟩
    rw [charge_cons (by simp [settles]) (by simp [inserted]) rfl]
    exact hc
  by_cases hs : settles ⟨op,(perform a op st.world).1⟩=some id
  · simp only [unsettled,if_neg hd,if_pos hs] at hopen
    cases hopen
  rw [unsettled_cons hd hs] at hopen
  obtain ⟨j,t,ok,ht,ho,hc⟩:=h.owed id hopen
  by_cases hji : j=i
  · subst hji
    rw [hi,Option.some.injEq] at ht
    subst ht
    have ho':=(owing_called (r := (perform a op st.world).1) hproper hd hs ok).2 ho
    refine ⟨j,_,ok,Pool.getElem?_set_here hi,ho',?_⟩
    -- a request that owes a status calls nothing but the clock before it
    cases op with
    | now => exact hc
    | dispatched => cases ho'; exact absurd rfl hd
    | _ => cases ho'
  · exact ⟨j,t,ok,by rw [← ht]; exact List.getElem?_set_ne (Ne.symm hji),ho,hc⟩

theorem Rounds.distinct_called (h : Rounds st) (a : Answer)
    (hi : st.threads[i]? = some ⟨log,some (.call op f)⟩) :
    Distinct (⟨op,(perform a op st.world).1⟩::log) := by
  intro status limit events hsaw
  rcases saw_perform hsaw with ⟨rfl,hexec⟩ | hold
  · have heq : st.world.store.listWebhookEventsByStatus a.ties status limit=events :=
      Except.ok.inj hexec
    rw [← heq]
    exact st.world.store.nodup_listWebhookEvents _ status limit
  · exact h.distinct i _ hi status limit events hold

theorem Rounds.called (h : Rounds st) (a : Answer)
    (hi : st.threads[i]? = some ⟨log,some (.call op f)⟩)
    (hdep : dependable st (.call i a)=true) (hround : oneRound st (.call i a)=true)
    (hd : Pool.Disciplined Attends Attended (Pool.called perform st i log op f a))
    (hu : Pool.Unkilled (Pool.called perform st i log op f a)) :
    Rounds (Pool.called perform st i log op f a) where
  disciplined := hd
  unkilled := hu
  distinct j t ht := by
    rcases Pool.of_mem_set ht with ⟨-,rfl⟩ | ⟨-,hold⟩
    · exact h.distinct_called a hi
    · exact h.distinct j t hold
  counted := h.counted_called a hi hdep
  holds j t id s n ht hf hc := by
    rcases Pool.of_mem_set ht with ⟨-,rfl⟩ | ⟨hji,hold⟩
    · exact h.holds_self a hi hround hc
    · exact h.holds_other a hi hji hold hf hc
  alone j k t u id ht hu htf huf htc huc := by
    rcases Pool.of_mem_set ht with ⟨rfl,rfl⟩ | ⟨hji,hold⟩ <;>
      rcases Pool.of_mem_set hu with ⟨rfl,rfl⟩ | ⟨hki,hold'⟩
    · rfl
    · rw [h.alone_called a hi hround hki hold' huf htc] at huc
      cases huc
    · rw [h.alone_called a hi hround hji hold htf huc] at htc
      cases htc
    · exact h.alone j k t u id hold hold' htf huf htc huc
  owed id hopen := h.owed_called a hi hopen

end Called

theorem Rounds.interleave {srv : Service} {st : Requests} (h : Rounds st) (x : Auth.Step)
    (hx : ofWebhooks x=true) (hdep : dependable st x=true) (hround : oneRound st x=true) :
    Rounds (interleave srv st x) := by
  have hd : Pool.Disciplined Attends Attended (Auth.interleave srv st x) := by
    refine disciplined_interleave st x h.disciplined fun r hr => ?_
    subst hr
    exact handle_attends srv r hx
  have hu : Pool.Unkilled (Auth.interleave srv st x) := by
    refine Pool.unkilled_next perform st _ h.unkilled fun i hkill => ?_
    cases x with
    | crash j => cases hdep
    | _ => cases hkill
  have hm : Pool.Moves perform st (x.pool srv) (Auth.interleave srv st x) :=
    Pool.next_moves perform st _
  generalize Auth.interleave srv st x=st' at hd hu hm
  cases x with
  | start r =>
    cases hm with
    | spawned p =>
      -- the new request is in charge of nothing
      refine ⟨hd,hu,fun i t ht => ?_,h.counted,fun i t id s n ht hf hc => ?_,
        fun i j t u id ht hu htf huf htc huc => ?_,fun id hopen => ?_⟩
      · rcases Pool.of_mem_append ht with ⟨-,rfl⟩ | hold
        · intro status limit events hsaw
          cases hsaw
        · exact h.distinct i t hold
      · rcases Pool.of_mem_append ht with ⟨-,rfl⟩ | hold
        · cases hc
        · have hh:=h.holds i t id s n hold hf hc
          exact ⟨hh.row,hh.early,hh.owes⟩
      · rcases Pool.of_mem_append ht with ⟨-,rfl⟩ | hold
        · cases htc
        rcases Pool.of_mem_append hu with ⟨-,rfl⟩ | hold'
        · cases huc
        · exact h.alone i j t u id hold hold' htf huf htc huc
      · obtain ⟨i,t,ok,ht,ho,hc⟩:=h.owed id hopen
        exact ⟨i,t,ok,Pool.getElem?_append_old ht,ho,hc⟩
    | stays => exact h
  | call i a =>
    cases hm with
    | called _ _ log op f hi => exact h.called a hi hdep hround hd hu
    | stays => exact h
  | crash i => cases hdep

theorem Rounds.terminal_step (srv : Service) {st : Requests} (h : Rounds st) (x : Auth.Step)
    {id : String} {e : WebhookEvent} (hrow : st.world.store.webhookEvents.get id=some e)
    (he : terminal e.status=true) :
    (Auth.interleave srv st x).world.store.webhookEvents.get id=some e ∧
      dispatches id (Auth.interleave srv st x).history=dispatches id st.history := by
  have hm : Pool.Moves perform st (x.pool srv) (Auth.interleave srv st x) :=
    Pool.next_moves perform st _
  generalize Auth.interleave srv st x=st' at hm
  generalize x.pool srv=step at hm
  cases hm with
  | spawned p => exact ⟨hrow,rfl⟩
  | killed i t ht => exact ⟨hrow,rfl⟩
  | stays => exact ⟨hrow,rfl⟩
  | called i a log op f hi =>
    -- nobody is in charge of it
    have hfree : ¬ (charge id log).isSome=true := by
      intro hsome
      obtain ⟨⟨s,n⟩,hc⟩:=Option.isSome_iff_exists.1 hsome
      have hh:=h.holds_next hi hc
      obtain ⟨e',hrow',hs,-⟩:=hh.row
      rw [hrow,Option.some.injEq] at hrow'
      have hearly:=hh.early
      rw [← hs,← hrow',he] at hearly
      cases hearly
    have hd : dispatchOf ⟨op,(perform a op st.world).1⟩≠some id :=
      fun hd => hfree (h.charged hi (.inl hd))
    refine ⟨?_,dispatches_cons hd⟩
    show (perform a op st.world).2.store.webhookEvents.get id=some e
    rw [row_other (fun hins => ?_) fun hs => hfree (h.charged hi (.inr hs)),hrow]
    obtain ⟨_,-,-,hnone,-⟩:=row_insert hins
    rw [hnone] at hrow
    cases hrow

section Run
variable {srv : Service} {w : World}

abbrev inTurn (st : Requests) (x : Auth.Step) : Prop :=
  (ofWebhooks x && dependable st x && oneRound st x) = true

theorem rounds_step {st : Requests} (h : Rounds st) {x : Auth.Step} (hx : inTurn st x) :
    Rounds (interleave srv st x) := by
  simp only [inTurn,Bool.and_eq_true] at hx
  exact h.interleave x hx.1.1 hx.1.2 hx.2

theorem rounds_run (hw : w.store={}) (xs : List Auth.Step)
    (hxs : Machine.Guarded (interleave srv) inTurn (Pool.start w) xs) :
    Rounds (Machine.run (interleave srv) (Pool.start w) xs) :=
  Machine.guarded_invariant (interleave srv) inTurn Rounds (fun _ _ h hx => rounds_step h hx) _ xs
    (rounds_start w hw) hxs

end Run

/-- Any number of replicas with webhook requests and retry rounds in any order, in
which no write of a status fails and a round lists only while no other is in
progress: no event is dispatched more than `maxAttempts` times, and from the moment
it is processed or dead it keeps its status and is not dispatched again. -/
theorem retry_rounds_in_turn (srv : Service) (w : World) (hw : w.store={})
    (xs ys : List Auth.Step)
    (hsteps : Machine.Guarded (interleave srv) inTurn (Pool.start w) (xs ++ ys)) (id : String) :
    let st := Machine.run (interleave srv) (Pool.start w) xs
    let st' := Machine.run (interleave srv) (Pool.start w) (xs ++ ys)
    (dispatches id st'.history : ℤ) ≤ maxAttempts ∧
      ∀ e, st.world.store.webhookEvents.get id = some e →
        e.status = .processed ∨ e.status=.dead →
        (∃ e', st'.world.store.webhookEvents.get id = some e' ∧ e'.status=e.status) ∧
          dispatches id st'.history = dispatches id st.history := by
  intro st st'
  have hst' : Rounds st' := rounds_run hw (xs ++ ys) hsteps
  obtain ⟨hxs,hys⟩ := (Machine.guarded_append _ _ _ xs ys).1 hsteps
  refine ⟨(hst'.counted id).le,fun e hrow hstatus => ?_⟩
  have he : terminal e.status = true := by rcases hstatus with h | h <;> rw [h] <;> rfl
  -- along the rest of the run the row stays
  have hstays := Machine.guarded_invariant (interleave srv) inTurn
    (fun s => Rounds s ∧ s.world.store.webhookEvents.get id = some e ∧
      dispatches id s.history = dispatches id st.history)
    (fun s x h hx => by
      obtain ⟨hrounds,hget,hcount⟩ := h
      obtain ⟨hget',hcount'⟩ := hrounds.terminal_step srv x hget he
      exact ⟨rounds_step hrounds hx,hget',hcount'.trans hcount⟩)
    st ys ⟨rounds_run hw xs hxs,hrow,rfl⟩ hys
  rw [← Machine.run_append] at hstays
  exact ⟨⟨e,hstays.2.1,rfl⟩,hstays.2.2⟩

def roundOf (i : ℕ) : List Auth.Step := [.start (.retryFailed 0)] ++ calls 4 i "r"

def failingRounds : List Auth.Step :=
  [.start sampleRefused] ++ calls 6 0 "a" ++ roundOf 1 ++ roundOf 2 ++ roundOf 3 ++ roundOf 4

def fate (st : Requests) (id : String) : Option WebhookStatus × ℕ :=
  ((st.world.store.webhookEvents.get id).map WebhookEvent.status,dispatches id st.history)

theorem retry_rounds_in_turn_dead :
    fate (Machine.run (interleave sampleService) (Pool.start {}) failingRounds) "evt_3" =
        (some .dead,5) ∧
      fate (Machine.run (interleave sampleService) (Pool.start {}) (failingRounds ++ roundOf 5))
        "evt_3" = (some .dead,5) := by
  have hdead : fate (Machine.run (interleave sampleService) (Pool.start {}) failingRounds) "evt_3" =
      (some .dead,5) := by decide +kernel
  refine ⟨hdead,?_⟩
  obtain ⟨hstatus,hcount⟩ := Prod.mk.inj hdead
  obtain ⟨e,hrow,hs⟩ := Option.map_eq_some_iff.1 hstatus
  obtain ⟨⟨e',hrow',hs'⟩,hcount'⟩ := (retry_rounds_in_turn sampleService {} rfl failingRounds
    (roundOf 5) (by decide +kernel) "evt_3").2 e hrow (.inr hs)
  rw [fate,hrow',hcount',hcount,Option.map_some,hs',hs]

/- The same event; a round of another replica has listed it before the first of the
four rounds and goes on after the last. -/
def stalledRound : List Auth.Step :=
  [.start sampleRefused] ++ calls 6 0 "a" ++ [.start (.retryFailed 0)] ++ calls 1 1 "s" ++
    roundOf 2 ++ roundOf 3 ++ roundOf 4 ++ roundOf 5

theorem overlapping_rounds_revive :
    Machine.Guarded (interleave sampleService)
        (fun st x => (ofWebhooks x && dependable st x) = true) (Pool.start {})
        (stalledRound ++ calls 3 1 "s") ∧
      fate (Machine.run (interleave sampleService) (Pool.start {}) stalledRound) "evt_3" =
        (some .dead,5) ∧
      fate (Machine.run (interleave sampleService) (Pool.start {}) (stalledRound ++ calls 3 1 "s"))
        "evt_3" = (some .failed,6) := by
  decide +kernel

end SecureGateway.Billing
