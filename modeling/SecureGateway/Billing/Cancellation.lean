import SecureGateway.Auth.Obedience
import SecureGateway.Lib.Machine

/-!
# Events that arrive after a cancellation

Events come in any order, and failed ones are dispatched again. After
`customer.subscription.deleted` an older event is handled like a new one and may set the
licenses active again. `harmless` is the condition on late events under which the
subscription stays cancelled.
-/

namespace SecureGateway.Billing
open Authstore Auth Prog

abbrev Delivery := Stripe.Event × List Answer

def deliver (p : Processor) (w : World) (d : Delivery) : World := (serve (dispatch p d.1) d.2 w).2

def invoices (subID : String) (inv : Option Stripe.Invoice) : Bool :=
  match invoiceSubscriptionID inv with
  | .ok id => id == subID
  | .error _ => false

def lapsedFor (subID : String) (sub : Stripe.Subscription) : Bool :=
  sub.id != subID || License.lapsed sub.status

def activeLicenses (s : Store) (subID : String) : List License :=
  s.licenses.list fun l => l.subscriptionID == subID && l.status == .active

def pastDue (s : Store) (subID : String) : Bool :=
  (s.subscriptions.get subID).any fun m => m.status == .pastDue

/-- Late events that leave the cancellation of the subscription in place: its
objects carry a lapsed status, a failed invoice arrives while it has no active
license, and a paid one while it is not past due. -/
def harmless (subID : String) (w : World) (d : Delivery) : Bool :=
  (d.2.all fun a => a.subscription.all (lapsedFor subID)) &&
    match d.1.data with
    | .customerSubscriptionCreated sub | .customerSubscriptionUpdated sub =>
      sub.all (lapsedFor subID)
    | .invoicePaymentFailed inv =>
      !invoices subID inv || (activeLicenses w.store subID).isEmpty
    | .invoicePaid inv => !invoices subID inv || !pastDue w.store subID
    | _ => true

def Lapsed (subID : String) (s : Store) : Prop :=
  ∃ m, s.subscriptions.get subID = some m ∧ License.lapsed m.status = true

def Inactive (subID : String) (s : Store) : Prop :=
  ∀ id l, s.licenses.get id = some l → l.subscriptionID=subID → l.status≠.active

/-- No license of the subscription can be honoured, now or later. -/
def Cancelled (subID : String) (s : Store) : Prop :=
  Lapsed subID s ∨ pastDue s subID = true ∧ Inactive subID s

/-- What holds between the calls of a harmless dispatch and the store. -/
structure Late (subID : String) (c : Cause) (log : List Event) (s : Store) : Prop where
  cancelled : Cancelled subID s
  fetched : ∀ id sub, (⟨.stripeGetSubscription id,.ok sub⟩ : Event) ∈ log →
    lapsedFor subID sub = true
  listed : ∀ id ls, Saw log (.listLicensesBySubscription id) (.ok ls) → ∀ l ∈ ls,
    LicenseOf s l.id id
  read : ∀ id m, Saw log (.getSubscription id) (.ok m) →
    m.id = id ∧ (c.paid subID → id=subID → License.lapsed m.status = true)
  written : ∀ m, Saw log (.upsertSubscription m) (.ok ()) → m.id=subID → ¬ c.failed subID →
    Lapsed subID s
  paid : c.paid subID → Lapsed subID s
  failed : c.failed subID → Inactive subID s

structure Harmless (subID : String) (c : Cause) : Prop where
  mirrors : ∀ log sub status, c.mirrors log sub status →
    (∀ id sub, (⟨.stripeGetSubscription id,.ok sub⟩ : Event) ∈ log → lapsedFor subID sub = true) →
    sub.id = subID → License.lapsed status = true
  failed : c.failed subID → ∀ log id, ¬ c.About log id

variable {subID : String} {c : Cause} {log : List Event}

theorem Late.writes_lapsed {s : Store} (h : Late subID c log s) (hc : Harmless subID c)
    {m : Subscription} (hm : c.Writes log m) (hid : m.id=subID) :
    License.lapsed m.status=true ∨ c.failed subID ∧ m.status=.pastDue := by
  rcases hm with ⟨sub,hsub,hsid,-⟩ | ⟨id,m₀,hsaw,hm₀,-,hwhy⟩
  · exact .inl (hc.mirrors log sub _ hsub h.fetched (hsid.symm.trans hid))
  obtain ⟨hkey,hlapsed⟩:=h.read id m₀ hsaw
  have hid₀ : id=subID := hkey.symm.trans (hm₀.symm.trans hid)
  subst hid₀
  rcases hwhy with ⟨hfailed,hstatus⟩ | ⟨hpaid,hstatus⟩
  · exact .inr ⟨hfailed,hstatus⟩
  have hl:=hlapsed hpaid rfl
  refine .inl ?_
  rw [hstatus,if_neg (fun hp => by simp [hp,License.lapsed] at hl)]
  exact hl

theorem Late.restores_lapsed {s : Store} (h : Late subID c log s) (hc : Harmless subID c)
    (hr : c.Restores log subID) : Lapsed subID s := by
  obtain ⟨habout,m,hsaw,hid⟩:=hr
  refine h.written m hsaw ?_ fun hfailed => hc.failed hfailed log subID habout
  rcases hid with hid | ⟨m₀,hsaw₀,hid⟩
  · exact hid
  · exact hid.trans (h.read subID m₀ hsaw₀).1

variable {s s' : Store} {op : StoreOp}

theorem Lapsed.writes (h : Lapsed subID s) (hw : Writes s op s')
    (hm : ∀ m,op = .upsertSubscription m → m.id=subID → License.lapsed m.status=true) :
    Lapsed subID s' := by
  cases hw with
  | subscription m =>
    by_cases hid : m.id=subID
    · exact ⟨m,by rw [← hid,Table.get_put_self],hm m rfl hid⟩
    · simpa only [Lapsed,Table.get_put_ne _ _ hid] using h
  | _ => exact h

theorem Inactive.writes (h : Inactive subID s) (hw : Writes s op s')
    (hcreate : ∀ l,op = .createLicense l → l.subscriptionID≠subID)
    (hset : ∀ id l,op = .setLicenseStatus id .active → s.licenses.get id=some l →
      l.subscriptionID≠subID) : Inactive subID s' := by
  cases hw with
  | license l hnew => exact Table.forall_get_put (fun hsub => absurd hsub (hcreate l rfl)) h
  | licenseStatus id status l hold =>
    refine Table.forall_get_put (fun hsub hactive => ?_) h
    subst hactive
    exact hset id l rfl hold hsub
  | _ => exact h

theorem Late.inactive_writes (h : Late subID c log s) (hok : Acts c log (.store op))
    (hw : Writes s op s') (hr : ¬ c.Restores log subID) (hin : Inactive subID s) :
    Inactive subID s' := by
  refine hin.writes hw ?_ ?_
  · rintro l rfl hsub
    obtain ⟨m,n,hm,hid,-⟩:=hok
    exact hr (hsub ▸ hid ▸ hm.restores)
  rintro id l rfl hold hsub
  rcases hok with hrevoked | ⟨id',ls,l',hres,hls,hmem,rfl⟩
  · cases hrevoked
  obtain ⟨l'',hget,hof⟩:=h.listed id' ls hls l' hmem
  obtain rfl : l=l'' := by simpa [hold] using hget
  exact hr (hsub ▸ hof ▸ hres)

theorem Late.lapsed_writes (h : Late subID c log s) (hc : Harmless subID c)
    (hok : Acts c log (.store op)) (hw : Writes s op s') (hfailed : ¬ c.failed subID)
    (hl : Lapsed subID s) : Lapsed subID s' := by
  refine hl.writes hw ?_
  rintro m rfl hid
  exact (h.writes_lapsed hc hok hid).resolve_right fun hf => hfailed hf.1

theorem Late.cancelled_writes (h : Late subID c log s) (hc : Harmless subID c)
    (hok : Acts c log (.store op)) (hw : Writes s op s') : Cancelled subID s' := by
  by_cases hup : ∃ m,op = .upsertSubscription m ∧ m.id=subID
  · obtain ⟨m,rfl,hid⟩:=hup
    rcases h.writes_lapsed hc hok hid with hl | ⟨hfailed,hpast⟩
    · cases hw with
      | subscription => exact .inl ⟨m,by rw [← hid,Table.get_put_self],hl⟩
      | _ => exact h.cancelled
    · cases hw with
      | subscription => exact .inr ⟨by simp [pastDue,← hid,hpast],h.failed hfailed⟩
      | _ => exact h.cancelled
  · have hkeep (hl : Lapsed subID s) : Lapsed subID s' :=
      hl.writes hw fun m hm hid => absurd ⟨m,hm,hid⟩ hup
    rcases h.cancelled with hl | ⟨hpast,hin⟩
    · exact .inl (hkeep hl)
    by_cases hr : c.Restores log subID
    · exact .inl (hkeep (h.restores_lapsed hc hr))
    refine .inr ⟨?_,h.inactive_writes hok hw hr hin⟩
    cases hw with
    | subscription m =>
      have hne : m.id≠subID := fun hid => hup ⟨m,rfl,hid⟩
      simpa only [pastDue,Table.get_put_ne _ _ hne] using hpast
    | _ => exact hpast

variable {w : World}

theorem saw_upsertSubscription {a : Answer} {op : Op} {m : Subscription}
    (h : Saw (⟨op,(perform a op w).1⟩::log) (.upsertSubscription m) (.ok ())) :
    (op = .store (.upsertSubscription m) ∧
        (perform a op w).2.store.subscriptions.get m.id=some m) ∨
      Saw log (.upsertSubscription m) (.ok ()) := by
  rcases List.mem_cons.1 h with heq | hold
  · obtain ⟨rfl,hr⟩:=Sigma.mk.inj heq
    refine .inl ⟨rfl,?_⟩
    rw [(perform_ok (eq_of_heq hr).symm).2]
    exact Table.get_put_self _ m
  · exact .inr hold

theorem Late.perform {a : Answer} {op : Op} (h : Late subID c log w.store) (hc : Harmless subID c)
    (ha : a.subscription.all (lapsedFor subID)=true) (hok : Acts c log op) :
    Late subID c (⟨op,(perform a op w).1⟩::log) (perform a op w).2.store := by
  have hlapsed (hfailed : ¬ c.failed subID) (hl : Lapsed subID w.store) :
      Lapsed subID (Auth.perform a op w).2.store := by
    rcases perform_writes a op w with hsame | ⟨sop,rfl,hw⟩
    · exact hsame.symm ▸ hl
    · exact h.lapsed_writes hc hok hw hfailed hl
  refine ⟨?_,?_,?_,?_,?_,?_,?_⟩
  · rcases perform_writes a op w with hsame | ⟨sop,rfl,hw⟩
    · exact hsame.symm ▸ h.cancelled
    · exact h.cancelled_writes hc hok hw
  · intro id sub hmem
    rcases List.mem_cons.1 hmem with heq | hmem
    · obtain ⟨rfl,hr⟩:=Sigma.mk.inj heq
      exact Option.all_eq_true _ _ |>.1 ha sub (answered_eq_ok.1 (eq_of_heq hr).symm)
    · exact h.fetched id sub hmem
  · intro id ls hsaw l hl
    refine LicenseOf.perform ?_
    rcases saw_perform hsaw with ⟨-,hexec⟩ | hold
    · cases hexec
      obtain ⟨hget,hsub⟩:=Table.mem_list.1 hl
      exact ⟨l,hget,by simpa using hsub⟩
    · exact h.listed id ls hold l hl
  · intro id m hsaw
    rcases saw_perform hsaw with ⟨-,hexec⟩ | hold
    · have hget : w.store.subscriptions.get id=some m := by simpa [Store.exec] using hexec
      refine ⟨Table.key_of_get hget,fun hpaid hid => ?_⟩
      obtain ⟨m',hm',hl⟩:=h.paid hpaid
      rw [← hid,hget] at hm'
      cases hm'
      exact hl
    · exact h.read id m hold
  · intro m hsaw hid hfailed
    rcases saw_upsertSubscription hsaw with ⟨rfl,hget⟩ | hold
    · refine ⟨m,hid ▸ hget,?_⟩
      exact (h.writes_lapsed hc hok hid).resolve_right fun hf => hfailed hf.1
    · exact hlapsed hfailed (h.written m hold hid hfailed)
  · intro hpaid
    exact hlapsed (fun hf => hc.failed hf log subID (.inr hpaid)) (h.paid hpaid)
  · intro hfailed
    have hin:=h.failed hfailed
    rcases perform_writes a op w with hsame | ⟨sop,rfl,hw⟩
    · exact hsame.symm ▸ hin
    · exact h.inactive_writes hok hw (fun hr => hc.failed hfailed log subID hr.1) hin

theorem invoices_of_eq {inv : Option Stripe.Invoice} (h : invoiceSubscriptionID inv = .ok subID) :
    invoices subID inv=true := by
  simp [invoices,h]

theorem harmless_of {d : Delivery} (hd : harmless subID w d=true) : Harmless subID (.of d.1) := by
  simp only [harmless,Bool.and_eq_true] at hd
  constructor
  · rintro log sub status (⟨hev,rfl⟩ | ⟨hev,rfl⟩ | ⟨hev,rfl⟩ | ⟨cs,id,hev,hmem,rfl⟩) hf hid
    · simpa [hev,lapsedFor,hid] using hd.2
    · simpa [hev,lapsedFor,hid] using hd.2
    · rfl
    · simpa [lapsedFor,hid] using hf id sub hmem
  · rintro ⟨inv,hev,-⟩ log id (⟨sub,status,hsub,-⟩ | ⟨inv',hev',-⟩)
    · rcases hsub with ⟨hev',-⟩ | ⟨hev',-⟩ | ⟨hev',-⟩ | ⟨cs,id,hev',-⟩ <;>
        simp [hev] at hev'
    · simp [hev] at hev'

theorem late_start {d : Delivery} (h : Cancelled subID w.store) (hd : harmless subID w d=true) :
    Late subID (.of d.1) [] w.store where
  cancelled := h
  fetched _ _ hmem := by cases hmem
  listed _ _ hsaw := by cases hsaw
  read _ _ hsaw := by cases hsaw
  written _ hsaw := by cases hsaw
  paid := by
    rintro ⟨inv,hev,hinv⟩
    simp only [harmless,hev,invoices_of_eq hinv,Bool.and_eq_true,Bool.not_true,
      Bool.false_or,Bool.not_eq_true'] at hd
    exact h.resolve_right fun hp => by simp [hd.2] at hp
  failed := by
    rintro ⟨inv,hev,hinv⟩ id l hget hsub hactive
    simp only [harmless,hev,invoices_of_eq hinv,Bool.and_eq_true,Bool.not_true,
      Bool.false_or,List.isEmpty_iff] at hd
    have hmem : l∈activeLicenses w.store subID :=
      Table.mem_list_of_get hget (by simp [hsub,hactive])
    simp [hd.2] at hmem

theorem cancelled_deliver (p : Processor) (w : World) (d : Delivery) (h : Cancelled subID w.store)
    (hd : harmless subID w d=true) : Cancelled subID (deliver p w d).store := by
  have hc:=harmless_of hd
  have hanswers : ∀ a∈d.2,a.subscription.all (lapsedFor subID)=true :=
    List.all_eq_true.1 (Bool.and_eq_true _ _ ▸ hd).1
  obtain ⟨hinv,-⟩:=run_obeys answer (Acts (.of d.1))
    (fun log s => Late subID (.of d.1) log s.1.store ∧
      ∀ a∈s.2,a.subscription.all (lapsedFor subID)=true)
    (fun log op s ⟨hlate,hrest⟩ hok => by
      have hhead : (s.2.headD {}).subscription.all (lapsedFor subID)=true := by
        cases hs : s.2 with
        | nil => rfl
        | cons a as => exact hrest a (hs ▸ List.mem_cons_self)
      exact ⟨hlate.perform hc hhead hok,fun a ha => hrest a (List.mem_of_mem_tail ha)⟩)
    _ (dispatch p d.1) [] (w,d.2) (dispatch_acts p d.1) ⟨late_start h hd,hanswers⟩
  exact hinv.1.cancelled

theorem lapsed_deleted (p : Processor) (w : World) (ev : Stripe.Event) (as : List Answer)
    (sub : Stripe.Subscription) (hev : ev.data = .customerSubscriptionDeleted (some sub))
    (hok : (serve (dispatch p ev) as w).1 = .ok ()) :
    Lapsed sub.id (deliver p w (ev,as)).store := by
  have hwrites (log : List Event) (m : Subscription) (hm : (Cause.of ev).Writes log m) :
      License.lapsed m.status=true := by
    rcases hm with ⟨o,⟨he,-⟩ | ⟨he,-⟩ | ⟨-,hs⟩ | ⟨cs,id,he,-⟩,-⟩ |
      ⟨id,m₀,-,-,-,⟨⟨inv,he,-⟩,-⟩ | ⟨⟨inv,he,-⟩,-⟩⟩
    case inl.inr.inr.inl => rw [hs]; rfl
    all_goals simp [hev] at he
  have hdispatch : dispatch p ev=handleSubscriptionDeleted (some sub) := by simp only [dispatch,hev]
  have hstep (log : List Event) (op : Op) (s : World × List Answer)
      (hinv : ∀ m,Saw log (.upsertSubscription m) (.ok ()) → m.id=sub.id →
        Lapsed sub.id s.1.store) (hact : Acts (.of ev) log op) (m : Subscription)
      (hsaw : Saw (⟨op,(answer op s).1⟩::log) (.upsertSubscription m) (.ok ()))
      (hid : m.id=sub.id) : Lapsed sub.id (answer op s).2.1.store := by
    rcases saw_upsertSubscription hsaw with ⟨rfl,hget⟩ | hold
    · exact ⟨m,hid ▸ hget,hwrites log m hact⟩
    rcases perform_writes (s.2.headD {}) op s.1 with hsame | ⟨sop,rfl,hw⟩
    · exact (hsame.symm ▸ hinv m hold hid :)
    refine (hinv m hold hid).writes hw fun m' hm' _ => ?_
    subst hm'
    exact hwrites log m' hact
  obtain ⟨hinv,hpost⟩:=run_obeys answer (Acts (.of ev)) _ hstep _
    (handleSubscriptionDeleted (some sub)) [] (w,as)
    (obeys_weaken (handleSubscriptionDeleted_does (p := p) (c := .of ev) (some sub) fun o ho =>
      .inr (.inr (.inl ⟨by rw [hev,ho],rfl⟩))) fun _ _ _ hact => hact.1)
    (fun m hsaw => by cases hsaw)
  obtain ⟨m,hid,hsaw⟩:=hpost (by rw [← hdispatch]; exact hok) sub rfl
  rw [deliver,serve,hdispatch]
  exact hinv m hsaw hid

theorem Cancelled.not_issuable (h : Cancelled subID w.store) (srv : Service)
    (hbilling : srv.billingEnabled=true) (id : String) (lic : License)
    (hlic : w.store.licenses.get id=some lic) (hsub : lic.subscriptionID=subID)
    (as : List Answer) : (serve (licenseIssuable srv lic) as w).1.2=false := by
  by_cases hactive : lic.status=.active
  · have hl : Lapsed subID w.store := h.resolve_right fun hp => hp.2 id lic hlic hsub hactive
    obtain ⟨m,hm,hlapsed⟩:=hl
    simp only [serve,licenseIssuable,hactive,hbilling,ne_eq,not_true_eq_false,if_false,
      Bool.not_true,Bool.false_eq_true,run_bind,run_perform]
    cases hr : (answer (.store (.getSubscription lic.subscriptionID)) (w,as)).1 with
    | error e => rfl
    | ok sub =>
      have hget : w.store.subscriptions.get lic.subscriptionID=some sub := by
        simpa [Store.exec] using (perform_ok hr).1
      rw [hsub,hm] at hget
      cases hget
      exact License.not_issuable_of_lapsed m _ hlapsed
  · simp [serve,licenseIssuable,hactive]

/-- Once a deletion of the subscription has been processed, and as long as every
event dispatched after it is harmless, no license of the subscription is
honoured at any time. -/
theorem cancellation_terminal (p : Processor) (w : World) (ev : Stripe.Event) (as : List Answer)
    (sub : Stripe.Subscription) (hev : ev.data = .customerSubscriptionDeleted (some sub))
    (hok : (serve (dispatch p ev) as w).1 = .ok ()) (late : List Delivery)
    (hlate : Machine.Guarded (deliver p) (fun w d => harmless sub.id w d = true)
      (deliver p w (ev,as)) late)
    (srv : Service) (hbilling : srv.billingEnabled=true) (id : String) (lic : License)
    (hlic : (Machine.run (deliver p) (deliver p w (ev,as)) late).store.licenses.get id = some lic)
    (hsub : lic.subscriptionID=sub.id) (answers : List Answer) :
    (serve (licenseIssuable srv lic) answers
      (Machine.run (deliver p) (deliver p w (ev,as)) late)).1.2 = false := by
  have hcancelled : Cancelled sub.id (Machine.run (deliver p) (deliver p w (ev,as)) late).store :=
    Machine.guarded_invariant (deliver p) _ (fun w => Cancelled sub.id w.store)
      (cancelled_deliver p) _ late (.inl (lapsed_deleted p w ev as sub hev hok)) hlate
  exact hcancelled.not_issuable srv hbilling id lic hlic hsub answers

def purchased : World :=
  deliver sampleService.proc {}
    (⟨"evt_1",.customerSubscriptionCreated (some sampleSubscription)⟩,drawing "a")

def sampleDeletion : Stripe.Event := ⟨"evt_9",.customerSubscriptionDeleted (some sampleSubscription)⟩

def honoured (w : World) : Option (String × Bool) :=
  (w.store.licenses.get "lic_a").map fun lic =>
    (lic.subscriptionID,(serve (licenseIssuable sampleService lic) [] w).1.2)

theorem license_of_honoured {subID : String} {b : Bool} (h : honoured w=some (subID,b)) :
    ∃ lic,w.store.licenses.get "lic_a" = some lic ∧ lic.subscriptionID=subID ∧
      (serve (licenseIssuable sampleService lic) [] w).1.2=b := by
  simpa only [honoured,Option.map_eq_some_iff,Prod.mk.injEq] using h

def reinstated : World :=
  deliver sampleService.proc (deliver sampleService.proc purchased (sampleDeletion,drawing "b"))
    (⟨"evt_2",.customerSubscriptionUpdated (some sampleSubscription)⟩,drawing "c")

theorem late_update_reinstates :
    (serve (dispatch sampleService.proc sampleDeletion) (drawing "b") purchased).1 = .ok () ∧
      ∃ lic, reinstated.store.licenses.get "lic_a" = some lic ∧ lic.subscriptionID = "sub_1" ∧
        (serve (licenseIssuable sampleService lic) [] reinstated).1.2 = true :=
  ⟨by decide +kernel,license_of_honoured (by decide +kernel)⟩

def lateEvents : List Delivery :=
  [(⟨"evt_2",.customerSubscriptionUpdated (some { sampleSubscription with status := .canceled })⟩,
      drawing "c"),
    (⟨"evt_3",.invoicePaymentFailed (some { id := "in_1", subscription := some "sub_1" })⟩,
      drawing "d")]

def afterDeletion : World :=
  Machine.run (deliver sampleService.proc)
    (deliver sampleService.proc purchased (sampleDeletion,drawing "b")) lateEvents

theorem cancellation_terminal_late_events :
    ∃ lic, afterDeletion.store.licenses.get "lic_a" = some lic ∧
      (serve (licenseIssuable sampleService lic) [] afterDeletion).1.2 = false := by
  have hfinal : honoured afterDeletion = some ("sub_1",false) := by decide +kernel
  obtain ⟨lic,hget,hsub,-⟩ := license_of_honoured hfinal
  exact ⟨lic,hget,cancellation_terminal sampleService.proc purchased sampleDeletion (drawing "b")
    sampleSubscription rfl (by decide +kernel) lateEvents (by decide +kernel) sampleService rfl
    "lic_a" lic hget hsub []⟩

end SecureGateway.Billing
