import SecureGateway.Auth.Discipline

/-!
# What the billing handlers do

`Acts` lists the calls of the programs behind `dispatch` and of one subscription's
reconciliation, with what the program has seen before each, and `Deadlines` says where the
grace deadline of a mirror comes from. There is one lemma for each program, along its own
text, for both; `dispatch_does` is the result.
-/

namespace SecureGateway.Billing
open Authstore Auth Prog

/-- Why a program acts: the Stripe objects it mirrors, with the status it writes
for them, and the subscriptions whose invoice failed or was paid. -/
structure Cause where
  mirrors : List Auth.Event → Stripe.Subscription → SubStatus → Prop
  grows : ∀ {log l sub status}, mirrors log sub status → log <:+ l → mirrors l sub status
  failed : String → Prop
  paid : String → Prop

namespace Cause
variable (c : Cause)

def About (log : List Auth.Event) (subID : String) : Prop :=
  (∃ sub status, c.mirrors log sub status ∧ sub.id=subID) ∨ c.paid subID

/-- A mirror row is that of a Stripe object, or a row read before whose invoice
failed or was paid. -/
def Writes (log : List Auth.Event) (m : Subscription) : Prop :=
  (∃ sub, c.mirrors log sub m.status ∧ m.id=sub.id ∧ m.maxPairs = Stripe.maxPairsFor sub) ∨
    ∃ id m₀, Saw log (.getSubscription id) (.ok m₀) ∧ m.id=m₀.id ∧ m.maxPairs=m₀.maxPairs ∧
      (c.failed id ∧ m.status=.pastDue ∨
        c.paid id ∧ m.status = if m₀.status=.pastDue then .active else m₀.status)

/-- Licenses are created for a subscription whose mirror the program wrote. -/
def Provides (log : List Auth.Event) (m : Subscription) : Prop :=
  c.About log m.id ∧ Saw log (.upsertSubscription m) (.ok ())

/-- Licenses are set active for a subscription whose mirror the program wrote,
be it a row that it read under that id. -/
def Restores (log : List Auth.Event) (subID : String) : Prop :=
  c.About log subID ∧ ∃ m, Saw log (.upsertSubscription m) (.ok ()) ∧
    (m.id=subID ∨ ∃ m₀, Saw log (.getSubscription subID) (.ok m₀) ∧ m.id=m₀.id)

variable {c}

theorem About.mono {log l : List Auth.Event} {subID : String} (h : c.About log subID)
    (hl : log <:+ l) : c.About l subID :=
  h.imp_left fun ⟨sub,status,hsub,hid⟩ => ⟨sub,status,c.grows hsub hl,hid⟩

variable {log : List Auth.Event} {m : Subscription}

theorem Provides.mono {log l : List Auth.Event} (h : c.Provides log m) (hl : log <:+ l) :
    c.Provides l m := ⟨h.1.mono hl,h.2.mono hl⟩

theorem Provides.tail {e : Auth.Event} (h : c.Provides log m) :
    c.Provides (e::log) m := h.mono (List.suffix_cons _ _)

theorem Provides.restores (h : c.Provides log m) : c.Restores log m.id := ⟨h.1,m,h.2,.inl rfl⟩

theorem Restores.mono {l : List Auth.Event} {subID : String} (h : c.Restores log subID)
    (hl : log <:+ l) : c.Restores l subID := by
  obtain ⟨habout,m,hm,hid⟩:=h
  refine ⟨habout.mono hl,m,hm.mono hl,hid.imp_right ?_⟩
  rintro ⟨m₀,hsaw,hid⟩
  exact ⟨m₀,hsaw.mono hl,hid⟩

def of (ev : Stripe.Event) : Cause where
  mirrors log sub status :=
    (ev.data = .customerSubscriptionCreated (some sub) ∧ status=sub.status) ∨
      (ev.data = .customerSubscriptionUpdated (some sub) ∧ status=sub.status) ∨
      (ev.data = .customerSubscriptionDeleted (some sub) ∧ status=.canceled) ∨
      ∃ cs id, ev.data = .checkoutSessionCompleted cs ∧
        (⟨.stripeGetSubscription id,.ok sub⟩ : Auth.Event) ∈ log ∧ status=sub.status
  grows h hl := by
    refine h.imp_right fun h => h.imp_right fun h => h.imp_right ?_
    rintro ⟨cs,id,hev,hmem,hstatus⟩
    exact ⟨cs,id,hev,hl.subset hmem,hstatus⟩
  failed id := ∃ inv, ev.data = .invoicePaymentFailed inv ∧ invoiceSubscriptionID inv = .ok id
  paid id := ∃ inv, ev.data = .invoicePaid inv ∧ invoiceSubscriptionID inv = .ok id

def the (sub : Stripe.Subscription) : Cause where
  mirrors _ o status := o = sub ∧ status=sub.status
  grows h _ := h
  failed _ := False
  paid _ := False

end Cause

def Acts (c : Cause) (log : List Auth.Event) : Op → Prop
  | .store (.upsertSubscription m) => c.Writes log m
  | .store (.createLicense l) =>
    ∃ m n, c.Provides log m ∧ m.id=l.subscriptionID ∧ counted m.id log = some n ∧ n < m.maxPairs
  | .store (.setLicenseStatus id status) =>
    status = .revoked ∨
      ∃ subID ls l, c.Restores log subID ∧ Saw log (.listLicensesBySubscription subID) (.ok ls) ∧
        l ∈ ls ∧ l.id=id
  | .store (.setPairingStatus _ status) => status = .revoked
  | .store (.getAccountByCustomer _) | .store (.upsertAccount _) | .store (.getSubscription _)
  | .store (.listLicensesBySubscription _) | .store (.listActivePairingsByLicense _)
  | .store (.markCheckoutClaimReady _ _ _ _ _) => True
  | .now | .newKey | .stripeGetSubscription _ | .publishRevocation _ => True
  | .newID tag => tag = "acct"
  | _ => False

/- The mirror that was read last, if nothing but the clock has been read since. -/
def lastRead : List Auth.Event → Option (String × Except Err Subscription)
  | ⟨.now,_⟩ :: log => lastRead log
  | ⟨.store (.getSubscription id),r⟩ :: _ => some (id,r)
  | _ => none

/- What the clock has shown since the last call that was not a read of the clock or of a
mirror. -/
def readings : List Auth.Event → List Time
  | ⟨.now,t⟩ :: log => t :: readings log
  | ⟨.store (.getSubscription _),_⟩ :: log => readings log
  | _ => []

/-- How the deadline of a mirror comes about that is written after these calls. -/
inductive Sets (p : Processor) (log : List Auth.Event) (m : Subscription) : Prop
  | clears (hstatus : m.status≠.pastDue) (hnone : m.graceUntil=0)
  | keeps (id : String) (m₀ : Subscription) (hread : lastRead log = some (id,.ok m₀))
      (hid : m.id=id ∨ m.id=m₀.id) (hstatus : m.status=.pastDue)
      (hset : m₀.graceUntil≠0) (hkept : m.graceUntil=m₀.graceUntil)
  | renews (id : String) (m₀ : Subscription) (t : Time)
      (hread : lastRead log = some (id,.ok m₀)) (hid : m.id=id ∨ m.id=m₀.id)
      (hstatus : m.status=.pastDue) (hnone : m₀.graceUntil=0) (ht : t ∈ readings log)
      (hnew : m.graceUntil = t + p.grace)
  | begins (e : Err) (t : Time) (hread : lastRead log = some (m.id,.error e))
      (hstatus : m.status=.pastDue) (ht : t ∈ readings log) (hnew : m.graceUntil = t + p.grace)

def Deadlines (p : Processor) (log : List Auth.Event) : Op → Prop
  | .store (.upsertSubscription m) => Sets p log m
  | _ => True

abbrev Does (p : Processor) (c : Cause) (log : List Auth.Event) (op : Op) : Prop :=
  Acts c log op ∧ Deadlines p log op

/- The calls of a program that binds no account and no claim. -/
def syncs : Op → Bool
  | .store (.getSubscription _) | .store (.upsertSubscription _)
  | .store (.listLicensesBySubscription _) | .store (.createLicense _)
  | .store (.setLicenseStatus _ _) | .store (.listActivePairingsByLicense _)
  | .store (.setPairingStatus _ _) | .now | .newKey | .publishRevocation _ => true
  | _ => false

abbrev Syncs : List Auth.Event → Op → Prop := fun _ op => syncs op = true

abbrev Syncing (p : Processor) (c : Cause) (log : List Auth.Event) (op : Op) : Prop :=
  Does p c log op ∧ syncs op = true

variable {c : Cause} {log : List Auth.Event} {p : Processor} {ok : List Auth.Event → Op → Prop}

theorem does_of_syncing {α : Type} {q : Handler α} (h : Makes (Syncing p c) log q) :
    Makes (Does p c) log q :=
  obeys_weaken h fun _ _ _ hop => hop.1

theorem resolveAccount_obeys (customerID : String)
    (hget : ∀ l id,ok l (.store (.getAccountByCustomer id))) (hid : ∀ l,ok l (.newID "acct"))
    (hnow : ∀ l,ok l .now) (hput : ∀ l a,ok l (.store (.upsertAccount a))) :
    Makes ok log (resolveAccount customerID) := by
  unfold resolveAccount
  split
  · exact trivial
  refine obeys_step (hget _ _) fun r => ?_
  rcases r with e | acct
  · refine obeys_step (hid _) fun id => obeys_step (hnow _) fun t =>
      obeys_step (hput _ _) fun r => ?_
    rcases r with e | u <;> exact trivial
  · exact trivial

theorem resolveAccount_does (customerID : String) :
    Makes (Does p c) log (resolveAccount customerID) :=
  resolveAccount_obeys customerID (fun _ _ => ⟨trivial,trivial⟩) (fun _ => ⟨rfl,trivial⟩)
    (fun _ => ⟨trivial,trivial⟩) fun _ _ => ⟨trivial,trivial⟩

theorem provision_syncing (m : Subscription) (itemID : String) (missing n : ℕ)
    (hm : c.Provides log m) (hn : counted m.id log=some n)
    (hle : missing=0 ∨ n+missing ≤ m.maxPairs) :
    Makes (Syncing p c) log (provision m itemID missing) := by
  induction missing generalizing log n with
  | zero => exact trivial
  | succ missing ih =>
    refine obeys_step ⟨⟨trivial,trivial⟩,rfl⟩ fun id => obeys_step ⟨⟨trivial,trivial⟩,rfl⟩ fun t =>
      obeys_step ⟨⟨?_,trivial⟩,rfl⟩ fun r => ?_
    · refine ⟨m,n,hm.tail.tail,rfl,?_,by omega⟩
      simpa [counted,listed,created] using hn
    rcases r with e | u
    · exact trivial
    · refine ih (n+1) hm.tail.tail.tail ?_ (by omega)
      simp [counted,listed,created,hn]

theorem ensureLicenses_syncing (m : Subscription) (sub : Stripe.Subscription)
    (hm : c.Provides log m) : Makes (Syncing p c) log (ensureLicenses m sub) := by
  refine obeys_store ⟨⟨trivial,trivial⟩,rfl⟩ fun existing => ?_
  refine provision_syncing m _ _ existing.length hm.tail ?_ (by omega)
  simp [counted,listed]

def enforces : Op → Bool
  | .store (.setLicenseStatus _ status) => status == .revoked
  | .store (.setPairingStatus _ status) => status == .revoked
  | .store (.listLicensesBySubscription _) | .store (.listActivePairingsByLicense _)
  | .publishRevocation _ => true
  | _ => false

abbrev Enforces : List Auth.Event → Op → Prop := fun _ op => enforces op = true

variable (behavior : License.Behavior)

theorem whenRevoked_enforces (op : StoreOp) (hop : enforces (.store op)=true) :
    Makes Enforces log (whenRevoked behavior op) := by
  unfold whenRevoked
  split
  · exact obeys_store hop fun _ => trivial
  · exact trivial

theorem enforcePairings_enforces (pairs : List Pairing) :
    Makes Enforces log (enforcePairings behavior pairs) := by
  induction pairs generalizing log with
  | nil => exact trivial
  | cons pr pairs ih =>
    refine obeys_ok (whenRevoked_enforces _ _ rfl) fun u l _ _ => ?_
    refine obeys_step rfl fun r => ?_
    rcases r with e | u
    · exact trivial
    · exact ih

theorem enforceLicenses_enforces (licenses : List License) :
    Makes Enforces log (enforceLicenses behavior licenses) := by
  induction licenses generalizing log with
  | nil => exact trivial
  | cons l licenses ih =>
    refine obeys_ok (whenRevoked_enforces _ _ rfl) fun u _ _ _ => ?_
    refine obeys_store rfl fun pairs => ?_
    refine obeys_seq (enforcePairings_enforces _ _) fun r _ _ _ => ?_
    rcases r with e | u
    · exact trivial
    · exact ih

theorem enforce_enforces (subID : String) (behavior : License.Behavior) :
    Makes Enforces log (enforce subID behavior) := by
  refine obeys_store rfl fun licenses => ?_
  exact enforceLicenses_enforces _ _

theorem syncing_of_enforces {op : Op} (h : enforces op=true) : Syncing p c log op := by
  cases op with
  | store sop =>
    cases sop with
    | setLicenseStatus id status => exact ⟨⟨.inl (eq_of_beq h),trivial⟩,rfl⟩
    | setPairingStatus id status => exact ⟨⟨eq_of_beq h,trivial⟩,rfl⟩
    | listLicensesBySubscription id => exact ⟨⟨trivial,trivial⟩,rfl⟩
    | listActivePairingsByLicense id => exact ⟨⟨trivial,trivial⟩,rfl⟩
    | _ => cases h
  | publishRevocation ev => exact ⟨⟨trivial,trivial⟩,rfl⟩
  | _ => cases h

theorem enforce_syncing (subID : String) (behavior : License.Behavior) :
    Makes (Syncing p c) log (enforce subID behavior) :=
  obeys_weaken (enforce_enforces subID behavior) fun _ _ _ => syncing_of_enforces

theorem reactivateLicenses_obeys (licenses : List License)
    (hset : ∀ l lic,log <:+ l → lic∈licenses → ok l (.store (.setLicenseStatus lic.id .active))) :
    Makes ok log (reactivateLicenses licenses) := by
  induction licenses generalizing log with
  | nil => exact trivial
  | cons lic licenses ih =>
    have hrest (l : List Auth.Event) (hl : log <:+ l) : Makes ok l (reactivateLicenses licenses) :=
      ih fun l' lic' hl' hmem => hset l' lic' (hl.trans hl') (List.mem_cons_of_mem _ hmem)
    unfold reactivateLicenses
    split
    · refine obeys_step (hset _ _ List.suffix_rfl List.mem_cons_self) fun r => ?_
      rcases r with e | u
      · exact trivial
      · exact hrest _ (List.suffix_cons _ _)
    · exact hrest _ List.suffix_rfl

/-- The calls of `reactivate`: the licenses are listed, and listed ones are set active. -/
theorem reactivate_obeys {subID : String} (hlist : ok log (.store (.listLicensesBySubscription subID)))
    (hset : ∀ l ls lic,log <:+ l → Saw l (.listLicensesBySubscription subID) (.ok ls) → lic∈ls →
      ok l (.store (.setLicenseStatus lic.id .active))) :
    Makes ok log (reactivate subID) := by
  refine obeys_store hlist fun ls => reactivateLicenses_obeys ls fun l lic hl hmem => ?_
  exact hset l ls lic ((List.suffix_cons _ _).trans hl) (Saw.mono (saw_head _ _ _) hl) hmem

theorem reactivate_syncing {subID : String} (hsub : c.Restores log subID) :
    Makes (Syncing p c) log (reactivate subID) :=
  reactivate_obeys ⟨⟨trivial,trivial⟩,rfl⟩ fun _ ls lic hl hls hmem =>
    ⟨⟨.inr ⟨subID,ls,lic,hsub.mono hl,hls,hmem,rfl⟩,trivial⟩,rfl⟩

section Mirror
variable (sub : Stripe.Subscription) (accountID : String)

theorem sets_mirrorOf_ok (t : Time) (m₀ : Subscription) :
    Sets p (⟨.store (.getSubscription sub.id),.ok m₀⟩::⟨.now,t⟩::log)
      (mirrorOf p sub accountID t m₀.graceUntil) := by
  by_cases hstatus : sub.status=.pastDue
  · by_cases hzero : m₀.graceUntil=0
    · refine .renews sub.id m₀ t rfl (.inl rfl) hstatus hzero List.mem_cons_self ?_
      simp [mirrorOf,hstatus,hzero]
    · refine .keeps sub.id m₀ rfl (.inl rfl) hstatus hzero ?_
      simp [mirrorOf,hstatus,hzero]
  · refine .clears hstatus ?_
    simp [mirrorOf,hstatus]

theorem sets_mirrorOf_error (t : Time) (e : Err) :
    Sets p (⟨.store (.getSubscription sub.id),.error e⟩::⟨.now,t⟩::log)
      (mirrorOf p sub accountID t 0) := by
  by_cases hstatus : sub.status=.pastDue
  · refine .begins e t rfl hstatus List.mem_cons_self ?_
    simp [mirrorOf,hstatus]
  · refine .clears hstatus ?_
    simp [mirrorOf,hstatus]

theorem syncSubscription_syncing (hsub : c.mirrors log sub sub.status) :
    Makes (Syncing p c) log (syncSubscription p sub accountID) := by
  refine obeys_step ⟨⟨trivial,trivial⟩,rfl⟩ fun t => obeys_step ⟨⟨trivial,trivial⟩,rfl⟩
    fun existing => obeys_step ⟨⟨?_,?_⟩,rfl⟩ fun r => ?_
  · exact .inl ⟨sub,c.grows hsub ((List.suffix_cons _ _).trans (List.suffix_cons _ _)),rfl,rfl⟩
  · cases existing with
    | error e => exact sets_mirrorOf_error sub accountID t e
    | ok m₀ => exact sets_mirrorOf_ok sub accountID t m₀
  rcases r with e | u
  · exact trivial
  have habout : c.About log sub.id := .inl ⟨sub,sub.status,hsub,rfl⟩
  have hm (l : List Auth.Event) (hl : log <:+ l) (m : Subscription) (hid : sub.id=m.id) :
      c.Provides (⟨.store (.upsertSubscription m),.ok ()⟩::l) m :=
    ⟨hid ▸ habout.mono (hl.trans (List.suffix_cons _ _)),saw_head _ _ _⟩
  have hlog : log <:+ ⟨.store (.getSubscription sub.id),existing⟩::⟨.now,t⟩::log :=
    (List.suffix_cons _ _).trans (List.suffix_cons _ _)
  refine obeys_ok (ensureLicenses_syncing _ _ (hm _ hlog _ rfl)) fun u l _ hl => ?_
  exact obeys_ite (fun _ => enforce_syncing _ _) fun _ =>
    reactivate_syncing ((hm _ hlog _ rfl).mono hl).restores

end Mirror

theorem checkoutAccount_does (cs : Stripe.CheckoutSession) (customerID : String) :
    Makes (Does p c) log (checkoutAccount cs customerID) := by
  unfold checkoutAccount
  split
  · exact trivial
  · exact obeys_ok (resolveAccount_does _) fun _ _ _ _ => trivial

theorem bindClaim_does (cs : Stripe.CheckoutSession) (accountID subID : String) :
    Makes (Does p c) log (bindClaim cs accountID subID) := by
  have hclaimed : Makes (Does p c) log (claimedLicense subID) := by
    refine obeys_step ⟨trivial,trivial⟩ fun r => ?_
    rcases r with e | _ | l <;> exact trivial
  refine obeys_unless fun _ => ?_
  exact obeys_seq hclaimed fun licenseID l _ _ => obeys_store ⟨trivial,trivial⟩ fun _ => trivial

theorem handleCheckoutCompleted_does (cs : Option Stripe.CheckoutSession)
    (hcs : ∀ l id sub,(⟨.stripeGetSubscription id,.ok sub⟩ : Auth.Event)∈l →
      c.mirrors l sub sub.status) : Makes (Does p c) log (handleCheckoutCompleted p cs) := by
  cases cs with
  | none => exact trivial
  | some cs =>
    refine obeys_unless fun _ => ?_
    refine obeys_ok (checkoutAccount_does _ _) fun accountID l _ _ => ?_
    refine obeys_step ⟨trivial,trivial⟩ fun t => obeys_store ⟨trivial,trivial⟩ fun u => ?_
    refine obeys_unless fun _ => obeys_step ⟨trivial,trivial⟩ fun r => ?_
    rcases r with e | sub
    · exact trivial
    refine obeys_seq (does_of_syncing (syncSubscription_syncing sub accountID
      (hcs _ _ sub List.mem_cons_self))) fun r l _ _ => ?_
    rcases r with e | u
    · exact trivial
    · exact bindClaim_does _ _ _

theorem handleSubscriptionUpsert_does (sub : Option Stripe.Subscription)
    (hsub : ∀ o,sub=some o → c.mirrors log o o.status) :
    Makes (Does p c) log (handleSubscriptionUpsert p sub) := by
  cases sub with
  | none => exact trivial
  | some o =>
    refine obeys_ok (resolveAccount_does _) fun accountID l _ hl => ?_
    exact does_of_syncing (syncSubscription_syncing o accountID (c.grows (hsub o rfl) hl))

theorem handleSubscriptionDeleted_does (sub : Option Stripe.Subscription)
    (hsub : ∀ o,sub=some o → c.mirrors log o .canceled) :
    Obeys (Does p c) (fun res l => res = .ok () → ∀ o,sub=some o →
        ∃ m,m.id=o.id ∧ Saw l (.upsertSubscription m) (.ok ())) log
      (handleSubscriptionDeleted sub) := by
  cases sub with
  | none => exact obeys_pure (fun h => by cases h)
  | some o =>
    refine obeys_seq (resolveAccount_does _) fun r l _ hl => ?_
    rcases r with e | accountID
    · exact obeys_pure (fun h => by cases h)
    refine obeys_step ⟨trivial,trivial⟩ fun t => obeys_step ⟨?_,.clears (by simp) rfl⟩ fun r => ?_
    · exact .inl ⟨o,c.grows (hsub o rfl) (hl.trans (List.suffix_cons _ _)),rfl,rfl⟩
    rcases r with e | u
    · exact obeys_pure (fun h => by cases h)
    refine obeys_mono (obeys_grows (does_of_syncing (enforce_syncing _ _)))
      fun res l' hl' _ o' ho' => ?_
    cases ho'
    exact ⟨_,rfl,(saw_head _ _ _).mono hl'.2⟩

theorem graceDeadline_syncing (id : String) (m₀ : Subscription)
    (hread : lastRead log=some (id,.ok m₀)) :
    Obeys (Syncing p c) (fun d l => lastRead l=some (id,.ok m₀) ∧
      (m₀.graceUntil≠0 ∧ d=m₀.graceUntil ∨
        m₀.graceUntil=0 ∧ ∃ t∈readings l,d=t+p.grace)) log (graceDeadline p m₀) := by
  unfold graceDeadline
  split
  next hzero =>
    refine obeys_step ⟨⟨trivial,trivial⟩,rfl⟩ fun t => ?_
    exact obeys_pure ⟨hread,.inr ⟨hzero,t,List.mem_cons_self,rfl⟩⟩
  next hset => exact obeys_pure ⟨hread,.inl ⟨hset,rfl⟩⟩

theorem handleInvoicePaymentFailed_syncing (inv : Option Stripe.Invoice)
    (hinv : ∀ id,invoiceSubscriptionID inv = .ok id → c.failed id) :
    Makes (Syncing p c) log (handleInvoicePaymentFailed p inv) := by
  unfold handleInvoicePaymentFailed
  split
  · exact trivial
  next subID hid =>
  refine obeys_store ⟨⟨trivial,trivial⟩,rfl⟩ fun mirror => ?_
  refine obeys_seq (graceDeadline_syncing subID mirror rfl) fun graceUntil l hdeadline hl =>
    obeys_step ⟨⟨trivial,trivial⟩,rfl⟩ fun t => obeys_store ⟨⟨?_,?_⟩,rfl⟩ fun _ => trivial
  · refine .inr ⟨subID,mirror,(Saw.mono (saw_head _ _ _) hl).tail,?_⟩
    exact ⟨rfl,rfl,.inl ⟨hinv subID hid,rfl⟩⟩
  · obtain ⟨hread,⟨hset,hkept⟩ | ⟨hzero,t',ht',hnew⟩⟩:=hdeadline
    · exact .keeps subID mirror hread (.inr rfl) rfl hset hkept
    · exact .renews subID mirror t' hread (.inr rfl) rfl hzero (List.mem_cons_of_mem _ ht') hnew

theorem handleInvoicePaid_syncing (inv : Option Stripe.Invoice)
    (hinv : ∀ id,invoiceSubscriptionID inv = .ok id → c.paid id) :
    Makes (Syncing p c) log (handleInvoicePaid inv) := by
  unfold handleInvoicePaid
  split
  · exact trivial
  next subID hid =>
  refine obeys_store ⟨⟨trivial,trivial⟩,rfl⟩ fun mirror => ?_
  refine obeys_step ⟨⟨trivial,trivial⟩,rfl⟩ fun t => obeys_store ⟨⟨?_,.clears ?_ rfl⟩,rfl⟩ fun u => ?_
  · refine .inr ⟨subID,mirror,(saw_head _ _ _).tail,rfl,rfl,.inr ⟨hinv subID hid,rfl⟩⟩
  · show (if mirror.status=.pastDue then SubStatus.active else mirror.status) ≠ .pastDue
    split
    · exact SubStatus.noConfusion
    next hstatus => exact hstatus
  · refine reactivate_syncing ⟨.inr (hinv subID hid),_,saw_head _ _ _,.inr ⟨mirror,?_⟩⟩
    exact ⟨(saw_head _ _ _).tail.tail,rfl⟩

theorem dispatch_does (ev : Stripe.Event) : Makes (Does p (.of ev)) log (dispatch p ev) := by
  unfold dispatch
  split
  · next cs he =>
    refine handleCheckoutCompleted_does cs fun l id sub hmem => ?_
    exact .inr (.inr (.inr ⟨cs,id,he,hmem,rfl⟩))
  · next sub he =>
    exact handleSubscriptionUpsert_does sub fun o ho => .inl ⟨by rw [he,ho],rfl⟩
  · next sub he =>
    exact handleSubscriptionUpsert_does sub fun o ho => .inr (.inl ⟨by rw [he,ho],rfl⟩)
  · next sub he =>
    refine obeys_mono (handleSubscriptionDeleted_does sub fun o ho => ?_) fun _ _ _ => trivial
    exact .inr (.inr (.inl ⟨by rw [he,ho],rfl⟩))
  · next inv he =>
    exact does_of_syncing (handleInvoicePaymentFailed_syncing inv fun id hid => ⟨inv,he,hid⟩)
  · next inv he =>
    exact does_of_syncing (handleInvoicePaid_syncing inv fun id hid => ⟨inv,he,hid⟩)
  · exact trivial

theorem reconcileOne_does (sub : Stripe.Subscription) :
    Makes (Does p (.the sub)) log (reconcileOne p sub) := by
  refine obeys_ok (resolveAccount_does _) fun accountID l _ _ => ?_
  exact does_of_syncing (syncSubscription_syncing sub accountID ⟨rfl,rfl⟩)

variable (p)

theorem dispatch_acts (ev : Stripe.Event) : Makes (Acts (.of ev)) log (dispatch p ev) :=
  obeys_weaken (dispatch_does ev) fun _ _ _ hop => hop.1

theorem reconcileOne_acts (sub : Stripe.Subscription) :
    Makes (Acts (.the sub)) log (reconcileOne p sub) :=
  obeys_weaken (reconcileOne_does sub) fun _ _ _ hop => hop.1

/-! ## The whole processor

Around the dispatch of events there is only the bookkeeping on them, so a discipline that
`dispatch` and `reconcileOne` keep and that permits the bookkeeping is one of the webhook
endpoint, the retries and the reconciliation. -/

def books : Op → Bool
  | .store (.setWebhookStatus _ _ _ _) | .store (.listWebhookEventsByStatus _ _) | .now
  | .dispatched _ _ | .stripeListSubscriptions => true
  | _ => false

section Lift
variable {p} (hbooks : ∀ l op, books op = true → ok l op)
include hbooks

theorem concluded_lift {α : Type} (id : String) (d : Bool) (status : WebhookStatus) (n : ℤ)
    (t : Time) {f : Except Err Unit → Handler α} (hf : ∀ l r,Makes ok l (f r)) :
    Makes ok log (dispatched id d >>= fun _ => store (.setWebhookStatus id status n t) >>= f) :=
  obeys_step (hbooks _ _ rfl) fun _ => obeys_step (hbooks _ _ rfl) fun r => hf _ r

theorem process_lift (ev : Stripe.Event) (hdispatch : Makes ok log (dispatch p ev)) :
    Makes ok log (process p ev) := by
  refine obeys_seq hdispatch fun r l _ _ => ?_
  cases r with
  | error e => exact concluded_lift hbooks _ _ _ _ _ fun _ _ => trivial
  | ok u =>
    exact obeys_step (hbooks _ _ rfl) fun _ => obeys_step (hbooks _ _ rfl) fun t =>
      obeys_store (hbooks _ _ rfl) fun _ => trivial

theorem retryEvent_lift (e : WebhookEvent)
    (hdispatch : ∀ ev,e.payload=some ev → Makes ok log (dispatch p ev)) :
    Makes ok log (retryEvent p e) := by
  unfold retryEvent
  split
  · exact obeys_step (hbooks _ _ rfl) fun t => obeys_step (hbooks _ _ rfl) fun _ => trivial
  next ev hev =>
  refine obeys_seq (hdispatch ev hev) fun r l _ _ => ?_
  cases r with
  | error e => exact concluded_lift hbooks _ _ _ _ _ fun _ _ => trivial
  | ok u =>
    exact obeys_step (hbooks _ _ rfl) fun _ => obeys_step (hbooks _ _ rfl) fun t =>
      obeys_step (hbooks _ _ rfl) fun _ => trivial

theorem retryEvents_lift (events : List WebhookEvent) (hdispatch : ∀ l,log <:+ l → ∀ e∈events,
      ∀ ev,e.payload=some ev → Makes ok l (dispatch p ev)) :
    Makes ok log (retryEvents p events) := by
  induction events generalizing log with
  | nil => exact trivial
  | cons e events ih =>
    refine obeys_seq (retryEvent_lift hbooks e (hdispatch log List.suffix_rfl e List.mem_cons_self))
      fun _ l _ hl => obeys_seq (ih fun l' hl' e' he' => ?_) fun _ _ _ _ => trivial
    exact hdispatch l' (hl.trans hl') e' (List.mem_cons_of_mem _ he')

theorem retryFailed_lift (limit : ℕ) (hdispatch : ∀ l events,
      Saw l (.listWebhookEventsByStatus .failed limit) (.ok events) → ∀ e∈events,
      ∀ ev,e.payload=some ev → Makes ok l (dispatch p ev)) :
    Makes ok log (retryFailed p limit) := by
  refine obeys_store (hbooks _ _ rfl) fun events => ?_
  exact obeys_seq (retryEvents_lift hbooks events fun l hl =>
    hdispatch l events (Saw.mono (saw_head _ _ _) hl)) fun _ _ _ _ => trivial

theorem reconcile_lift (hone : ∀ l subs,(⟨.stripeListSubscriptions,.ok subs⟩ : Auth.Event)∈l →
      ∀ sub∈subs,Makes ok l (reconcileOne p sub)) : Makes ok log (reconcile p) := by
  have hall (subs : List Stripe.Subscription) (l : List Auth.Event)
      (hsubs : ∀ l',l <:+ l' → ∀ sub∈subs,Makes ok l' (reconcileOne p sub)) :
      Makes ok l (reconcileAll p subs) := by
    induction subs generalizing l with
    | nil => exact trivial
    | cons sub subs ih =>
      refine obeys_seq (hsubs l List.suffix_rfl sub List.mem_cons_self) fun one l' _ hl' => ?_
      refine obeys_seq (ih l' fun l'' hl'' o ho => ?_) fun rest _ _ _ => ?_
      · exact hsubs l'' (hl'.trans hl'') o (List.mem_cons_of_mem _ ho)
      · rcases one with e | u <;> exact trivial
  refine obeys_step (hbooks _ _ rfl) fun r => ?_
  rcases r with e | subs
  · exact trivial
  · exact hall subs _ fun l hl => hone l subs (hl.subset List.mem_cons_self)

theorem handleWebhook_lift {srv : Service} (payload : Option Stripe.Event) (signed : Bool)
    (hinsert : ∀ l e,e.payload=payload → ok l (.store (.insertWebhookEventIfAbsent e)))
    (hdispatch : ∀ l ev,payload=some ev → Makes ok l (dispatch srv.proc ev)) :
    Makes ok log (handleWebhook srv payload signed) := by
  refine obeys_unless fun _ => ?_
  rcases hv : verify payload signed with _ | ev
  · exact trivial
  have hrecord : Makes ok log (record ev payload) :=
    obeys_step (hbooks _ _ rfl) fun t => obeys_step (hinsert _ _ rfl) fun _ => trivial
  refine obeys_seq hrecord fun r l _ _ => ?_
  rcases r with e | _ | _
  · exact trivial
  · exact trivial
  refine obeys_seq (process_lift hbooks ev (hdispatch l ev (verify_eq_some hv))) fun r l _ _ => ?_
  rcases r with e | u <;> exact trivial

end Lift

def bills : Op → Bool
  | .store (.upsertSubscription _) | .store (.createLicense _) | .store (.setLicenseStatus _ _)
  | .store (.getAccountByCustomer _) | .store (.upsertAccount _) | .store (.getSubscription _)
  | .store (.listLicensesBySubscription _) | .store (.listActivePairingsByLicense _)
  | .store (.markCheckoutClaimReady _ _ _ _ _) | .store (.insertWebhookEventIfAbsent _)
  | .store (.setWebhookStatus _ _ _ _) | .store (.listWebhookEventsByStatus _ _) => true
  | .store (.setPairingStatus _ status) => status == .revoked
  | .now | .newKey | .stripeGetSubscription _ | .stripeListSubscriptions | .publishRevocation _
  | .dispatched _ _ => true
  | .newID tag => tag == "acct"
  | _ => false

abbrev Bills : List Auth.Event → Op → Prop := fun _ op => bills op = true

theorem bills_of_acts {op : Op} (h : Acts c log op) : bills op=true := by
  cases op with
  | store sop =>
    cases sop with
    | setPairingStatus pairID status =>
      obtain rfl : status=.revoked := h
      rfl
    | _ => first | rfl | exact absurd h id
  | newID tag =>
    obtain rfl : tag = "acct" := h
    rfl
  | mint => exact absurd h id
  | _ => rfl

theorem dispatch_bills (ev : Stripe.Event) : Makes Bills log (dispatch p ev) :=
  obeys_weaken (dispatch_acts p ev) fun _ _ _ => bills_of_acts

theorem bills_of_books {op : Op} (h : books op=true) : bills op=true := by
  unfold books at h
  split at h
  · rfl
  · rfl
  · rfl
  · rfl
  · rfl
  · cases h

theorem handleWebhook_bills (srv : Service) (payload : Option Stripe.Event) (signed : Bool) :
    Makes Bills log (handleWebhook srv payload signed) :=
  handleWebhook_lift (fun _ _ => bills_of_books) payload signed (fun _ _ _ => rfl) fun _ ev _ =>
    dispatch_bills srv.proc ev

theorem retryFailed_bills (limit : ℕ) : Makes Bills log (retryFailed p limit) :=
  retryFailed_lift (fun _ _ => bills_of_books) limit fun _ _ _ _ _ ev _ => dispatch_bills p ev

theorem reconcile_bills : Makes Bills log (reconcile p) :=
  reconcile_lift (fun _ _ => bills_of_books) fun _ _ _ sub _ =>
    obeys_weaken (reconcileOne_acts p sub) fun _ _ _ => bills_of_acts

end SecureGateway.Billing
