import SecureGateway.Billing.Cancellation
import SecureGateway.Lib.Triple

/-!
# The account of a license

A license keeps the account it was created with, while the mirror is rewritten with whatever
account the event resolves to. Two paths change the link of a customer who may have licenses:
a checkout with a `client_reference_id`, and a lookup of the link that fails. `settled` says
of an event that it does neither.
-/

namespace SecureGateway.Billing
open Authstore Auth Prog
open Stripe (customerIDOf subscriptionIDOf)

variable (custOf : String → String)

def licensesOf (s : Store) (customerID : String) : List License :=
  s.licenses.list fun l => custOf l.subscriptionID == customerID

/-- What the objects in an event and in Stripe's answers say of the customers:
`custOf` gives the one customer of a subscription. -/
def consistent (d : Delivery) : Bool :=
  match d.1.data with
  | .customerSubscriptionCreated (some sub) | .customerSubscriptionUpdated (some sub)
  | .customerSubscriptionDeleted (some sub) => customerIDOf sub.customer == custOf sub.id
  | .checkoutSessionCompleted (some cs) =>
    (subscriptionIDOf cs.subscription == "" ||
        custOf (subscriptionIDOf cs.subscription) == customerIDOf cs.customer) &&
      d.2.all fun a => a.subscription.all fun sub => sub.id == subscriptionIDOf cs.subscription
  | _ => true

/- The customer has no license yet or the lookup of the account, which is the
first call, does not fail. -/
def lookupSettled (w : World) (as : List Answer) (customerID : String) : Bool :=
  !(as.headD {}).fault || (licensesOf custOf w.store customerID).isEmpty

/-- The event leaves the customer's licenses with the account the customer is
linked to. -/
def settled (w : World) (d : Delivery) : Bool :=
  match d.1.data with
  | .customerSubscriptionCreated (some sub) | .customerSubscriptionUpdated (some sub)
  | .customerSubscriptionDeleted (some sub) =>
    lookupSettled custOf w d.2 (customerIDOf sub.customer)
  | .checkoutSessionCompleted (some cs) =>
    if cs.clientReferenceID = "" then lookupSettled custOf w d.2 (customerIDOf cs.customer)
    else (licensesOf custOf w.store (customerIDOf cs.customer)).all fun l =>
      l.accountID == cs.clientReferenceID
  | _ => true

/-- A license has the account its customer is linked to, and so has the mirror of
its subscription. -/
structure Owned (s : Store) : Prop where
  linked : ∀ (c id : String), s.customerToAcct[c]? = some id → ∃ a, s.accounts.get id = some a
  owned : ∀ k l, s.licenses.get k = some l →
    s.customerToAcct[custOf l.subscriptionID]? = some l.accountID
  mirrored : ∀ k l, s.licenses.get k = some l →
    ∃ m, s.subscriptions.get l.subscriptionID = some m ∧ m.accountID=l.accountID

/- The customer's licenses, if there are any, have this account. -/
def Belongs (s : Store) (customerID accountID : String) : Prop :=
  ∀ k l, s.licenses.get k = some l → custOf l.subscriptionID = customerID → l.accountID=accountID

def LinkedTo (s : Store) (customerID accountID : String) : Prop :=
  s.customerToAcct[customerID]? = some accountID

variable {custOf} {s : Store}

theorem owned_empty : Owned custOf {} where
  linked c id h := by simp at h
  owned k l h := by simp at h
  mirrored k l h := by simp at h

theorem Owned.belongs (h : Owned custOf s) {c accountID : String} (hl : LinkedTo s c accountID) :
    Belongs custOf s c accountID := by
  intro k l hget hc
  have howned:=h.owned k l hget
  rw [hc,hl] at howned
  exact (Option.some.inj howned).symm

theorem belongs_of_all {c accountID : String}
    (h : ((licensesOf custOf s c).all fun l => l.accountID == accountID)=true) :
    Belongs custOf s c accountID := by
  intro k l hget hc
  have hmem : l∈licensesOf custOf s c := Table.mem_list_of_get hget (by simp [hc])
  simpa using List.all_eq_true.1 h l hmem

theorem belongs_of_isEmpty {c : String} (h : (licensesOf custOf s c).isEmpty=true)
    (accountID : String) : Belongs custOf s c accountID := by
  refine belongs_of_all ?_
  rw [List.isEmpty_iff.1 h]
  rfl

theorem linkedTo_upsertAccount {a : Account} (hc : a.stripeCustomerID ≠ "") (c : String) :
    (s.upsertAccount a).customerToAcct[c]? =
      if a.stripeCustomerID=c then some a.id else s.customerToAcct[c]? := by
  obtain ⟨merged,-,heq⟩:=s.upsertAccount_eq hc
  simp [heq,Std.ExtTreeMap.getElem?_insert]

theorem Owned.upsertAccount (h : Owned custOf s) {a : Account} (hc : a.stripeCustomerID ≠ "")
    (hb : Belongs custOf s a.stripeCustomerID a.id) : Owned custOf (s.upsertAccount a) := by
  have hlink:=linkedTo_upsertAccount (s := s) hc
  obtain ⟨merged,hid,heq⟩:=s.upsertAccount_eq hc
  constructor
  · intro c id hl
    rw [hlink] at hl
    simp only [heq,Table.get_put,hid]
    split
    · exact ⟨merged,rfl⟩
    next hne =>
    split at hl
    · exact absurd (Option.some.inj hl) hne
    · exact h.linked c id hl
  · intro k l hget
    have hold : s.licenses.get k=some l := by simpa only [heq] using hget
    rw [hlink]
    split
    · next hcust => rw [hb k l hold hcust.symm]
    · exact h.owned k l hold
  · intro k l hget
    simp only [heq] at hget ⊢
    exact h.mirrored k l hget

theorem Owned.upsertSubscription (h : Owned custOf s) {m : Subscription}
    (hm : ∀ k l,s.licenses.get k=some l → l.subscriptionID=m.id → l.accountID=m.accountID) :
    Owned custOf { s with subscriptions := s.subscriptions.put m } where
  linked := h.linked
  owned := h.owned
  mirrored k l hget := by
    by_cases hid : m.id=l.subscriptionID
    · exact ⟨m,by rw [← hid]; exact Table.get_put_self _ _,(hm k l hget hid.symm).symm⟩
    · obtain ⟨m',hget',hacct⟩:=h.mirrored k l hget
      exact ⟨m',by rw [Table.get_put_ne _ _ hid]; exact hget',hacct⟩

theorem Owned.createLicense (h : Owned custOf s) {l : License}
    (hl : LinkedTo s (custOf l.subscriptionID) l.accountID)
    (hm : ∃ m,s.subscriptions.get l.subscriptionID=some m ∧ m.accountID=l.accountID) :
    Owned custOf { s with licenses := s.licenses.put l } where
  linked := h.linked
  owned := Table.forall_get_put hl h.owned
  mirrored := Table.forall_get_put hm h.mirrored

theorem Owned.licenseStatus (h : Owned custOf s) {id : String} {l : License}
    (hget : s.licenses.get id=some l) (status : LicenseStatus) :
    Owned custOf { s with licenses := s.licenses.put { l with status := status } } where
  linked := h.linked
  owned := Table.forall_get_put (h.owned id l hget) h.owned
  mirrored := Table.forall_get_put (h.mirrored id l hget) h.mirrored

def Answers (good : Stripe.Subscription → Prop) (as : List Answer) : Prop :=
  ∀ a ∈ as, ∀ sub, a.subscription = some sub → good sub

/-- What a handler that runs alone makes of the store, whatever its calls answer. -/
def Keeps {α : Type} (good : Stripe.Subscription → Prop) (pre : Store → Prop) (p : Handler α)
    (post : α → Store → Prop) : Prop :=
  Triple answer (fun x => pre x.1.store ∧ Answers good x.2) p
    fun r x => post r x.1.store ∧ Answers good x.2

section Rules
variable {α β : Type} {good : Stripe.Subscription → Prop} {pre : Store → Prop}
  {post : α → Store → Prop}

theorem Answers.tail {as : List Answer} (h : Answers good as) : Answers good as.tail :=
  fun a ha => h a (List.mem_of_mem_tail ha)

theorem Answers.head {as : List Answer} (h : Answers good as) {sub : Stripe.Subscription}
    (hsub : (as.headD {}).subscription=some sub) : good sub := by
  cases as with
  | nil => cases hsub
  | cons a as => exact h a List.mem_cons_self sub hsub

theorem keeps_pure {a : α} (ha : ∀ s,pre s → post a s) : Keeps good pre (pure a : Handler α) post :=
  triple_pure fun _ hs => ⟨ha _ hs.1,hs.2⟩

theorem keeps_bind {q : β → Store → Prop} {p : Handler β} {f : β → Handler α}
    (hp : Keeps good pre p q) (hf : ∀ b,Keeps good (q b) (f b) post) :
    Keeps good pre (p >>= f) post :=
  triple_bind hp hf

theorem keeps_store {op : StoreOp} {q : op.Res → Store → Prop} {f : op.Res → Handler α}
    (hfault : ∀ s,pre s → q (.error .fault) s)
    (hexec : ∀ s m,pre s → q (s.exec m op).1 (s.exec m op).2)
    (hf : ∀ r,Keeps good (q r) (f r) post) : Keeps good pre (Auth.store op >>= f) post := by
  refine triple_step (fun x hx => ⟨?_,hx.2.tail⟩) hf
  cases hfault' : (x.2.headD {}).fault with
  | true => simpa only [answer,Auth.perform,hfault',if_true] using hfault x.1.store hx.1
  | false =>
    simpa only [answer,Auth.perform,hfault',Bool.false_eq_true,if_false] using
      hexec x.1.store _ hx.1

theorem keeps_other {op : Op} {f : op.Rep → Handler α}
    (hop : ∀ a w,(perform a op w).2.store=w.store) (hf : ∀ r,Keeps good pre (f r) post) :
    Keeps good pre (Prog.perform op >>= f) post := by
  refine triple_step (fun x hx => ⟨?_,hx.2.tail⟩) hf
  show pre (Auth.perform (x.2.headD {}) op x.1).2.store
  rw [hop]
  exact hx.1

theorem keeps_stripeGetSubscription {id : String} {f : Except Err Stripe.Subscription → Handler α}
    (hf : ∀ r,(∀ sub,r = .ok sub → good sub) → Keeps good pre (f r) post) :
    Keeps good pre (stripeGetSubscription id >>= f) post := by
  refine triple_bind (q := fun r x => (∀ sub,r = .ok sub → good sub) ∧ pre x.1.store ∧
    Answers good x.2) (p := stripeGetSubscription id) (fun x hx => ⟨fun sub hsub => ?_,hx.1,hx.2.tail⟩)
    fun r x hx => hf r hx.1 x hx.2
  exact hx.2.head (answered_eq_ok.1 hsub)

theorem keeps_ite {c : Prop} [Decidable c] {p p' : Handler α} (hc : c → Keeps good pre p post)
    (hc' : ¬ c → Keeps good pre p' post) : Keeps good pre (if c then p else p') post :=
  triple_ite hc hc'

theorem keeps_mono {pre' : Store → Prop} {post' : α → Store → Prop} {p : Handler α}
    (hp : Keeps good pre p post) (hpre : ∀ s,pre' s → pre s)
    (hpost : ∀ a s,post a s → post' a s) : Keeps good pre' p post' :=
  triple_mono hp (fun _ hx => ⟨hpre _ hx.1,hx.2⟩) fun _ _ hx => ⟨hpost _ _ hx.1,hx.2⟩

theorem keeps_and {pre' : Store → Prop} {post' : α → Store → Prop} {p : Handler α}
    (hp : Keeps good pre p post) (hp' : Keeps good pre' p post') :
    Keeps good (fun s => pre s ∧ pre' s) p fun r s => post r s ∧ post' r s :=
  triple_mono (triple_and hp hp') (fun _ hx => ⟨⟨hx.1.1,hx.2⟩,hx.1.2,hx.2⟩)
    fun _ _ hx => ⟨⟨hx.1.1,hx.2.1⟩,hx.1.2⟩

theorem keeps_of_obeys (ok : Op → Bool) {p : Handler α} (hp : Makes (fun _ op => ok op=true) [] p)
    (hstep : ∀ a op w,ok op=true → pre w.store → pre (perform a op w).2.store) :
    Keeps good pre p fun _ => pre := by
  intro x hx
  obtain ⟨hinv,-⟩:=run_obeys answer (fun _ op => ok op=true)
    (fun _ x => pre x.1.store ∧ Answers good x.2)
    (fun _ op x hx hop => ⟨hstep _ op x.1 hop hx.1,hx.2.tail⟩) _ p [] x hp hx
  exact hinv

end Rules

variable {good : Stripe.Subscription → Prop}

theorem resolveAccount_keeps (custOf : String → String) (good : Stripe.Subscription → Prop)
    (c : String) :
    Triple answer (fun x => (Owned custOf x.1.store ∧ ((x.2.headD {}).fault=false ∨
        ∀ accountID,Belongs custOf x.1.store c accountID)) ∧ Answers good x.2)
      (resolveAccount c) fun r x => (Owned custOf x.1.store ∧
        ∀ accountID,r = .ok accountID → LinkedTo x.1.store c accountID) ∧ Answers good x.2 := by
  refine triple_ite (fun _ => triple_pure fun x hx => ⟨⟨hx.1.1,fun _ h => by cases h⟩,hx.2⟩)
    fun hc => ?_
  -- either the account was found, or the customer has no licenses
  refine triple_step (q := fun r x => (Owned custOf x.1.store ∧ match r with
    | .ok acct => LinkedTo x.1.store c acct.id
    | .error _ => ∀ accountID,Belongs custOf x.1.store c accountID) ∧ Answers good x.2) ?_ ?_
  · rintro ⟨w,as⟩ ⟨⟨howned,hlookup⟩,hanswers⟩
    cases hf : (as.headD {}).fault with
    | true =>
      have hnone:=hlookup.resolve_left fun hok => by
        rw [hf] at hok
        cases hok
      simp only [answer,Auth.perform,hf,if_true]
      exact ⟨⟨howned,hnone⟩,hanswers.tail⟩
    | false =>
      simp only [answer,Auth.perform,hf,Bool.false_eq_true,if_false,Store.exec,
        Store.getAccountByCustomer]
      cases hlink : w.store.customerToAcct[c]? with
      | some id =>
        obtain ⟨acct,hacct⟩:=howned.linked c id hlink
        have hid : acct.id=id := Table.key_of_get hacct
        simp only [hacct,Option.getD_some]
        exact ⟨⟨howned,by rw [hid]; exact hlink⟩,hanswers.tail⟩
      | none =>
        refine ⟨⟨howned,fun accountID k l hget hcust => ?_⟩,hanswers.tail⟩
        have hown:=howned.owned k l hget
        rw [hcust,hlink] at hown
        cases hown
  · rintro (e | acct)
    · show Keeps good (fun s => Owned custOf s ∧ ∀ accountID,Belongs custOf s c accountID) _
        fun (r : Except Err String) s => Owned custOf s ∧
          ∀ accountID,r = .ok accountID → LinkedTo s c accountID
      refine keeps_other (fun _ _ => rfl) fun id => keeps_other (fun _ _ => rfl) fun t => ?_
      refine keeps_store (q := fun r s => Owned custOf s ∧ (r = .ok () → LinkedTo s c id))
        (fun s hs => ⟨hs.1,fun h => by cases h⟩) (fun s now hs => ?_) fun r => ?_
      · have hlink:=linkedTo_upsertAccount (s := s)
          (a := { id := id, stripeCustomerID := c, createdAt := t }) hc c
        rw [if_pos rfl] at hlink
        exact ⟨hs.1.upsertAccount hc (hs.2 id),fun _ => hlink⟩
      · rcases r with e | u
        · exact keeps_pure fun s hs => ⟨hs.1,fun _ h => by cases h⟩
        refine keeps_pure fun s hs => ⟨hs.1,fun accountID h => ?_⟩
        cases h
        exact hs.2 rfl
    · refine triple_pure fun x hx => ⟨⟨hx.1.1,fun accountID h => ?_⟩,hx.2⟩
      cases h
      exact hx.1.2

/- The mirror is stored, and its customer is linked to its account. -/
def Placed (custOf : String → String) (m : Subscription) (s : Store) : Prop :=
  Owned custOf s ∧ LinkedTo s (custOf m.id) m.accountID ∧ s.subscriptions.get m.id = some m

theorem provision_keeps (m : Subscription) (itemID : String) (missing : ℕ) :
    Keeps good (Placed custOf m) (provision m itemID missing) fun _ => Owned custOf := by
  induction missing with
  | zero => exact keeps_pure fun s hs => hs.1
  | succ missing ih =>
    refine keeps_other (fun _ _ => rfl) fun id => keeps_other (fun _ _ => rfl) fun t => ?_
    refine keeps_store (q := fun _ => Placed custOf m) (fun s hs => hs) (fun s now hs => ?_)
      fun r => ?_
    · simp only [Store.exec,Store.createLicense]
      split
      · exact hs
      · exact ⟨hs.1.createLicense hs.2.1 ⟨m,hs.2.2,rfl⟩,hs.2⟩
    · rcases r with e | u
      · exact keeps_pure fun s hs => hs.1
      · exact ih

theorem ensureLicenses_keeps (m : Subscription) (sub : Stripe.Subscription) :
    Keeps good (Placed custOf m) (ensureLicenses m sub) fun _ => Owned custOf := by
  refine keeps_store (q := fun _ => Placed custOf m) (fun s hs => hs) (fun s now hs => hs)
    fun r => ?_
  rcases r with e | existing
  · exact keeps_pure fun s hs => hs.1
  · exact provision_keeps m _ _

def restates : Op → Bool
  | .store (.setLicenseStatus _ _) | .store (.setPairingStatus _ _)
  | .store (.listLicensesBySubscription _) | .store (.listActivePairingsByLicense _)
  | .publishRevocation _ => true
  | _ => false

theorem restates_keeps {q : Handler (Except Err Unit)}
    (hq : Makes (fun _ op => restates op=true) [] q) :
    Keeps good (Owned custOf) q fun _ => Owned custOf := by
  refine keeps_of_obeys restates hq fun a op w hop hw => ?_
  rcases perform_writes a op w with hsame | ⟨sop,rfl,hwrites⟩
  · rw [hsame]
    exact hw
  generalize (Auth.perform a (.store sop) w).2.store=s' at hwrites
  cases hwrites with
  | licenseStatus id status l hold => exact hw.licenseStatus hold status
  | account | subscription | license => cases hop
  | _ => exact ⟨hw.linked,hw.owned,hw.mirrored⟩

theorem enforce_keeps (subID : String) (behavior : License.Behavior) :
    Keeps good (Owned custOf) (enforce subID behavior) fun _ => Owned custOf := by
  refine restates_keeps (obeys_weaken (enforce_enforces subID behavior) fun _ op _ hop => ?_)
  cases op with
  | store sop => cases sop <;> first | rfl | cases hop
  | publishRevocation => rfl
  | _ => cases hop

theorem reactivate_keeps (subID : String) :
    Keeps good (Owned custOf) (reactivate subID) fun _ => Owned custOf :=
  restates_keeps (reactivate_obeys rfl fun _ _ _ _ _ _ => rfl)

theorem Owned.place (h : Owned custOf s) {m : Subscription}
    (hl : LinkedTo s (custOf m.id) m.accountID) :
    Placed custOf m { s with subscriptions := s.subscriptions.put m } := by
  refine ⟨h.upsertSubscription fun k l hget hid => ?_,hl,Table.get_put_self _ _⟩
  exact h.belongs hl k l hget (by rw [hid])

theorem upsertSubscription_keeps {m : Subscription}
    {f : Except Err Unit → Handler (Except Err Unit)}
    (herr : ∀ e,Keeps good (Owned custOf) (f (.error e)) fun _ => Owned custOf)
    (hok : Keeps good (Placed custOf m) (f (.ok ())) fun _ => Owned custOf) :
    Keeps good (fun s => Owned custOf s ∧ LinkedTo s (custOf m.id) m.accountID)
      (Auth.store (.upsertSubscription m) >>= f) fun _ => Owned custOf := by
  refine keeps_store (q := fun r s => Owned custOf s ∧ (r = .ok () → Placed custOf m s))
    (fun s hs => ⟨hs.1,fun h => by cases h⟩) (fun s now hs => ?_) fun r => ?_
  · exact ⟨(hs.1.place hs.2).1,fun _ => hs.1.place hs.2⟩
  rcases r with e | u
  · exact keeps_mono (herr e) (fun s hs => hs.1) fun _ _ hs => hs
  · exact keeps_mono hok (fun s hs => hs.2 rfl) fun _ _ hs => hs

variable (p : Processor) (cs : Stripe.CheckoutSession) (sub : Stripe.Subscription)

theorem syncSubscription_keeps (accountID : String) :
    Keeps good (fun s => Owned custOf s ∧ LinkedTo s (custOf sub.id) accountID)
      (syncSubscription p sub accountID) fun _ => Owned custOf := by
  refine keeps_other (fun _ _ => rfl) fun t => ?_
  refine keeps_store (q := fun _ s => Owned custOf s ∧ LinkedTo s (custOf sub.id) accountID)
    (fun s hs => hs) (fun s now hs => hs) fun existing => ?_
  refine upsertSubscription_keeps (m := mirrorOf p sub accountID t _) ?_ ?_
  · exact fun e => keeps_pure fun s hs => hs
  refine keeps_bind (ensureLicenses_keeps _ sub) fun r => ?_
  rcases r with e | u
  · exact keeps_pure fun s hs => hs
  · exact keeps_ite (fun _ => enforce_keeps _ _) fun _ => reactivate_keeps _

theorem belongs_of_lookupSettled {w : World} {as : List Answer} {c : String}
    (h : lookupSettled custOf w as c=true) :
    (as.headD {}).fault=false ∨ ∀ accountID,Belongs custOf w.store c accountID := by
  rcases Bool.or_eq_true_iff.1 h with hf | hempty
  · exact .inl (by simpa using hf)
  · exact .inr (belongs_of_isEmpty hempty)

variable (good) in
theorem resolve_owned {c : String} {f : Except Err String → Handler (Except Err Unit)}
    (herr : ∀ e,Keeps good (Owned custOf) (f (.error e)) fun _ => Owned custOf)
    (hok : ∀ accountID,Keeps good (fun s => Owned custOf s ∧ LinkedTo s c accountID)
      (f (.ok accountID)) fun _ => Owned custOf) (w : World) (as : List Answer)
    (hw : Owned custOf w.store) (has : Answers good as)
    (hlookup : lookupSettled custOf w as c=true) :
    Owned custOf (serve (resolveAccount c >>= f) as w).2.store := by
  have hrest (r : Except Err String) : Keeps good
      (fun s => Owned custOf s ∧ ∀ accountID,r = .ok accountID → LinkedTo s c accountID) (f r)
      fun _ => Owned custOf := by
    rcases r with e | accountID
    · exact keeps_mono (herr e) (fun s hs => hs.1) fun _ _ hs => hs
    · exact keeps_mono (hok accountID) (fun s hs => ⟨hs.1,hs.2 accountID rfl⟩) fun _ _ hs => hs
  have hrun:=triple_bind (resolveAccount_keeps custOf good c) hrest (w,as)
    ⟨⟨hw,belongs_of_lookupSettled hlookup⟩,has⟩
  exact hrun.1

theorem handleSubscriptionUpsert_owned (w : World) (as : List Answer) (hw : Owned custOf w.store)
    (hc : customerIDOf sub.customer=custOf sub.id)
    (hlookup : lookupSettled custOf w as (customerIDOf sub.customer)=true) :
    Owned custOf (serve (handleSubscriptionUpsert p (some sub)) as w).2.store := by
  refine resolve_owned (fun _ => True) (fun e => keeps_pure fun s hs => hs)
    (fun accountID => ?_) w as hw (fun _ _ _ _ => trivial) hlookup
  rw [hc]
  exact syncSubscription_keeps p sub accountID

theorem handleSubscriptionDeleted_owned (w : World) (as : List Answer) (hw : Owned custOf w.store)
    (hc : customerIDOf sub.customer=custOf sub.id)
    (hlookup : lookupSettled custOf w as (customerIDOf sub.customer)=true) :
    Owned custOf (serve (handleSubscriptionDeleted (some sub)) as w).2.store := by
  refine resolve_owned (fun _ => True) (fun e => keeps_pure fun s hs => hs)
    (fun accountID => keeps_other (fun _ _ => rfl) fun t => ?_) w as hw (fun _ _ _ _ => trivial)
    hlookup
  rw [hc]
  refine upsertSubscription_keeps (m := ⟨sub.id,accountID,_,_,_,_,_⟩) ?_ ?_
  · exact fun e => keeps_pure fun s hs => hs
  · exact keeps_mono (enforce_keeps sub.id .revoked) (fun s hs => hs.1) fun _ _ hs => hs

theorem graceDeadline_keeps {pre : Store → Prop} (m : Subscription) :
    Keeps good pre (graceDeadline p m) fun _ => pre :=
  keeps_ite (fun _ => keeps_other (fun _ _ => rfl) fun _ => keeps_pure fun _ hs => hs)
    fun _ => keeps_pure fun _ hs => hs

theorem Owned.rewrite (h : Owned custOf s) {m m' : Subscription}
    (hget : s.subscriptions.get m.id=some m) (hid : m'.id=m.id) (hacct : m'.accountID=m.accountID) :
    Owned custOf { s with subscriptions := s.subscriptions.put m' } := by
  refine h.upsertSubscription fun k l hl hsub => ?_
  obtain ⟨m₀,hm₀,heq⟩:=h.mirrored k l hl
  rw [hsub,hid,hget] at hm₀
  cases hm₀
  rw [hacct,heq]

def ReadMirror (custOf : String → String) (r : Except Err Subscription) (s : Store) : Prop :=
  Owned custOf s ∧ ∀ m, r = .ok m → s.subscriptions.get m.id = some m

theorem getSubscription_keeps {α : Type} {subID : String} {f : Except Err Subscription → Handler α}
    {post : α → Store → Prop} (hf : ∀ r,Keeps good (ReadMirror custOf r) (f r) post) :
    Keeps good (Owned custOf) (Auth.store (.getSubscription subID) >>= f) post := by
  refine keeps_store (fun s hs => ⟨hs,fun m h => by cases h⟩) (fun s now hs => ?_) hf
  refine ⟨hs,fun m hm => ?_⟩
  have hget : s.subscriptions.get subID=some m := by simpa [Store.exec] using hm
  rw [Table.key_of_get hget]
  exact hget

theorem handleInvoicePaymentFailed_keeps (inv : Option Stripe.Invoice) :
    Keeps good (Owned custOf) (handleInvoicePaymentFailed p inv) fun _ => Owned custOf := by
  unfold handleInvoicePaymentFailed
  split
  · exact keeps_pure fun s hs => hs
  refine getSubscription_keeps fun r => ?_
  rcases r with e | m
  · exact keeps_pure fun s hs => hs.1
  refine keeps_bind (graceDeadline_keeps p m) fun g => keeps_other (fun _ _ => rfl) fun t => ?_
  refine keeps_store (q := fun _ => Owned custOf) (fun s hs => hs.1)
    (fun s now hs => hs.1.rewrite (hs.2 m rfl) rfl rfl) fun r => ?_
  rcases r with e | u <;> exact keeps_pure fun s hs => hs

theorem handleInvoicePaid_keeps (inv : Option Stripe.Invoice) :
    Keeps good (Owned custOf) (handleInvoicePaid inv) fun _ => Owned custOf := by
  unfold handleInvoicePaid
  split
  · exact keeps_pure fun s hs => hs
  refine getSubscription_keeps fun r => ?_
  rcases r with e | m
  · exact keeps_pure fun s hs => hs.1
  refine keeps_other (fun _ _ => rfl) fun t => ?_
  refine keeps_store (q := fun _ => Owned custOf) (fun s hs => hs.1)
    (fun s now hs => hs.1.rewrite (hs.2 m rfl) rfl rfl) fun r => ?_
  rcases r with e | u
  · exact keeps_pure fun s hs => hs
  · exact reactivate_keeps _

theorem bindClaim_keeps (accountID subID : String) :
    Keeps good (Owned custOf) (bindClaim cs accountID subID) fun _ => Owned custOf := by
  have hclaimed : Keeps good (Owned custOf) (claimedLicense subID) fun _ => Owned custOf := by
    refine keeps_store (q := fun _ => Owned custOf) (fun s hs => hs) (fun s now hs => hs)
      fun r => ?_
    rcases r with e | _ | l <;> exact keeps_pure fun s hs => hs
  refine keeps_ite (fun _ => keeps_pure fun s hs => hs) fun _ => keeps_bind hclaimed fun id => ?_
  refine keeps_store (q := fun _ => Owned custOf) (fun s hs => hs) (fun s now hs => ?_) fun r => ?_
  · simp only [Store.exec,Store.markCheckoutClaimReady]
    split
    · split
      · exact hs
      · exact ⟨hs.linked,hs.owned,hs.mirrored⟩
    · exact hs
  · rcases r with e | u <;> exact keeps_pure fun s hs => hs

def CheckoutSettled (custOf : String → String) (cs : Stripe.CheckoutSession)
    (x : World × List Answer) : Prop :=
  if cs.clientReferenceID = "" then (x.2.headD {}).fault = false ∨
    ∀ accountID, Belongs custOf x.1.store (customerIDOf cs.customer) accountID
  else Belongs custOf x.1.store (customerIDOf cs.customer) cs.clientReferenceID

theorem checkoutAccount_keeps :
    Triple answer (fun x => (Owned custOf x.1.store ∧ CheckoutSettled custOf cs x) ∧
        Answers good x.2)
      (checkoutAccount cs (customerIDOf cs.customer)) fun r x => (Owned custOf x.1.store ∧
        ∀ accountID,r = .ok accountID →
          Belongs custOf x.1.store (customerIDOf cs.customer) accountID) ∧ Answers good x.2 := by
  refine triple_ite (fun href => ?_) fun href => ?_
  · refine triple_pure fun x hx => ⟨⟨hx.1.1,fun accountID h => ?_⟩,hx.2⟩
    cases h
    have hguard:=hx.1.2
    rwa [CheckoutSettled,if_neg href] at hguard
  refine triple_bind (triple_mono (resolveAccount_keeps custOf good _) (fun x hx => ?_)
    fun _ _ hx => hx) fun r => ?_
  · have hguard:=hx.1.2
    rw [CheckoutSettled,if_pos (not_not.1 href)] at hguard
    exact ⟨⟨hx.1.1,hguard⟩,hx.2⟩
  rcases r with e | accountID
  · exact triple_pure fun x hx => ⟨⟨hx.1.1,fun _ h => by cases h⟩,hx.2⟩
  refine triple_pure fun x hx => ⟨⟨hx.1.1,fun accountID' h => ?_⟩,hx.2⟩
  cases h
  exact hx.1.1.belongs (hx.1.2 accountID rfl)

theorem handleCheckoutCompleted_keeps (hc : subscriptionIDOf cs.subscription ≠ "" →
      custOf (subscriptionIDOf cs.subscription)=customerIDOf cs.customer) :
    Triple answer (fun x => (Owned custOf x.1.store ∧ CheckoutSettled custOf cs x) ∧
        Answers (fun sub => sub.id=subscriptionIDOf cs.subscription) x.2)
      (handleCheckoutCompleted p (some cs)) fun _ x => Owned custOf x.1.store ∧
        Answers (fun sub => sub.id=subscriptionIDOf cs.subscription) x.2 := by
  refine triple_ite (fun _ => triple_pure fun x hx => ⟨hx.1.1,hx.2⟩) fun hcust => ?_
  refine triple_bind (checkoutAccount_keeps cs) fun r => ?_
  rcases r with e | accountID
  · exact triple_pure fun x hx => ⟨hx.1.1,hx.2⟩
  show Keeps _ (fun s => Owned custOf s ∧ ∀ id,Except.ok accountID=Except.ok id →
    Belongs custOf s (customerIDOf cs.customer) id) _ fun _ => Owned custOf
  refine keeps_other (fun _ _ => rfl) fun t => ?_
  refine keeps_store (q := fun r s => Owned custOf s ∧
      (r = .ok () → LinkedTo s (customerIDOf cs.customer) accountID))
    (fun s hs => ⟨hs.1,fun h => by cases h⟩) (fun s now hs => ?_) fun r => ?_
  · have hlink:=linkedTo_upsertAccount (s := s)
      (a := { id := accountID, stripeCustomerID := customerIDOf cs.customer, createdAt := t })
      hcust (customerIDOf cs.customer)
    rw [if_pos rfl] at hlink
    exact ⟨hs.1.upsertAccount hcust (hs.2 accountID rfl),fun _ => hlink⟩
  rcases r with e | u
  · exact keeps_pure fun s hs => hs.1
  refine keeps_ite (fun _ => keeps_pure fun s hs => hs.1) fun hsub => ?_
  refine keeps_stripeGetSubscription fun r hr => ?_
  rcases r with e | sub
  · exact keeps_pure fun s hs => hs.1
  have hid : customerIDOf cs.customer=custOf sub.id := by rw [hr sub rfl,hc hsub]
  refine keeps_bind (keeps_mono (syncSubscription_keeps p sub accountID)
    (fun s hs => ⟨hs.1,hid ▸ hs.2 rfl⟩) fun _ _ hs => hs) fun r => ?_
  rcases r with e | u
  · exact keeps_pure fun s hs => hs
  · exact bindClaim_keeps cs accountID _

theorem checkoutSettled_of {cs : Stripe.CheckoutSession} {w : World} {as : List Answer}
    (h : (if cs.clientReferenceID = "" then lookupSettled custOf w as (customerIDOf cs.customer)
      else (licensesOf custOf w.store (customerIDOf cs.customer)).all fun l =>
        l.accountID == cs.clientReferenceID)=true) : CheckoutSettled custOf cs (w,as) := by
  unfold CheckoutSettled
  split
  · next href =>
    rw [if_pos href] at h
    exact belongs_of_lookupSettled h
  · next href =>
    rw [if_neg href] at h
    exact belongs_of_all h

theorem owned_deliver (w : World) (d : Delivery) (hw : Owned custOf w.store)
    (hc : consistent custOf d=true) (hs : settled custOf w d=true) :
    Owned custOf (deliver p w d).store := by
  obtain ⟨⟨id,data⟩,as⟩:=d
  -- the handlers that look no account up
  have hkeeps {q : Handler (Except Err Unit)}
      (hq : Keeps (fun _ => True) (Owned custOf) q fun _ => Owned custOf) :
      Owned custOf (serve q as w).2.store :=
    (hq (w,as) ⟨hw,fun _ _ _ _ => trivial⟩).1
  cases data with
  | checkoutSessionCompleted cs =>
    cases cs with
    | none => exact hw
    | some cs =>
      obtain ⟨hcust,hanswers⟩:=Bool.and_eq_true_iff.1 hc
      have hrun:=handleCheckoutCompleted_keeps p cs (fun hne => by simpa [hne] using hcust)
        (w,as) ⟨⟨hw,checkoutSettled_of hs⟩,fun a ha sub hsub => by
          simpa [hsub] using List.all_eq_true.1 hanswers a ha⟩
      exact hrun.1
  | customerSubscriptionCreated sub | customerSubscriptionUpdated sub =>
    cases sub with
    | none => exact hw
    | some sub => exact handleSubscriptionUpsert_owned p sub w as hw (beq_iff_eq.1 hc) hs
  | customerSubscriptionDeleted sub =>
    cases sub with
    | none => exact hw
    | some sub => exact handleSubscriptionDeleted_owned sub w as hw (beq_iff_eq.1 hc) hs
  | invoicePaymentFailed inv => exact hkeeps (handleInvoicePaymentFailed_keeps p inv)
  | invoicePaid inv => exact hkeeps (handleInvoicePaid_keeps inv)
  | other type => exact hw

/-- Events in any order, each dispatched any number of times: as long as all are
settled, every license has the account of its mirrored subscription. -/
theorem license_account_eq_mirror_account (custOf : String → String) (p : Processor) (w : World)
    (hw : Owned custOf w.store) (events : List Delivery)
    (hcust : ∀ d ∈ events, consistent custOf d = true)
    (hsettled : Machine.Guarded (deliver p) (fun w d => settled custOf w d = true) w events) :
    ∀ id l, (Machine.run (deliver p) w events).store.licenses.get id = some l →
      ∃ m, (Machine.run (deliver p) w events).store.subscriptions.get l.subscriptionID = some m ∧
        l.accountID = m.accountID := by
  have hrun : Owned custOf (Machine.run (deliver p) w events).store := by
    induction events generalizing w with
    | nil => exact hw
    | cons d events ih =>
      have hstep := owned_deliver p w d hw (hcust d List.mem_cons_self) hsettled.1
      exact ih _ hstep (fun d' hd' => hcust d' (List.mem_cons_of_mem _ hd')) hsettled.2
  intro id l hget
  obtain ⟨m,hm,hacct⟩ := hrun.mirrored id l hget
  exact ⟨m,hm,hacct.symm⟩

def sampleCheckout : Delivery :=
  (⟨"evt_2",.checkoutSessionCompleted (some
    { id := "cs_1", customer := some "cus_1", clientReferenceID := "acct_app",
      subscription := some "sub_1" })⟩,
    (drawing "b").map fun a => { a with subscription := some sampleSubscription })

def accountsOf (w : World) (licenseID : String) : Option (String × Option String) :=
  (w.store.licenses.get licenseID).map fun l =>
    (l.accountID,(w.store.subscriptions.get l.subscriptionID).map Subscription.accountID)

theorem checkout_after_creation_disagrees :
    (serve (dispatch sampleService.proc sampleCheckout.1) sampleCheckout.2 purchased).1 = .ok () ∧
      ∃ l m, (deliver sampleService.proc purchased sampleCheckout).store.licenses.get "lic_a" =
          some l ∧
        (deliver sampleService.proc purchased sampleCheckout).store.subscriptions.get
          l.subscriptionID = some m ∧ l.accountID≠m.accountID := by
  have haccounts : accountsOf (deliver sampleService.proc purchased sampleCheckout) "lic_a" =
      some ("acct_a",some "acct_app") := by decide +kernel
  obtain ⟨l,hl,heq⟩ := Option.map_eq_some_iff.1 haccounts
  obtain ⟨hacct,hmirror⟩ := Prod.mk.inj heq
  obtain ⟨m,hm,hacct'⟩ := Option.map_eq_some_iff.1 hmirror
  refine ⟨by decide +kernel,l,m,hl,hm,?_⟩
  rw [hacct,hacct']
  decide

def checkoutFirst : List Delivery :=
  [sampleCheckout,
    (⟨"evt_1",.customerSubscriptionCreated (some sampleSubscription)⟩,drawing "a"),
    sampleCheckout,
    (⟨"evt_1",.customerSubscriptionCreated (some sampleSubscription)⟩,drawing "c")]

theorem license_account_eq_mirror_account_checkout_first :
    ∃ l m, (Machine.run (deliver sampleService.proc) {} checkoutFirst).store.licenses.get "lic_b" =
        some l ∧
      (Machine.run (deliver sampleService.proc) {} checkoutFirst).store.subscriptions.get
        l.subscriptionID = some m ∧ l.accountID=m.accountID := by
  have hsome : ((Machine.run (deliver sampleService.proc) {} checkoutFirst).store.licenses.get
      "lic_b").isSome = true := by
    decide +kernel
  obtain ⟨l,hl⟩ := Option.isSome_iff_exists.1 hsome
  obtain ⟨m,hm,hacct⟩ := license_account_eq_mirror_account (fun _ => "cus_1") sampleService.proc {}
    owned_empty checkoutFirst (by decide +kernel) (by decide +kernel) "lic_b" l hl
  exact ⟨l,m,hl,hm,hacct⟩

end SecureGateway.Billing
