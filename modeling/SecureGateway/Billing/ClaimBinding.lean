import SecureGateway.Auth.ClaimLifecycle
import SecureGateway.Billing.Accounts

/-!
# What a checkout claim is bound to

The webhook of a paid session binds an account, a license and a subscription to the claim of
the session's nonce. A license has the account its customer is linked to (`Owned`), whichever
event created it, so what is bound together belongs together.
-/

namespace SecureGateway.Billing
open Authstore Auth Prog
open Stripe (customerIDOf subscriptionIDOf)

def Usable (s : Store) (accountID licenseID subID : String) : Prop :=
  ∃ l, s.licenses.get licenseID = some l ∧ l.accountID=accountID ∧ l.subscriptionID=subID

def ClaimsBound (s : Store) : Prop :=
  ∀ nonce c, s.checkoutClaims.get nonce = some c → c.status≠.pending →
    Usable s c.accountID c.licenseID c.subscriptionID

def HasLicense (subID : String) (s : Store) : Prop :=
  ∃ id l, s.licenses.get id = some l ∧ l.subscriptionID=subID

section Call
variable {w : World}

theorem license_kept (a : Answer) (op : Op) {id : String} {l : License}
    (hl : w.store.licenses.get id=some l) :
    ∃ l',(perform a op w).2.store.licenses.get id=some l' ∧ l'.accountID=l.accountID ∧
      l'.subscriptionID=l.subscriptionID := by
  rcases perform_writes a op w with hsame | ⟨sop,rfl,hwrites⟩
  · exact ⟨l,by rw [hsame]; exact hl,rfl,rfl⟩
  generalize (perform a (.store sop) w).2.store=s' at hwrites
  cases hwrites with
  | license new hnew =>
    have hne : new.id≠id := by
      intro heq
      rw [heq,hl] at hnew
      cases hnew
    exact ⟨l,by simpa only [Table.get_put_ne _ new hne] using hl,rfl,rfl⟩
  | licenseStatus id' status old hold =>
    by_cases hid : old.id=id
    · have hkey : old.id=id' := Table.key_of_get hold
      rw [← hkey,hid,hl,Option.some.injEq] at hold
      subst hold
      refine ⟨{ l with status := status },?_,rfl,rfl⟩
      rw [← hid]
      exact Table.get_put_self _ _
    · refine ⟨l,?_,rfl,rfl⟩
      rw [← hl]
      exact Table.get_put_ne _ _ hid
  | _ => exact ⟨l,hl,rfl,rfl⟩

variable {a : Answer} {op : Op}

theorem usable_perform {accountID licenseID subID : String}
    (h : Usable w.store accountID licenseID subID) :
    Usable (perform a op w).2.store accountID licenseID subID := by
  obtain ⟨l,hl,hacct,hsub⟩:=h
  obtain ⟨l',hl',hacct',hsub'⟩:=license_kept a op hl
  exact ⟨l',hl',hacct'.trans hacct,hsub'.trans hsub⟩

theorem hasLicense_perform {subID : String} (h : HasLicense subID w.store) :
    HasLicense subID (perform a op w).2.store := by
  obtain ⟨id,l,hl,hsub⟩:=h
  obtain ⟨l',hl',-,hsub'⟩:=license_kept a op hl
  exact ⟨id,l',hl',hsub'.trans hsub⟩

theorem usable_of_ids {s : Store} {c c' : CheckoutClaim} (hids : claimIDs c'=claimIDs c)
    (h : Usable s c.accountID c.licenseID c.subscriptionID) :
    Usable s c'.accountID c'.licenseID c'.subscriptionID := by
  simp only [claimIDs,Prod.mk.injEq] at hids
  rw [hids.1,hids.2.1,hids.2.2]
  exact h

theorem claimsBound_perform (h : ClaimsBound w.store) (hpending : bearsPending op=true)
    (hmarks : marks ⟨op,(perform a op w).1⟩=false) : ClaimsBound (perform a op w).2.store := by
  intro nonce c' hc' hne
  have hmoves:=row_perform nonce a op w
  rw [hc'] at hmoves
  generalize hrow : w.store.checkoutClaims.get nonce=row at hmoves
  cases hmoves with
  | born _ hc hborn htaken => exact absurd (pending_of_bornBy hpending hborn) hne
  | taken c _ hready hconsumed hids =>
    have hbound : c.status≠.pending := by
      rw [hready]
      intro heq
      cases heq
    exact usable_perform (usable_of_ids hids (h nonce c hrow hbound))
  | moved c _ hlater _ hmark =>
    by_cases hc : c.status=.pending
    · have hmarked:=hmark hc hne
      rw [hmarks] at hmarked
      cases hmarked
    · exact usable_perform (usable_of_ids (hlater.bound hc) (h nonce c hrow hc))

end Call

/-- An account that names a customer is the one the customer is linked to. -/
def Backed (s : Store) : Prop :=
  ∀ id a, s.accounts.get id = some a → a.stripeCustomerID ≠ "" → LinkedTo s a.stripeCustomerID id

section Links
variable {s : Store} {a : Account}

theorem Backed.merged (h : Backed s) {m : Account}
    (hm : m.stripeCustomerID=a.stripeCustomerID ∨ a.stripeCustomerID = "" ∧
      ∃ e,s.accounts.get a.id=some e ∧ m.stripeCustomerID=e.stripeCustomerID)
    (hfree : ∀ id,LinkedTo s a.stripeCustomerID id → a.stripeCustomerID ≠ "" → id=a.id) (id : String)
    (hne : m.stripeCustomerID ≠ "") (hl : LinkedTo s m.stripeCustomerID id) : id=a.id := by
  rcases hm with heq | ⟨-,e,he,heq⟩
  · rw [heq] at hl hne
    exact hfree id hl hne
  rw [heq] at hl hne
  have hback : LinkedTo s e.stripeCustomerID a.id := h a.id e he hne
  exact Option.some.inj (hl.symm.trans hback)

theorem Backed.upsertAccount (h : Backed s)
    (hfree : ∀ id,LinkedTo s a.stripeCustomerID id → a.stripeCustomerID ≠ "" → id=a.id) :
    Backed (s.upsertAccount a) := by
  have hid:=s.mergedAccount_id a
  have hm:=s.mergedAccount_customer a
  rw [Store.upsertAccount]
  generalize s.mergedAccount a=m at hid hm ⊢
  intro id row hrow hne
  simp only [LinkedTo,Table.get_put] at hrow ⊢
  split at hrow
  · next hkey =>
    cases hrow
    rw [if_neg hne,Std.ExtTreeMap.getElem?_insert_self,hkey]
  next hkey =>
  have hback:=h id row hrow hne
  split
  · exact hback
  next hmc =>
  rw [Std.ExtTreeMap.getElem?_insert]
  split
  · next hsame =>
    have hcust : m.stripeCustomerID=row.stripeCustomerID := by simpa using hsame
    have hmine:=h.merged hm hfree id hmc (hcust ▸ hback)
    exact absurd (hid.trans hmine.symm) hkey
  · exact hback

theorem anchored_upsertAccount (h : Backed s ∧ ClaimsBound s)
    (hfree : ∀ id,LinkedTo s a.stripeCustomerID id → a.stripeCustomerID ≠ "" → id=a.id) :
    Backed (s.upsertAccount a) ∧ ClaimsBound (s.upsertAccount a) := by
  exact ⟨h.1.upsertAccount hfree,h.2⟩

end Links

/-! ## Runs in which no call fails -/

def Unfailing (as : List Answer) : Prop := ∀ a ∈ as, a.fault=false

/-- What a handler that runs alone makes of the store when no call fails. -/
def Smooth {α : Type} (good : Stripe.Subscription → Prop) (pre : Store → Prop) (p : Handler α)
    (post : α → Store → Prop) : Prop :=
  Triple answer (fun x => pre x.1.store ∧ Answers good x.2 ∧ Unfailing x.2) p
    fun r x => post r x.1.store ∧ Answers good x.2 ∧ Unfailing x.2

section Rules
variable {α β : Type} {good : Stripe.Subscription → Prop} {pre : Store → Prop}
  {post : α → Store → Prop} {p : Handler α}

theorem Unfailing.tail {as : List Answer} (h : Unfailing as) : Unfailing as.tail :=
  fun a ha => h a (List.mem_of_mem_tail ha)

theorem Unfailing.head {as : List Answer} (h : Unfailing as) : (as.headD {}).fault=false := by
  cases as with
  | nil => rfl
  | cons a as => exact h a List.mem_cons_self

theorem unfailing_of_obeys {inv : Store → Prop} (ok : Op → Bool)
    (hobeys : Makes (fun _ op => ok op=true) [] p)
    (hstep : ∀ a op w,ok op=true → inv w.store → inv (perform a op w).2.store) :
    Triple answer (fun x => inv x.1.store ∧ Unfailing x.2) p
      fun _ x => inv x.1.store ∧ Unfailing x.2 :=
  triple_of_obeys hobeys fun _ op x hx hop => ⟨hstep _ op x.1 hop hx.1,hx.2.tail⟩

theorem smooth_of_keeps (inv : Store → Prop) (ok : Op → Bool) (hp : Keeps good pre p post)
    (hobeys : Makes (fun _ op => ok op=true) [] p)
    (hstep : ∀ a op w,ok op=true → inv w.store → inv (perform a op w).2.store) :
    Smooth good (fun s => pre s ∧ inv s) p fun r s => post r s ∧ inv s := by
  have hinv:=unfailing_of_obeys ok hobeys hstep
  refine triple_mono (triple_and hp hinv) (fun x hx => ?_) fun r x hx => ?_
  · exact ⟨⟨hx.1.1,hx.2.1⟩,hx.1.2,hx.2.2⟩
  · exact ⟨⟨hx.1.1,hx.2.1⟩,hx.1.2,hx.2.2⟩

theorem smooth_pure {a : α} (ha : ∀ s,pre s → post a s) :
    Smooth good pre (pure a : Handler α) post :=
  triple_pure fun _ hs => ⟨ha _ hs.1,hs.2⟩

theorem smooth_bind {q : β → Store → Prop} {p : Handler β} {f : β → Handler α}
    (hp : Smooth good pre p q) (hf : ∀ b,Smooth good (q b) (f b) post) :
    Smooth good pre (p >>= f) post :=
  triple_bind hp hf

theorem smooth_ite {c : Prop} [Decidable c] {p p' : Handler α} (hc : c → Smooth good pre p post)
    (hc' : ¬ c → Smooth good pre p' post) : Smooth good pre (if c then p else p') post :=
  triple_ite hc hc'

theorem smooth_mono {pre' : Store → Prop} {post' : α → Store → Prop} (hp : Smooth good pre p post)
    (hpre : ∀ s,pre' s → pre s) (hpost : ∀ a s,post a s → post' a s) : Smooth good pre' p post' :=
  triple_mono hp (fun _ hx => ⟨hpre _ hx.1,hx.2⟩) fun _ _ hx => ⟨hpost _ _ hx.1,hx.2⟩

theorem smooth_store {op : StoreOp} {q : op.Res → Store → Prop} {f : op.Res → Handler α}
    (hexec : ∀ s m,pre s → q (s.exec m op).1 (s.exec m op).2)
    (hf : ∀ r,Smooth good (q r) (f r) post) : Smooth good pre (Auth.store op >>= f) post := by
  refine triple_step (fun x hx => ⟨?_,hx.2.1.tail,hx.2.2.tail⟩) hf
  simpa only [answer,Auth.perform,hx.2.2.head,Bool.false_eq_true,if_false] using
    hexec x.1.store _ hx.1

theorem smooth_other {op : Op} {f : op.Rep → Handler α}
    (hop : ∀ a w,(perform a op w).2.store=w.store) (hf : ∀ r,Smooth good pre (f r) post) :
    Smooth good pre (Prog.perform op >>= f) post := by
  refine triple_step (fun x hx => ⟨?_,hx.2.1.tail,hx.2.2.tail⟩) hf
  show pre (Auth.perform (x.2.headD {}) op x.1).2.store
  rw [hop]
  exact hx.1

theorem smooth_stripeGetSubscription {id : String} {f : Except Err Stripe.Subscription → Handler α}
    (hf : ∀ r,(∀ sub,r = .ok sub → good sub) → Smooth good pre (f r) post) :
    Smooth good pre (stripeGetSubscription id >>= f) post := by
  have hcall : Smooth good pre (stripeGetSubscription id) fun r s =>
      pre s ∧ ∀ sub,r = .ok sub → good sub := by
    intro x hx
    refine ⟨⟨hx.1,fun sub hsub => ?_⟩,hx.2.1.tail,hx.2.2.tail⟩
    exact hx.2.1.head (answered_eq_ok.1 hsub)
  refine triple_bind hcall fun r x hx => ?_
  exact hf r hx.1.2 x ⟨hx.1.1,hx.2⟩

end Rules

section Sync
variable {log : List Event}

theorem syncs_of_syncing {α : Type} {p : Processor} {c : Cause} {q : Handler α}
    (h : Makes (Syncing p c) log q) : Makes Syncs log q :=
  obeys_weaken h fun _ _ _ hop => hop.2

theorem enforce_syncs (subID : String) (behavior : License.Behavior) :
    Makes Syncs log (enforce subID behavior) := by
  refine obeys_weaken (enforce_enforces subID behavior) fun _ op _ hop => ?_
  cases op with
  | store sop => cases sop <;> first | rfl | cases hop
  | publishRevocation => rfl
  | _ => cases hop

theorem syncSubscription_syncs (p : Processor) (sub : Stripe.Subscription) (accountID : String) :
    Makes Syncs log (syncSubscription p sub accountID) :=
  syncs_of_syncing (syncSubscription_syncing (c := .the sub) sub accountID ⟨rfl,rfl⟩)

variable {good : Stripe.Subscription → Prop}

theorem provision_licensed (m : Subscription) (itemID : String) (missing : ℕ) :
    Keeps good (fun s => missing=0 → HasLicense m.id s) (provision m itemID missing) fun r s =>
      r = .ok () → HasLicense m.id s := by
  induction missing with
  | zero => exact keeps_pure fun s hs _ => hs rfl
  | succ missing ih =>
    refine keeps_other (fun _ _ => rfl) fun id => keeps_other (fun _ _ => rfl) fun t => ?_
    refine keeps_store (q := fun r s => r = .ok () → HasLicense m.id s)
      (fun s _ h => by cases h) (fun s now _ hok => ?_) fun r => ?_
    · simp only [Store.exec,Store.createLicense] at hok ⊢
      split at hok
      · cases hok
      · exact ⟨id,_,Table.get_put_self _ _,rfl⟩
    · rcases r with e | u
      · exact keeps_pure fun s _ h => by cases h
      · exact keeps_mono ih (fun s hs _ => hs rfl) fun _ _ hs => hs

def Listed (subID : String) (s : Store) (r : Except Err (List License)) : Prop :=
  ∀ ls, r = .ok ls → (∀ l ∈ ls, s.licenses.get l.id = some l ∧ l.subscriptionID=subID) ∧
    (HasLicense subID s → ls≠[])

theorem listed_exec (s : Store) (m : Moment) (subID : String) :
    Listed subID s (s.exec m (.listLicensesBySubscription subID)).1 := by
  intro ls h
  cases h
  refine ⟨fun l hl => ?_,fun ⟨id,l,hget,hsub⟩ => ?_⟩
  · obtain ⟨hget,hsub⟩:=Table.mem_list.1 hl
    exact ⟨hget,beq_iff_eq.1 hsub⟩
  · exact List.ne_nil_of_mem (Table.mem_list_of_get hget (beq_iff_eq.2 hsub))

theorem ensureLicenses_licensed (m : Subscription) (sub : Stripe.Subscription)
    (hm : 1 ≤ m.maxPairs) :
    Keeps good (fun _ => True) (ensureLicenses m sub) fun r s =>
      r = .ok () → HasLicense m.id s := by
  have hlist {f : Except Err (List License) → Handler (Except Err Unit)}
      {post : Except Err Unit → Store → Prop}
      (hf : ∀ r,Keeps good (fun s => Listed m.id s r) (f r) post) :
      Keeps good (fun _ => True) (Auth.store (.listLicensesBySubscription m.id) >>= f) post :=
    keeps_store (fun s _ ls h => by cases h) (fun s now _ => listed_exec s now m.id) hf
  refine hlist fun r => ?_
  rcases r with e | existing
  · exact keeps_pure fun s _ h => by cases h
  refine keeps_mono (provision_licensed m _ _) (fun s hs hzero => ?_) fun _ _ hs => hs
  cases existing with
  | nil => exact absurd hm (by simpa using hzero)
  | cons l rest =>
    obtain ⟨hget,hsub⟩:=(hs _ rfl).1 l List.mem_cons_self
    exact ⟨l.id,l,hget,hsub⟩

theorem syncSubscription_licensed (p : Processor) (sub : Stripe.Subscription) (accountID : String) :
    Keeps good (fun _ => True) (syncSubscription p sub accountID) fun r s =>
      r = .ok () → HasLicense sub.id s := by
  refine keeps_other (fun _ _ => rfl) fun t => ?_
  refine keeps_store (q := fun _ _ => True) (fun _ _ => trivial) (fun _ _ _ => trivial)
    fun existing => ?_
  refine keeps_store (q := fun _ _ => True) (fun _ _ => trivial) (fun _ _ _ => trivial) fun r => ?_
  rcases r with e | u
  · exact keeps_pure fun s _ h => by cases h
  refine keeps_bind (ensureLicenses_licensed _ sub (Stripe.one_le_maxPairsFor sub)) fun r => ?_
  rcases r with e | u
  · exact keeps_pure fun s _ h => by cases h
  -- the licenses are there, and nothing deletes them
  have hrest {q : Handler (Except Err Unit)} (hq : Makes Syncs [] q) :
      Keeps good (fun s => Except.ok ()=(.ok () : Except Err Unit) → HasLicense sub.id s) q
        fun r s => r = .ok () → HasLicense sub.id s := by
    have hkept : Keeps good (HasLicense sub.id) q fun _ => HasLicense sub.id :=
      keeps_of_obeys syncs hq fun a op w _ h => hasLicense_perform h
    exact keeps_mono hkept (fun s hs => hs rfl) fun _ s hs _ => hs
  exact keeps_ite (fun _ => hrest (enforce_syncs _ _)) fun _ =>
    hrest (reactivate_obeys rfl fun _ _ _ _ _ _ => rfl)

end Sync

def Anchored (s : Store) : Prop := Backed s ∧ ClaimsBound s

section Events
variable {custOf : String → String} {good : Stripe.Subscription → Prop} {log : List Event}

theorem accounts_syncs {op : Op} (hop : syncs op=true) (a : Answer) (w : World) :
    (perform a op w).2.store.accounts=w.store.accounts ∧
      (perform a op w).2.store.customerToAcct=w.store.customerToAcct := by
  rcases perform_writes a op w with hsame | ⟨sop,rfl,hwrites⟩
  · rw [hsame]
    exact ⟨rfl,rfl⟩
  generalize (Auth.perform a (.store sop) w).2.store=s' at hwrites
  cases hwrites with
  | account => cases hop
  | _ => exact ⟨rfl,rfl⟩

theorem anchored_syncs {op : Op} (hop : syncs op=true) (a : Answer) {w : World}
    (h : Anchored w.store) : Anchored (perform a op w).2.store := by
  obtain ⟨haccounts,hlinks⟩:=accounts_syncs hop a w
  refine ⟨?_,?_⟩
  · unfold Backed LinkedTo
    rw [haccounts,hlinks]
    exact h.1
  · cases op with
    | store sop => cases sop <;> first | exact claimsBound_perform h.2 rfl rfl | cases hop
    | _ => exact claimsBound_perform h.2 rfl rfl

theorem resolveAccount_anchored (c : String) :
    Smooth good Anchored (resolveAccount c) fun _ => Anchored := by
  refine smooth_ite (fun _ => smooth_pure fun s hs => hs) fun hc => ?_
  have hlookup {f : Except Err Account → Handler (Except Err String)}
      (hok : ∀ acct,Smooth good Anchored (f (.ok acct)) fun _ => Anchored)
      (hnone : ∀ e,Smooth good (fun s => Anchored s ∧ ∀ id,¬ LinkedTo s c id) (f (.error e))
        fun _ => Anchored) :
      Smooth good Anchored (Auth.store (.getAccountByCustomer c) >>= f) fun _ => Anchored := by
    refine smooth_store (q := fun r s => Anchored s ∧ ∀ e,r = .error e → ∀ id,¬ LinkedTo s c id)
      (fun s now hs => ⟨hs,fun e he id hl => ?_⟩) fun r => ?_
    · have hlink : s.customerToAcct[c]? = some id := hl
      simp only [Store.exec,Store.getAccountByCustomer,hlink] at he
      cases he
    · rcases r with e | acct
      · exact smooth_mono (hnone e) (fun s hs => ⟨hs.1,hs.2 e rfl⟩) fun _ _ hs => hs
      · exact smooth_mono (hok acct) (fun s hs => hs.1) fun _ _ hs => hs
  refine hlookup (fun acct => smooth_pure fun s hs => hs) fun e => ?_
  refine smooth_other (fun _ _ => rfl) fun id => smooth_other (fun _ _ => rfl) fun t => ?_
  refine smooth_store (q := fun _ => Anchored) (fun s now hs => ?_) fun r => ?_
  · exact anchored_upsertAccount hs.1 fun other hl _ => absurd hl (hs.2 other)
  · rcases r with e | u <;> exact smooth_pure fun s hs => hs

def Tied (custOf : String → String) (s : Store) : Prop := Owned custOf s ∧ Anchored s

theorem resolveAccount_tied (c : String) :
    Smooth good (Tied custOf) (resolveAccount c) fun r s =>
      Tied custOf s ∧ ∀ accountID,r = .ok accountID → LinkedTo s c accountID := by
  have hkept : Smooth good Anchored (resolveAccount c) fun _ => Anchored := resolveAccount_anchored c
  refine triple_mono (triple_and (resolveAccount_keeps custOf good c) hkept)
    (fun x hx => ?_) fun r x hx => ?_
  · exact ⟨⟨⟨hx.1.1,.inl hx.2.2.head⟩,hx.2.1⟩,hx.1.2,hx.2⟩
  · exact ⟨⟨⟨hx.1.1.1,hx.2.1⟩,hx.1.1.2⟩,hx.2.2⟩

variable (p : Processor)

theorem syncSubscription_tied (sub : Stripe.Subscription) (accountID : String) :
    Smooth good (fun s => Tied custOf s ∧ LinkedTo s (custOf sub.id) accountID)
      (syncSubscription p sub accountID) fun r s => Tied custOf s ∧
        LinkedTo s (custOf sub.id) accountID ∧ (r = .ok () → HasLicense sub.id s) := by
  have hsync : Keeps good (fun s => Owned custOf s ∧ LinkedTo s (custOf sub.id) accountID)
      (syncSubscription p sub accountID) fun r s => Owned custOf s ∧
        (r = .ok () → HasLicense sub.id s) :=
    keeps_mono (keeps_and (syncSubscription_keeps p sub accountID)
      (syncSubscription_licensed p sub accountID)) (fun s hs => ⟨hs,trivial⟩) fun _ _ hs => hs
  have hrest:=smooth_of_keeps (fun s => Anchored s ∧ LinkedTo s (custOf sub.id) accountID) syncs
    hsync (syncSubscription_syncs p sub accountID) fun a op w hop h => by
      refine ⟨anchored_syncs hop a h.1,?_⟩
      rw [LinkedTo,(accounts_syncs hop a w).2]
      exact h.2
  refine smooth_mono hrest (fun s hs => ?_) fun r s hs => ?_
  · exact ⟨⟨hs.1.1,hs.2⟩,hs.1.2,hs.2⟩
  · exact ⟨⟨hs.1.1,hs.2.1⟩,hs.2.2,hs.1.2⟩

theorem smooth_listLicenses {α : Type} {subID : String} {pre : Store → Prop}
    {post : α → Store → Prop} {f : Except Err (List License) → Handler α}
    (hf : ∀ ls,Smooth good (fun s => pre s ∧ Listed subID s (.ok ls)) (f (.ok ls)) post) :
    Smooth good pre (Auth.store (.listLicensesBySubscription subID) >>= f) post := by
  have hany (r : Except Err (List License)) :
      Smooth good (fun s => (∃ ls,r = .ok ls) ∧ pre s ∧ Listed subID s r) (f r) post := by
    intro x hx
    obtain ⟨⟨⟨ls,rfl⟩,hlisted⟩,hanswers⟩:=hx
    exact hf ls x ⟨hlisted,hanswers⟩
  exact smooth_store (fun s now hs => ⟨⟨_,rfl⟩,hs,listed_exec s now subID⟩) hany

theorem claimedLicense_tied (subID accountID : String) :
    Smooth good (fun s => Tied custOf s ∧ LinkedTo s (custOf subID) accountID ∧
        HasLicense subID s) (claimedLicense subID) fun id s =>
      Tied custOf s ∧ Usable s accountID id subID := by
  refine smooth_listLicenses fun ls => ?_
  cases ls with
  | nil => exact smooth_pure fun s hs => absurd rfl ((hs.2 _ rfl).2 hs.1.2.2)
  | cons l rest =>
    refine smooth_pure fun s hs => ⟨hs.1.1,l,?_⟩
    obtain ⟨hget,hsub⟩:=(hs.2 _ rfl).1 l List.mem_cons_self
    exact ⟨hget,hs.1.1.1.belongs hs.1.2.1 l.id l hget (by rw [hsub]),hsub⟩

theorem claimsBound_mark {s : Store} (h : ClaimsBound s) {accountID licenseID subID : String}
    (hu : Usable s accountID licenseID subID) (nonce sessionID : String) :
    ClaimsBound (s.markCheckoutClaimReady nonce accountID licenseID subID sessionID) := by
  unfold Store.markCheckoutClaimReady
  split
  · split
    · exact h
    · exact Table.forall_get_put (fun _ => hu) h
  · exact h

theorem bindClaim_tied (cs : Stripe.CheckoutSession) (accountID subID : String) :
    Smooth good (fun s => Tied custOf s ∧ LinkedTo s (custOf subID) accountID ∧
        HasLicense subID s) (bindClaim cs accountID subID) fun _ => Tied custOf := by
  refine smooth_ite (fun _ => smooth_pure fun s hs => hs.1) fun _ => ?_
  refine smooth_bind (claimedLicense_tied subID accountID) fun id => ?_
  refine smooth_store (q := fun _ => Tied custOf) (fun s now hs => ?_) fun r => ?_
  · obtain ⟨⟨howned,hbacked,hbound⟩,husable⟩:=hs
    have hbound':=claimsBound_mark hbound husable ((cs.metadata.lookup "nonce").getD "") cs.id
    simp only [Store.exec]
    refine ⟨?_,?_,hbound'⟩
    · unfold Store.markCheckoutClaimReady
      split
      · split
        · exact howned
        · exact ⟨howned.linked,howned.owned,howned.mirrored⟩
      · exact howned
    · unfold Store.markCheckoutClaimReady
      split
      · split
        · exact hbacked
        · exact hbacked
      · exact hbacked
  · rcases r with e | u <;> exact smooth_pure fun s hs => hs

theorem handleCheckoutCompleted_tied (cs : Stripe.CheckoutSession)
    (href : cs.clientReferenceID = "") (hc : subscriptionIDOf cs.subscription ≠ "" →
      custOf (subscriptionIDOf cs.subscription)=customerIDOf cs.customer) :
    Smooth (fun sub => sub.id=subscriptionIDOf cs.subscription) (Tied custOf)
      (handleCheckoutCompleted p (some cs)) fun _ => Tied custOf := by
  refine smooth_ite (fun _ => smooth_pure fun s hs => hs) fun hcust => ?_
  have hacct : Smooth (fun sub => sub.id=subscriptionIDOf cs.subscription) (Tied custOf)
      (checkoutAccount cs (customerIDOf cs.customer)) fun r s => Tied custOf s ∧
        ∀ accountID,r = .ok accountID → LinkedTo s (customerIDOf cs.customer) accountID := by
    refine smooth_ite (fun hne => absurd href hne) fun _ => ?_
    refine smooth_bind (resolveAccount_tied _) fun r => ?_
    rcases r with e | accountID
    · exact smooth_pure fun s hs => ⟨hs.1,fun _ h => by cases h⟩
    refine smooth_pure fun s hs => ⟨hs.1,fun id h => ?_⟩
    cases h
    exact hs.2 _ rfl
  refine smooth_bind hacct fun r => ?_
  rcases r with e | accountID
  · exact smooth_pure fun s hs => hs.1
  refine smooth_other (fun _ _ => rfl) fun t => ?_
  -- the link is written again
  refine smooth_store (q := fun _ s => Tied custOf s ∧
    LinkedTo s (customerIDOf cs.customer) accountID) (fun s now hs => ?_) fun r => ?_
  · have hlink:=linkedTo_upsertAccount (s := s)
      (a := { id := accountID, stripeCustomerID := customerIDOf cs.customer, createdAt := t })
      hcust (customerIDOf cs.customer)
    rw [if_pos rfl] at hlink
    have hlinked : LinkedTo s (customerIDOf cs.customer) accountID := hs.2 accountID rfl
    refine ⟨⟨hs.1.1.upsertAccount hcust (hs.1.1.belongs hlinked),?_⟩,hlink⟩
    refine anchored_upsertAccount hs.1.2 fun id hl _ => ?_
    exact Option.some.inj (hl.symm.trans hlinked)
  rcases r with e | u
  · exact smooth_pure fun s hs => hs.1
  refine smooth_ite (fun _ => smooth_pure fun s hs => hs.1) fun hsub => ?_
  refine smooth_stripeGetSubscription fun r hr => ?_
  rcases r with e | sub
  · exact smooth_pure fun s hs => hs.1
  obtain hid : sub.id=subscriptionIDOf cs.subscription := hr sub rfl
  have hown : customerIDOf cs.customer=custOf sub.id := by rw [hid,hc hsub]
  refine smooth_bind (smooth_mono (syncSubscription_tied p sub accountID)
    (fun s hs => ⟨hs.1,hown ▸ hs.2⟩) fun _ _ hs => hs) fun r => ?_
  rcases r with e | u
  · exact smooth_pure fun s hs => hs.1
  rw [← hid]
  exact smooth_mono (bindClaim_tied cs accountID sub.id) (fun s hs => ⟨hs.1,hs.2.1,hs.2.2 rfl⟩)
    fun _ _ hs => hs

/-! The other handlers bind nothing. -/

theorem smooth_of_syncs {α : Type} {q : Handler α} (hq : Makes Syncs [] q) :
    Smooth good Anchored q fun _ => Anchored := by
  have hany : Keeps good (fun _ => True) q fun _ _ => True :=
    keeps_of_obeys syncs hq fun _ _ _ _ _ => trivial
  exact smooth_mono (smooth_of_keeps Anchored syncs hany hq fun a _ _ hop h => anchored_syncs hop a h)
    (fun s hs => ⟨trivial,hs⟩) fun _ _ hs => hs.2

theorem handleSubscriptionUpsert_anchored (sub : Option Stripe.Subscription) :
    Smooth good Anchored (handleSubscriptionUpsert p sub) fun _ => Anchored := by
  cases sub with
  | none => exact smooth_pure fun s hs => hs
  | some sub =>
    refine smooth_bind (resolveAccount_anchored _) fun r => ?_
    rcases r with e | accountID
    · exact smooth_pure fun s hs => hs
    · exact smooth_of_syncs (syncSubscription_syncs p sub accountID)

theorem handleSubscriptionDeleted_anchored (sub : Option Stripe.Subscription) :
    Smooth good Anchored (handleSubscriptionDeleted sub) fun _ => Anchored := by
  cases sub with
  | none => exact smooth_pure fun s hs => hs
  | some sub =>
    refine smooth_bind (resolveAccount_anchored _) fun r => ?_
    rcases r with e | accountID
    · exact smooth_pure fun s hs => hs
    refine smooth_of_syncs (obeys_step rfl fun t => obeys_step rfl fun r => ?_)
    rcases r with e | u
    · exact trivial
    · exact enforce_syncs sub.id .revoked

def unreferenced (ev : Stripe.Event) : Bool :=
  match ev.data with
  | .checkoutSessionCompleted (some cs) => cs.clientReferenceID == ""
  | _ => true

theorem settled_of_unfailing {w : World} {d : Delivery} (href : unreferenced d.1=true)
    (has : Unfailing d.2) : settled custOf w d=true := by
  obtain ⟨⟨id,data⟩,as⟩:=d
  have hlookup (c : String) : lookupSettled custOf w as c=true := by
    simp only [lookupSettled,has.head,Bool.not_false,Bool.true_or]
  cases data with
  | checkoutSessionCompleted cs =>
    cases cs with
    | none => rfl
    | some cs =>
      have hempty : cs.clientReferenceID = "" := eq_of_beq href
      simp only [settled,hempty,if_true]
      exact hlookup _
  | customerSubscriptionCreated sub | customerSubscriptionUpdated sub
  | customerSubscriptionDeleted sub =>
    cases sub with
    | none => rfl
    | some sub => exact hlookup _
  | _ => rfl

theorem tied_deliver (w : World) (d : Delivery) (hw : Tied custOf w.store)
    (hc : consistent custOf d=true) (href : unreferenced d.1=true) (has : Unfailing d.2) :
    Tied custOf (deliver p w d).store := by
  refine ⟨owned_deliver p w d hw.1 hc (settled_of_unfailing href has),?_⟩
  obtain ⟨⟨id,data⟩,as⟩:=d
  have hkept {q : Handler (Except Err Unit)} (hq : Smooth (fun _ => True) Anchored q fun _ => Anchored) :
      Anchored (serve q as w).2.store :=
    (hq (w,as) ⟨hw.2,fun _ _ _ _ => trivial,has⟩).1
  cases data with
  | checkoutSessionCompleted cs =>
    cases cs with
    | none => exact hw.2
    | some cs =>
      obtain ⟨hcust,hanswers⟩:=Bool.and_eq_true_iff.1 hc
      have hrun:=handleCheckoutCompleted_tied p cs (eq_of_beq href)
        (fun hne => by simpa [hne] using hcust) (w,as) ⟨hw,fun a ha sub hsub => by
          simpa [hsub] using List.all_eq_true.1 hanswers a ha,has⟩
      exact hrun.1.2
  | customerSubscriptionCreated sub | customerSubscriptionUpdated sub =>
    exact hkept (handleSubscriptionUpsert_anchored p sub)
  | customerSubscriptionDeleted sub => exact hkept (handleSubscriptionDeleted_anchored sub)
  | invoicePaymentFailed inv =>
    exact hkept (smooth_of_syncs (syncs_of_syncing (handleInvoicePaymentFailed_syncing
      (c := .of ⟨id,.invoicePaymentFailed inv⟩) inv fun _ hid => ⟨inv,rfl,hid⟩)))
  | invoicePaid inv =>
    exact hkept (smooth_of_syncs (syncs_of_syncing (handleInvoicePaid_syncing (p := p)
      (c := .of ⟨id,.invoicePaid inv⟩) inv fun _ hid => ⟨inv,rfl,hid⟩)))
  | other type => exact hw.2

end Events

def asks : Op → Bool
  | .store (.createCheckoutClaim c) => c.status == .pending
  | .store (.upsertAccount a) => a.stripeCustomerID == ""
  | .store (.getCheckoutClaim _) | .store (.getCheckoutClaimByCode _)
  | .store (.setCheckoutClaimCode _ _) | .store (.consumeCheckoutClaim _ _)
  | .store (.deleteExpiredCheckoutClaims _) | .now | .newID _ => true
  | _ => false

abbrev Asks : List Event → Op → Prop := fun _ op => asks op = true

variable (srv : CheckoutService)

section Requests
variable {custOf : String → String} {good : Stripe.Subscription → Prop} {log : List Event}

theorem Owned.upsertSecret {s : Store} (h : Owned custOf s) (hb : Backed s) {a : Account}
    (hc : a.stripeCustomerID = "") : Owned custOf (s.upsertAccount a) := by
  have hid:=s.mergedAccount_id a
  have hm:=s.mergedAccount_customer a
  have heq:=Store.upsertAccount.eq_1 s a
  generalize s.mergedAccount a=m at hid hm heq
  have hlinks (c : String) : (s.upsertAccount a).customerToAcct[c]? = s.customerToAcct[c]? := by
    rw [heq]
    dsimp only
    split
    · rfl
    next hne =>
    rcases hm with hsame | ⟨-,e,he,hsame⟩
    · exact absurd (hsame.trans hc) hne
    have hback:=hb a.id e he (hsame ▸ hne)
    rw [Std.ExtTreeMap.getElem?_insert]
    split
    · next heqc =>
      have hcust : m.stripeCustomerID=c := by simpa using heqc
      rw [← hcust,hsame,hid]
      exact hback.symm
    · rfl
  constructor
  · intro c id hl
    rw [hlinks] at hl
    obtain ⟨row,hrow⟩:=h.linked c id hl
    simp only [heq,Table.get_put]
    split
    · exact ⟨m,rfl⟩
    · exact ⟨row,hrow⟩
  · intro k l hl
    rw [hlinks]
    rw [heq] at hl
    exact h.owned k l hl
  · intro k l hl
    rw [heq] at hl ⊢
    exact h.mirrored k l hl

theorem claimsBound_asks {op : Op} (hop : asks op=true) (a : Answer) {w : World}
    (h : ClaimsBound w.store) : ClaimsBound (perform a op w).2.store := by
  cases op with
  | store sop =>
    cases sop with
    | createCheckoutClaim c => exact claimsBound_perform h hop rfl
    | _ => first | exact claimsBound_perform h rfl rfl | cases hop
  | _ => exact claimsBound_perform h rfl rfl

theorem tied_asks {op : Op} (hop : asks op=true) (a : Answer) {w : World}
    (h : Tied custOf w.store) : Tied custOf (perform a op w).2.store := by
  have hbound:=claimsBound_asks hop a h.2.2
  obtain ⟨howned,hbacked,-⟩:=h
  rcases perform_writes a op w with hsame | ⟨sop,rfl,hwrites⟩
  · rw [hsame] at hbound ⊢
    exact ⟨howned,hbacked,hbound⟩
  by_cases hacct : ∃ acct,sop = .upsertAccount acct
  · obtain ⟨acct,rfl⟩:=hacct
    have hempty : acct.stripeCustomerID = "" := eq_of_beq hop
    cases hr : (perform a (.store (.upsertAccount acct)) w).1 with
    | error e =>
      rw [perform_error hr] at hbound ⊢
      exact ⟨howned,hbacked,hbound⟩
    | ok u =>
      rw [(perform_ok hr).2] at hbound ⊢
      refine ⟨howned.upsertSecret hbacked hempty,?_,hbound⟩
      exact hbacked.upsertAccount fun id _ hne => absurd hempty hne
  · generalize (Auth.perform a (.store sop) w).2.store=s' at hwrites hbound ⊢
    cases hwrites with
    | account acct => exact absurd ⟨acct,rfl⟩ hacct
    | subscription | license | licenseStatus => cases hop
    | _ => exact ⟨⟨howned.linked,howned.owned,howned.mirrored⟩,hbacked,hbound⟩

theorem handleStartCheckout_asks {srv : CheckoutService} (hbilling : srv.billingEnabled=true)
    (stripe : CheckoutSessionParams → SessionReply) (req : Option StartCheckoutReq) :
    Makes Asks log (handleStartCheckout srv stripe req) := by
  refine obeys_ite (fun hopen => ?_) fun _ => ?_
  · rw [hbilling] at hopen
    cases hopen
  refine obeys_unless fun _ => ?_
  split
  · exact trivial
  split
  · exact trivial
  · exact trivial
  · exact obeys_step rfl fun t => obeys_store rfl fun _ => trivial

theorem handleCheckoutReturn_asks (nonce sessionID : String) :
    Makes Asks log (handleCheckoutReturn srv nonce sessionID) := by
  refine obeys_store rfl fun claim => ?_
  refine obeys_unless fun _ => ?_
  refine obeys_unless fun _ => obeys_step rfl fun t => ?_
  refine obeys_unless fun _ => ?_
  refine obeys_unless fun _ => ?_
  exact obeys_step rfl fun claimCode => obeys_store rfl fun _ => trivial

theorem keeps_of_asks {α : Type} {q : Handler α} (hq : Makes Asks [] q) :
    Keeps good (Tied custOf) q fun _ => Tied custOf :=
  keeps_of_obeys asks hq fun a _ _ hop h => tied_asks hop a h

theorem tied_exec {s : Store} {op : StoreOp} (hop : asks (.store op)=true) (m : Moment)
    (h : Tied custOf s) : Tied custOf (s.exec m op).2 :=
  tied_asks hop { ties := m.ties } (w := { store := s, clock := m.now }) h

theorem usable_exec {s : Store} {accountID licenseID subID : String} (op : StoreOp) (m : Moment)
    (h : Usable s accountID licenseID subID) :
    Usable (s.exec m op).2 accountID licenseID subID := by
  have hkept : Usable (Auth.perform { ties := m.ties } (.store op)
      { store := s, clock := m.now }).2.store accountID licenseID subID := usable_perform h
  exact hkept

def Handed (custOf : String → String) (r : Except Reject ClaimAnswer) (s : Store) : Prop :=
  Tied custOf s ∧ ∀ resp, r = .ok (.claimed resp) →
    Usable s resp.accountID resp.licenseID resp.subscriptionID

theorem handed_error (e : Reject) {s : Store} (h : Tied custOf s) : Handed custOf (.error e) s :=
  ⟨h,fun _ hresp => by cases hresp⟩

theorem handOut_handed (c : CheckoutClaim) :
    Keeps good (fun s => Tied custOf s ∧ Usable s c.accountID c.licenseID c.subscriptionID)
      (handOut srv c) (Handed custOf) := by
  refine keeps_other (fun _ _ => rfl) fun secret => ?_
  refine keeps_store (q := fun _ s => Tied custOf s ∧
    Usable s c.accountID c.licenseID c.subscriptionID) (fun s hs => hs) (fun s m hs => ?_)
    fun r => ?_
  · exact ⟨tied_exec rfl m hs.1,usable_exec _ m hs.2⟩
  rcases r with e | u
  · exact keeps_pure fun s hs => handed_error _ hs.1
  refine keeps_pure fun s hs => ⟨hs.1,fun resp h => ?_⟩
  cases h
  exact hs.2

theorem handleClaimAccount_handed (req : Option ClaimReq) :
    Keeps good (Tied custOf) (handleClaimAccount srv req) (Handed custOf) := by
  cases req with
  | none => exact keeps_pure fun s hs => handed_error _ hs
  | some req =>
    refine keeps_ite (fun _ => keeps_pure fun s hs => handed_error _ hs) fun _ => ?_
    have hfind : Keeps good (Tied custOf) (findClaim srv req) fun _ => Tied custOf := by
      refine keeps_of_asks ?_
      unfold findClaim
      split
      · exact ⟨rfl,fun r => trivial⟩
      · exact ⟨rfl,fun r => trivial⟩
    refine keeps_bind hfind fun r => ?_
    rcases r with e | claim
    · exact keeps_pure fun s hs => handed_error _ hs
    refine keeps_ite (fun _ => keeps_pure fun s hs => handed_error _ hs) fun _ => ?_
    refine keeps_other (fun _ _ => rfl) fun t => ?_
    refine keeps_ite (fun _ => keeps_pure fun s hs => handed_error _ hs) fun _ => ?_
    refine keeps_ite (fun _ => keeps_pure fun s hs => ⟨hs,fun _ h => by cases h⟩) fun _ => ?_
    refine keeps_other (fun _ _ => rfl) fun consumedAt => ?_
    -- the claim that was consumed is bound
    have hconsume {f : Except Err CheckoutClaim → Handler (Except Reject ClaimAnswer)}
        (hf : ∀ r,Keeps good (fun s => Tied custOf s ∧ ∀ c,r = .ok c →
          Usable s c.accountID c.licenseID c.subscriptionID) (f r) (Handed custOf)) :
        Keeps good (Tied custOf) (Auth.store (.consumeCheckoutClaim claim.nonce consumedAt) >>= f)
          (Handed custOf) := by
      refine keeps_store (fun s hs => ⟨hs,fun c h => by cases h⟩) (fun s m hs => ?_) hf
      have htied : Tied custOf (s.exec m (.consumeCheckoutClaim claim.nonce consumedAt)).2 :=
        tied_exec rfl m hs
      refine ⟨htied,fun c hc => ?_⟩
      obtain ⟨row,-,-,hconsumed,htable⟩:=consume_ok hc
      refine htied.2.2 c.nonce c ?_ ?_
      · simp only [Store.exec,htable]
        exact Table.get_put_self _ _
      rw [hconsumed]
      intro heq
      cases heq
    refine hconsume fun r => ?_
    rcases r with e | consumed
    · exact keeps_ite (fun _ => keeps_pure fun s hs => handed_error _ hs.1) fun _ =>
        keeps_pure fun s hs => handed_error _ hs.1
    · exact keeps_mono (handOut_handed srv consumed) (fun s hs => ⟨hs.1,hs.2 consumed rfl⟩)
        fun _ _ hs => hs

end Requests

inductive ClaimStep
  | event (d : Delivery)
  | request (x : CheckoutActivity) (as : List Answer)

def claimStep (srv : CheckoutService) (w : World) : ClaimStep → World
  | .event d => deliver srv.proc w d
  | .request x as => (serve (handleCheckout srv x) as w).2

/-- The events are about the customers' own subscriptions and name no account of the
application, and no call fails while one is handled. -/
def ClaimStep.fits (custOf : String → String) : ClaimStep → Bool
  | .event d => consistent custOf d && unreferenced d.1 && d.2.all fun a => !a.fault
  | .request (.webhook _ _) _ | .request (.retryFailed _) _ => false
  | .request _ _ => true

theorem tied_claimStep {custOf : String → String} {srv : CheckoutService}
    (hbilling : srv.billingEnabled=true) (w : World) (x : ClaimStep) (hx : x.fits custOf=true)
    (hw : Tied custOf w.store) : Tied custOf (claimStep srv w x).store := by
  cases x with
  | event d =>
    simp only [ClaimStep.fits,Bool.and_eq_true] at hx
    refine tied_deliver srv.proc w d hw hx.1.1 hx.1.2 fun a ha => ?_
    simpa using List.all_eq_true.1 hx.2 a ha
  | request x as =>
    have hserve {α : Type} {q : Handler α} (hq : Makes Asks [] q) :
        Tied custOf (serve q as w).2.store := by
      have hkeeps : Keeps (fun _ => True) (Tied custOf) q fun _ => Tied custOf := keeps_of_asks hq
      exact (hkeeps (w,as) ⟨hw,fun _ _ _ _ => trivial⟩).1
    cases x with
    | startCheckout stripe req =>
      exact hserve (obeys_seq (handleStartCheckout_asks hbilling stripe req) fun _ _ _ _ => trivial)
    | checkoutReturn nonce sessionID =>
      exact hserve (obeys_seq (handleCheckoutReturn_asks srv nonce sessionID) fun _ _ _ _ =>
        trivial)
    | claimAccount req =>
      have hhanded : Keeps (fun _ => True) (Tied custOf) (ignore (handleClaimAccount srv req))
          fun _ => Tied custOf :=
        keeps_bind (handleClaimAccount_handed srv req) fun _ => keeps_pure fun s hs => hs.1
      exact (hhanded (w,as) ⟨hw,fun _ _ _ _ => trivial⟩).1
    | sweepClaims => exact hserve (obeys_step rfl fun t => obeys_step rfl fun r => trivial)
    | webhook => cases hx
    | retryFailed => cases hx

/-- Events of any customers in any order, each dispatched any number of times, with
checkout requests in between: what is bound to a claim fits together, and so does
what a desktop is handed. -/
theorem claimed_license_usable (custOf : String → String) (srv : CheckoutService)
    (hbilling : srv.billingEnabled=true) (w : World) (hw : w.store={}) (steps : List ClaimStep)
    (hsteps : ∀ x ∈ steps, x.fits custOf = true) :
    let w' := Machine.run (claimStep srv) w steps
    (∀ nonce c, w'.store.checkoutClaims.get nonce = some c →
      c.status = .ready ∨ c.status=.consumed →
      ∃ l, w'.store.licenses.get c.licenseID = some l ∧ l.accountID=c.accountID ∧
        l.subscriptionID = c.subscriptionID) ∧
    ∀ req as resp, (serve (handleClaimAccount srv req) as w').1 = .ok (.claimed resp) →
      ∃ l, (serve (handleClaimAccount srv req) as w').2.store.licenses.get resp.licenseID = some l ∧
        l.accountID = resp.accountID ∧ l.subscriptionID=resp.subscriptionID := by
  intro w'
  have hstart : Tied custOf w.store := by
    rw [hw]
    refine ⟨owned_empty,fun id a h => ?_,fun nonce c h => ?_⟩
    · simp at h
    · simp at h
  have hrun : Tied custOf w'.store :=
    Machine.guarded_invariant (claimStep srv) (fun _ x => x.fits custOf = true)
      (fun w => Tied custOf w.store) (fun w x h hx => tied_claimStep hbilling w x hx h) w steps hstart
      (Machine.guarded_of_forall _ _ w steps fun x hx _ => hsteps x hx)
  refine ⟨fun nonce c hc hstatus => hrun.2.2 nonce c hc ?_,fun req as resp hresp => ?_⟩
  · rcases hstatus with h | h <;> rw [h] <;> intro heq <;> cases heq
  have hhanded : Keeps (fun _ => True) (Tied custOf) (handleClaimAccount srv req)
      (Handed custOf) := handleClaimAccount_handed srv req
  exact (hhanded (w',as) ⟨hrun,fun _ _ _ _ => trivial⟩).1.2 resp hresp

def billedCheckout : CheckoutService where
  toService := sampleService
  checkoutPriceID := "price_1"
  claimTTL := 1000
  parseURL raw := some
    { scheme := "http", hasUser := false, host := "localhost", hostname := "localhost",
      withQuery := fun key value => raw ++ "?" ++ key ++ "=" ++ value }
  isLoopbackIP _ := false

def creationFirst : List ClaimStep :=
  [.request (.startCheckout (fun _ => .session "https://pay" "cs_1")
      (some { nonce := "0123456789abcdefghijkl", redirectURI := "http://localhost" })) (drawing "n"),
    .event (⟨"evt_1",.customerSubscriptionCreated (some sampleSubscription)⟩,drawing "a"),
    .event (⟨"evt_2",.checkoutSessionCompleted (some
      { id := "cs_1", customer := some "cus_1", subscription := some "sub_1",
        metadata := [("nonce","0123456789abcdefghijkl")] })⟩,
      (drawing "b").map fun a => { a with subscription := some sampleSubscription }),
    .event (⟨"evt_1",.customerSubscriptionCreated (some sampleSubscription)⟩,drawing "c")]

def claimRequest : Option ClaimReq := some { nonce := "0123456789abcdefghijkl" }

theorem claimed_license_usable_creationFirst :
    let w := Machine.run (claimStep billedCheckout) {} creationFirst
    let claimed := serve (handleClaimAccount billedCheckout claimRequest) (drawing "s") w
    claimed.1 = .ok (.claimed ⟨"acct_a","acct_a.s","lic_a","sub_1"⟩) ∧
      ∃ l, claimed.2.store.licenses.get "lic_a" = some l ∧ l.accountID = "acct_a" ∧
        l.subscriptionID = "sub_1" := by
  intro w claimed
  have hclaimed : claimed.1 = .ok (.claimed ⟨"acct_a","acct_a.s","lic_a","sub_1"⟩) := by
    decide +kernel
  exact ⟨hclaimed,(claimed_license_usable (fun _ => "cus_1") billedCheckout rfl {} rfl creationFirst
    (by decide +kernel)).2 claimRequest (drawing "s") _ hclaimed⟩

end SecureGateway.Billing
