import SecureGateway.Auth.Pairing
import SecureGateway.Auth.Writes

/-!
# What the handlers know when they write

For every call of a handler that creates or rewrites a record, `Permitted` says what the
handler has read before it, in terms of its calls and their answers. The last section
relates an answer in the log to the store.
-/

namespace SecureGateway.Auth
open Authstore Prog

def Saw (log : List Event) (op : StoreOp) (r : op.Res) : Prop := (⟨.store op,r⟩ : Event) ∈ log

variable {log : List Event}

variable {a : Answer} {op : StoreOp}

theorem Saw.mono {l : List Event} {r : op.Res} (h : Saw log op r) (hl : log <:+ l) :
    Saw l op r := hl.subset h

theorem Saw.tail {r : op.Res} {e : Event} (h : Saw log op r) :
    Saw (e::log) op r := List.mem_cons_of_mem _ h

theorem saw_head (log : List Event) (op : StoreOp) (r : op.Res) :
    Saw (⟨.store op,r⟩::log) op r := List.mem_cons_self

/- The stored refresh token that a request read first. -/
def presented (log : List Event) : Option RefreshToken :=
  match log.getLast? with
  | some ⟨.store (.getRefreshToken _),.ok rt⟩ => some rt
  | _ => none

theorem presented_of_suffix {id : String} {rt : RefreshToken}
    (h : [⟨.store (.getRefreshToken id),.ok rt⟩] <:+ log) : presented log=some rt := by
  obtain ⟨l,rfl⟩:=h
  simp [presented]

theorem presented_cons (h : log≠[]) (e : Event) : presented (e::log)=presented log := by
  obtain ⟨e',l,rfl⟩:=List.exists_cons_of_ne_nil h
  simp [presented]

def Carries (ev : Stripe.Event) (sub : Stripe.Subscription) : Prop :=
  ev.data = .customerSubscriptionCreated (some sub) ∨
    ev.data = .customerSubscriptionUpdated (some sub) ∨
    ev.data = .customerSubscriptionDeleted (some sub)

section
variable (given : Stripe.Subscription → Prop)

/-- The Stripe objects a handler has: those of its request, what the Stripe API
answered, and those in the recorded events it lists. -/
def Heard (log : List Event) (sub : Stripe.Subscription) : Prop :=
  given sub ∨
    (∃ id, (⟨.stripeGetSubscription id,.ok sub⟩ : Event) ∈ log) ∨
    (∃ subs, (⟨.stripeListSubscriptions,.ok subs⟩ : Event) ∈ log ∧ sub ∈ subs) ∨
    ∃ status limit events e ev, Saw log (.listWebhookEventsByStatus status limit) (.ok events) ∧
      e ∈ events ∧ e.payload = some ev ∧ Carries ev sub

variable {given} in
theorem Heard.mono {l : List Event} {sub : Stripe.Subscription} (h : Heard given log sub)
    (hl : log <:+ l) : Heard given l sub := by
  rcases h with h | ⟨id,h⟩ | ⟨subs,h,hs⟩ | ⟨status,limit,events,e,ev,h,he⟩
  · exact .inl h
  · exact .inr (.inl ⟨id,hl.subset h⟩)
  · exact .inr (.inr (.inl ⟨subs,hl.subset h,hs⟩))
  · exact .inr (.inr (.inr ⟨status,limit,events,e,ev,h.mono hl,he⟩))

def listed (subID : String) : Event → Option ℕ
  | ⟨.store (.listLicensesBySubscription id),.ok ls⟩ => if id=subID then some ls.length else none
  | _ => none

def created (subID : String) : Event → Bool
  | ⟨.store (.createLicense l),.ok _⟩ => l.subscriptionID == subID
  | _ => false

/-- How many licenses of the subscription the handler knows of: those it last
listed, and those it has created since. -/
def counted (subID : String) : List Event → Option ℕ
  | [] => none
  | e :: log =>
    match listed subID e with
    | some n => some n
    | none => (counted subID log).map (· + if created subID e then 1 else 0)

/-- Where a mirror row comes from: a Stripe object, a row read before whose
`maxPairs` it keeps, or a new open subscription. -/
def Mirrors (log : List Event) (m : Subscription) : Prop :=
  (∃ sub, Heard given log sub ∧ m.id=sub.id ∧ m.maxPairs = Stripe.maxPairsFor sub) ∨
    (∃ id m₀, Saw log (.getSubscription id) (.ok m₀) ∧ m.id=m₀.id ∧ m.maxPairs=m₀.maxPairs) ∨
    (⟨.newID "sub",m.id⟩ : Event) ∈ log

/-- A license is created while fewer of its subscription are known than the
mirror the handler wrote allows, or for a new open subscription. -/
def Entitled (log : List Event) (l : License) : Prop :=
  (∃ m n, Saw log (.upsertSubscription m) (.ok ()) ∧ m.id=l.subscriptionID ∧
      counted l.subscriptionID log = some n ∧ n < m.maxPairs) ∨
    (⟨.newID "sub",l.subscriptionID⟩ : Event) ∈ log

/- A pairing token names a license that was read, under its account. -/
def Offers (log : List Event) (t : PairingToken) : Prop :=
  ∃ id lic, Saw log (.getLicense id) (.ok lic) ∧ t.licenseID=lic.id ∧ t.accountID=lic.accountID

/-- A new pairing has the account of the pairing token and the license the
token names, and is inserted under the `maxPairs` of the license's mirror. -/
def Completes (log : List Event) (p : Pairing) (maxPairs : ℕ) : Prop :=
  ∃ id pt lic sub, Saw log (.getPairingToken id) (.ok pt) ∧
    Saw log (.getLicense pt.licenseID) (.ok lic) ∧
    Saw log (.getSubscription lic.subscriptionID) (.ok sub) ∧
    p.licenseID = lic.id ∧ p.accountID=pt.accountID ∧ maxPairs=sub.maxPairs

/- The pairing was read, and it is the account's or that of a refresh token of
the account. -/
def Backed (log : List Event) (accountID : String) (pairing : Pairing) : Prop :=
  ∃ id, Saw log (.getPairing id) (.ok pairing) ∧
    (pairing.accountID=accountID ∨
      ∃ hash rt, Saw log (.getRefreshToken hash) (.ok rt) ∧ rt.pairID=id ∧
        rt.accountID = accountID)

theorem Backed.mono {l : List Event} {accountID : String} {pairing : Pairing}
    (h : Backed log accountID pairing) (hl : log <:+ l) : Backed l accountID pairing := by
  obtain ⟨id,hsaw,hacct⟩:=h
  refine ⟨id,hsaw.mono hl,hacct.imp_right ?_⟩
  rintro ⟨hash,rt,hrt,hr⟩
  exact ⟨hash,rt,hrt.mono hl,hr⟩

/- The calls that leave pairings, devices, licenses and mirrors alone. -/
def Op.quiet : Op → Bool
  | .store (.upsertSubscription _) | .store (.createLicense _) | .store (.setLicenseStatus _ _)
  | .store (.upsertDevice _) | .store (.createPairing _)
  | .store (.createPairingWithinCapacity _ _) | .store (.setPairingStatus _ _)
  | .store (.updatePairingDevices _ _ _) => false
  | _ => true

def Quiet (log : List Event) : Prop := ∀ e ∈ log, e.1.quiet=true

theorem Quiet.cons {op : Op} {r : op.Rep} (hop : op.quiet=true) (h : Quiet log) :
    Quiet (⟨op,r⟩::log) := by
  intro e he
  rcases List.mem_cons.1 he with rfl | he
  · exact hop
  · exact h e he

/- The license is active and, with billing, its mirror was read and honoured
at an instant the clock showed. -/
def Honoured (billing : Bool) (log : List Event) (lic : License) : Prop :=
  lic.status = .active ∧
    (billing=true → ∃ sub t, Saw log (.getSubscription lic.subscriptionID) (.ok sub) ∧
      (⟨.now,t⟩ : Event) ∈ log ∧ License.issuable (License.evaluate sub t) = true)

/-- What the service has checked when it mints a token. -/
structure Authorizes (billing : Bool) (log : List Event) (accountID : String) (pairing : Pairing)
    (dev : Device) (lic : License) : Prop where
  quiet : Quiet log
  backed : Backed log accountID pairing
  active : pairing.status=.active
  device : ∃ id, Saw log (.getDevice id) (.ok dev)
  account : dev.accountID=accountID
  member : pairingHasDevice pairing dev = true
  license : Saw log (.getLicense pairing.licenseID) (.ok lic)
  honoured : Honoured billing log lic

def Mints (billing : Bool) (log : List Event) (p : TokenParams) : Prop :=
  ∃ pairing dev lic, Authorizes billing log p.accountID pairing dev lic ∧ p.pairID=pairing.pairID ∧
    p.deviceID = dev.id ∧ p.role=dev.role ∧ p.licenseID=lic.id

/-- What a call presupposes, for a service with or without billing. -/
def Permitted (billing : Bool) (log : List Event) : Op → Prop
  | .store (.upsertSubscription m) => Mirrors given log m
  | .store (.createLicense l) => Entitled log l
  | .store (.createPairingToken t) => Offers log t
  | .store (.createPairingWithinCapacity p maxPairs) => Completes log p maxPairs
  | .store (.createPairing _) => False
  | .store (.setPairingStatus _ status) => status = .revoked
  | .store (.putRefreshToken rt) =>
    ∃ pairing, Backed log rt.accountID pairing ∧ pairing.pairID=rt.pairID
  | .store (.insertWebhookEventIfAbsent e) =>
    ∀ ev sub, e.payload = some ev → Carries ev sub → given sub
  | .newID tag => tag = "sub" → billing=false
  | .mint p => Mints billing log p
  | _ => True

theorem permitted_newID {billing : Bool} {tag : String} (h : tag ≠ "sub") :
    Permitted given billing log (.newID tag) := fun heq => absurd heq h

end

theorem perform_writes (a : Answer) (op : Op) (w : World) :
    (perform a op w).2.store=w.store ∨
      ∃ sop,op = .store sop ∧ Writes w.store sop (perform a op w).2.store := by
  cases op with
  | store sop =>
    cases hf : a.fault with
    | true => exact .inl (by simp [perform,hf])
    | false =>
      refine .inr ⟨sop,rfl,?_⟩
      have : (perform a (.store sop) w).2.store=(w.store.exec ⟨w.clock,a.ties⟩ sop).2 := by simp [perform,hf]
      rw [this]
      exact w.store.exec_writes _ sop
  | _ => exact .inl rfl

variable {w : World}

theorem perform_ok {x : op.Out} (h : (perform a (.store op) w).1 = .ok x) :
    (w.store.exec ⟨w.clock,a.ties⟩ op).1 = .ok x ∧
      (perform a (.store op) w).2.store=(w.store.exec ⟨w.clock,a.ties⟩ op).2 := by
  cases hf : a.fault with
  | true => simp [perform,hf] at h
  | false => simpa [perform,hf] using h

theorem perform_error {e : Err} (h : (perform a (.store op) w).1 = .error e) :
    (perform a (.store op) w).2.store=w.store := by
  cases hf : a.fault with
  | true => simp [perform,hf]
  | false =>
    have hexec : (w.store.exec ⟨w.clock,a.ties⟩ op).1 = .error e := by simpa [perform,hf] using h
    simpa [perform,hf] using Store.exec_error hexec

theorem perform_frame (a : Answer) (op : StoreOp) (w : World) :
    (op.rotates=false →
        (perform a (.store op) w).2.store.refreshTokens=w.store.refreshTokens) ∧
      (op.credits=false →
        (perform a (.store op) w).2.store.pairCredentials=w.store.pairCredentials) ∧
      (op.pairs=false → (perform a (.store op) w).2.store.pairings=w.store.pairings) ∧
      (op.claims=false →
        (perform a (.store op) w).2.store.checkoutClaims=w.store.checkoutClaims) := by
  cases hf : a.fault with
  | true => simp [perform,hf]
  | false => simpa [perform,hf] using w.store.exec_frame _ op

theorem perform_read (a : Answer) (op : StoreOp) (w : World)
    (h : (w.store.exec ⟨w.clock,a.ties⟩ op).2=w.store) : (perform a (.store op) w).2.store=w.store := by
  cases hf : a.fault with
  | true => simp [perform,hf]
  | false => simpa [perform,hf] using h

theorem saw_perform {op : Op} {sop : StoreOp} {x : sop.Out}
    (h : Saw (⟨op,(perform a op w).1⟩::log) sop (.ok x)) :
    (op = .store sop ∧ (w.store.exec ⟨w.clock,a.ties⟩ sop).1 = .ok x) ∨ Saw log sop (.ok x) := by
  rcases List.mem_cons.1 h with heq | hold
  · obtain ⟨rfl,hr⟩:=Sigma.mk.inj heq
    exact .inl ⟨rfl,(perform_ok (eq_of_heq hr).symm).1⟩
  · exact .inr hold

def LicenseOf (s : Store) (id subID : String) : Prop :=
  ∃ l, s.licenses.get id = some l ∧ l.subscriptionID=subID

theorem LicenseOf.perform {op : Op} {id subID : String} (h : LicenseOf w.store id subID) :
    LicenseOf (perform a op w).2.store id subID := by
  rcases perform_writes a op w with hsame | ⟨sop,rfl,hw⟩
  · exact hsame.symm ▸ h
  generalize (Auth.perform a (.store sop) w).2.store=s' at hw
  cases hw with
  | license l hnew => exact Table.exists_get_put h fun l₀ hl₀ => by simp [hnew] at hl₀
  | licenseStatus id status l hold =>
    refine Table.exists_get_put h fun l₀ hl₀ hsub => ?_
    obtain rfl : l=l₀ := by simpa [Table.replaced hold rfl] using hl₀
    exact hsub
  | _ => exact h

theorem heard_perform {given : Stripe.Subscription → Prop} {op : Op} {sub : Stripe.Subscription}
    (h : Heard given (⟨op,(perform a op w).1⟩::log) sub) :
    Heard given log sub ∨ a.subscription=some sub ∨
      (∃ subs,a.subscriptions=some subs ∧ sub∈subs) ∨
      ∃ id e ev,w.store.webhookEvents.get id=some e ∧ e.payload=some ev ∧ Carries ev sub := by
  rcases h with h | ⟨id,h⟩ | ⟨subs,h,hs⟩ | ⟨status,limit,events,e,ev,h,he,hp,hc⟩
  · exact .inl (.inl h)
  · rcases List.mem_cons.1 h with heq | h
    · obtain ⟨rfl,hr⟩:=Sigma.mk.inj heq
      exact .inr (.inl (answered_eq_ok.1 (eq_of_heq hr).symm))
    · exact .inl (.inr (.inl ⟨id,h⟩))
  · rcases List.mem_cons.1 h with heq | h
    · obtain ⟨rfl,hr⟩:=Sigma.mk.inj heq
      exact .inr (.inr (.inl ⟨subs,answered_eq_ok.1 (eq_of_heq hr).symm,hs⟩))
    · exact .inl (.inr (.inr (.inl ⟨subs,h,hs⟩)))
  · rcases saw_perform h with ⟨rfl,hexec⟩ | h
    · cases hexec
      exact .inr (.inr (.inr ⟨e.id,e,ev,(Store.mem_listWebhookEvents he).1,hp,hc⟩))
    · exact .inl (.inr (.inr (.inr ⟨status,limit,events,e,ev,h,he,hp,hc⟩)))

end SecureGateway.Auth
