import Mathlib.Algebra.GroupWithZero.Nat
import Mathlib.Algebra.Order.BigOperators.Group.List
import SecureGateway.Auth.Authorization
import SecureGateway.Billing.Provisioning

/-!
# How many pairs a subscription entitles to

`ensureLicenses` provisions `MaxPairs` licenses, and the capacity gate lets each carry
`MaxPairs` active pairs, so a subscription whose `max_pairs` is always `N` can have `N * N`
and never more. It keeps within `N` where no license is given a second pair.
-/

namespace SecureGateway.Billing
open Authstore Auth Prog

/-- The active pairings over all licenses of the subscription. -/
def activePairs (s : Store) (subID : String) : ℕ :=
  ((s.licenses.list fun l => l.subscriptionID == subID).map fun l => s.activePairCount l.id).sum

def agrees (subID : String) (n : ℕ) (sub : Stripe.Subscription) : Bool :=
  sub.id != subID || Stripe.maxPairsFor sub == n

def subscriptionOf (ev : Stripe.Event) : Option Stripe.Subscription :=
  match ev.data with
  | .customerSubscriptionCreated sub | .customerSubscriptionUpdated sub
  | .customerSubscriptionDeleted sub => sub
  | _ => none

def agreesAnswer (subID : String) (n : ℕ) (a : Answer) : Bool :=
  a.subscription.all (agrees subID n) && (a.subscriptions.getD []).all (agrees subID n)

/-- All that Stripe says about the subscription during the request, in the event
or through its API, is that its `max_pairs` is `n`. -/
def constant (subID : String) (n : ℕ) (r : Request × List Answer) : Bool :=
  r.2.all (agreesAnswer subID n) &&
    match r.1 with
    | .webhook (some ev) _ => (subscriptionOf ev).all (agrees subID n)
    | _ => true

/-- The call adds a pairing to a license of the subscription that carries `k` or
more already, and the capacity gate at `n` lets it. -/
def crowded (subID : String) (n k : ℕ) (s : Store) : Op → Bool
  | .store (.createPairingWithinCapacity p _) =>
    (s.licenses.get p.licenseID).any (fun l => l.subscriptionID == subID) &&
      k ≤ s.activePairCount p.licenseID && s.activePairCount p.licenseID < n
  | _ => false

/-- No call of the request is `crowded` in the store it is made in. -/
def spacious (srv : Service) (subID : String) (n k : ℕ) (w : World) (r : Request × List Answer) :
    Bool :=
  ((handle srv r.1).trace answer (w,r.2)).all fun x => !crowded subID n k x.1.1.store x.2.1

theorem maxPairsFor_of_agrees {subID : String} {n : ℕ} {sub : Stripe.Subscription}
    (h : agrees subID n sub=true) (hid : sub.id=subID) : Stripe.maxPairsFor sub=n := by
  simpa [agrees,hid] using h

theorem subscriptionOf_carries {ev : Stripe.Event} {sub : Stripe.Subscription}
    (h : Carries ev sub) : subscriptionOf ev=some sub := by
  rcases h with h | h | h <;> simp [subscriptionOf,h]

theorem agrees_of_constant {subID : String} {n : ℕ} {r : Request × List Answer}
    (h : constant subID n r=true) (sub : Stripe.Subscription) (hc : r.1.carries sub) :
    agrees subID n sub=true := by
  obtain ⟨ev,signed,hr,hev⟩:=hc
  simp only [constant,hr,Bool.and_eq_true] at h
  simpa [subscriptionOf_carries hev] using h.2

structure Entitlement (subID : String) (n k : ℕ) (s : Store) : Prop where
  bound : Bound s
  mirror : ∀ id m, s.subscriptions.get id = some m → m.id=subID → m.maxPairs=n
  licenses : licenseCount s subID ≤ n
  pairs : ∀ id l, s.licenses.get id = some l → l.subscriptionID=subID → s.activePairCount l.id ≤ k
  recorded : ∀ id e, s.webhookEvents.get id = some e → ∀ ev sub, e.payload = some ev →
    Carries ev sub → agrees subID n sub = true

/-- What a request has been told about the subscription. -/
structure Informed (given : Stripe.Subscription → Prop) (subID : String) (n : ℕ)
    (log : List Event) (s : Store) : Prop where
  knows : Knows log s
  counts : ∀ k, counted subID log = some k → licenseCount s subID = k
  license : ∀ id lic, Saw log (.getLicense id) (.ok lic) → LicenseOf s id lic.subscriptionID
  read : ∀ id m, Saw log (.getSubscription id) (.ok m) → m.id=id ∧ (m.id=subID → m.maxPairs=n)
  written : ∀ m, Saw log (.upsertSubscription m) (.ok ()) → m.id=subID → m.maxPairs=n
  heard : ∀ sub, Heard given log sub → agrees subID n sub = true
  /- with billing, no request opens a subscription of its own -/
  noOpen : ∀ e ∈ log, e.1 ≠ .newID "sub"

variable {given : Stripe.Subscription → Prop} {subID : String} {n k : ℕ} {log : List Event}

variable {s : Store}

theorem Informed.mirrors (h : Informed given subID n log s) {m : Subscription}
    (hm : Mirrors given log m) (hid : m.id=subID) : m.maxPairs=n := by
  rcases hm with ⟨sub,hheard,hsub,hmax⟩ | ⟨id,m₀,hsaw,hm₀,hmax⟩ | hopen
  · rw [hmax]
    exact maxPairsFor_of_agrees (h.heard sub hheard) (hsub.symm.trans hid)
  · rw [hmax]
    exact (h.read id m₀ hsaw).2 (hm₀.symm.trans hid)
  · exact absurd rfl (h.noOpen _ hopen)

theorem Informed.room (h : Informed given subID n log s) {l : License} (hl : Entitled log l)
    (hsub : l.subscriptionID=subID) : licenseCount s subID<n := by
  rcases hl with ⟨m,k,hsaw,hid,hcount,hlt⟩ | hopen
  · rw [hsub] at hid hcount
    rw [h.counts k hcount]
    exact h.written m hsaw hid ▸ hlt
  · exact absurd rfl (h.noOpen _ hopen)

theorem activePairCount_of_absent (h : Bound s) {id : String} (hnone : s.licenses.get id=none) :
    s.activePairCount id=0 := by
  refine Store.activePairCount_eq_zero fun k p hget hon => ?_
  obtain ⟨l,hl,-⟩:=h.pairing k p hget
  rw [hon,hnone] at hl
  cases hl

theorem Informed.free (hi : Informed given subID n log s) {p : Pairing} {maxPairs : ℕ}
    (hok : Completes log p maxPairs) {l : License} (hl : s.licenses.get l.id=some l)
    (hsub : l.subscriptionID=subID) (hp : p.licenseID=l.id) : maxPairs=n := by
  obtain ⟨tokenID,pt,lic,sub,-,hlic,hmirror,hplic,-,rfl⟩:=hok
  obtain ⟨l',hl',hsame⟩:=hi.license _ lic hlic
  have hid : lic.id=pt.licenseID := (hi.knows.remembers.license _ lic hlic).1
  rw [← hid,← hplic,hp,hl] at hl'
  cases hl'
  obtain ⟨hkey,hmax⟩:=hi.read _ sub hmirror
  exact hmax (hkey.trans (hsame.symm.trans hsub))

theorem Entitlement.pairs_writes {s' : Store} {op : StoreOp} (h : Entitlement subID n k s)
    (hi : Informed given subID n log s) (hok : Permitted given true log (.store op))
    (hroom : crowded subID n k s (.store op)=false) (hw : Writes s op s') (id : String)
    (l : License) (hl : s'.licenses.get id=some l) (hsub : l.subscriptionID=subID) :
    s'.activePairCount l.id≤k := by
  revert id l
  cases hw with
  | license l' hnew =>
    refine Table.forall_get_put (fun _ => ?_) h.pairs
    exact (activePairCount_of_absent h.bound hnew).trans_le (Nat.zero_le k)
  | licenseStatus id status l' hold => exact Table.forall_get_put (h.pairs id l' hold) h.pairs
  | pairing p hnew => exact absurd hok (fun h => h)
  | pairingWithin p maxPairs hnew hfree =>
    intro id l hl hsub
    by_cases hp : p.licenseID=l.id
    · have hget : s.licenses.get l.id=some l := Table.key_of_get hl ▸ hl
      have hbelow : s.activePairCount l.id<n := by
        rw [← hi.free hok hget hsub hp,← hp]
        exact hfree
      have hspare : s.activePairCount l.id<k := by
        by_contra hge
        simp [crowded,hp,hget,hsub,hbelow,Nat.le_of_not_lt hge] at hroom
      exact (Table.count_put_le _ _ _).trans hspare
    · refine (Table.count_put_le_same fun hon => ?_).trans (h.pairs id l hl hsub)
      simp [Store.activeOn,hp] at hon
  | pairingStatus pairID status p hold =>
    intro id l hl hsub
    refine (Table.count_put_le_same fun hon => ?_).trans (h.pairs id l hl hsub)
    obtain rfl : status=.revoked := hok
    simp [Store.activeOn] at hon
  | pairingDevices pairID mobileID desktopID p hold =>
    intro id l hl hsub
    refine (Table.count_put_le_same fun hon => ?_).trans (h.pairs id l hl hsub)
    exact ⟨p,Table.replaced hold rfl,hon⟩
  | _ => exact h.pairs

theorem Entitlement.mirror_writes {s' : Store} {op : StoreOp} (h : Entitlement subID n k s)
    (hi : Informed given subID n log s) (hok : Permitted given true log (.store op))
    (hw : Writes s op s') : ∀ id m,s'.subscriptions.get id=some m → m.id=subID → m.maxPairs=n := by
  cases hw with
  | subscription m => exact Table.forall_get_put (hi.mirrors hok) h.mirror
  | _ => exact h.mirror

theorem Entitlement.recorded_writes {s' : Store} {op : StoreOp} (h : Entitlement subID n k s)
    (hgiven : ∀ sub,given sub → agrees subID n sub=true)
    (hok : Permitted given true log (.store op)) (hw : Writes s op s') :
    ∀ id e,s'.webhookEvents.get id=some e → ∀ ev sub,e.payload=some ev →
      Carries ev sub → agrees subID n sub=true := by
  cases hw with
  | webhook e hnew =>
    exact Table.forall_get_put (fun ev sub hp hc => hgiven sub (hok ev sub hp hc)) h.recorded
  | webhookStatus id status attempts processedAt e hold =>
    exact Table.forall_get_put (h.recorded id e hold) h.recorded
  | _ => exact h.recorded

theorem Entitlement.licenses_perform {a : Answer} {op : Op} {w : World}
    (h : Entitlement subID n k w.store) (hi : Informed given subID n log w.store)
    (hok : Permitted given true log op) : licenseCount (perform a op w).2.store subID≤n := by
  rw [licenseCount_perform]
  split
  · next hcreated =>
    obtain ⟨l,rfl,hsub⟩:=eq_createLicense_of_created hcreated
    exact hi.room hok hsub
  · exact h.licenses

theorem Entitlement.perform {a : Answer} {op : Op} {w : World} (h : Entitlement subID n k w.store)
    (hi : Informed given subID n log w.store) (hgiven : ∀ sub,given sub → agrees subID n sub=true)
    (hok : Permitted given true log op) (hroom : crowded subID n k w.store op=false) :
    Entitlement subID n k (perform a op w).2.store := by
  have hlicenses:=h.licenses_perform (a := a) hi hok
  have hbound:=(hi.knows.perform (a := a) hok).bound
  rcases perform_writes a op w with hsame | ⟨sop,rfl,hw⟩
  · exact hsame.symm ▸ h
  · exact ⟨hbound,h.mirror_writes hi hok hw,hlicenses,h.pairs_writes hi hok hroom hw,
      h.recorded_writes hgiven hok hw⟩

theorem Informed.perform {a : Answer} {op : Op} {w : World}
    (hi : Informed given subID n log w.store) (h : Entitlement subID n k w.store)
    (ha : agreesAnswer subID n a=true) (hok : Permitted given true log op) :
    Informed given subID n (⟨op,(perform a op w).1⟩::log) (perform a op w).2.store where
  knows := hi.knows.perform hok
  counts k hk := counted_perform hk fun _ => hi.counts
  license id lic hsaw := by
    refine LicenseOf.perform ?_
    rcases saw_perform hsaw with ⟨-,hexec⟩ | hold
    · exact ⟨lic,by simpa [Store.exec] using hexec,rfl⟩
    · exact hi.license id lic hold
  read id m hsaw := by
    rcases saw_perform hsaw with ⟨-,hexec⟩ | hold
    · have hget : w.store.subscriptions.get id=some m := by simpa [Store.exec] using hexec
      exact ⟨Table.key_of_get hget,h.mirror id m hget⟩
    · exact hi.read id m hold
  written m hsaw hid := by
    rcases saw_perform hsaw with ⟨rfl,-⟩ | hold
    · exact hi.mirrors hok hid
    · exact hi.written m hold hid
  heard sub hheard := by
    simp only [agreesAnswer,Bool.and_eq_true,Option.all_eq_true,List.all_eq_true] at ha
    rcases heard_perform hheard with hold | hsub | ⟨subs,hsubs,hmem⟩ | ⟨id,e,ev,he,hp,hc⟩
    · exact hi.heard sub hold
    · exact ha.1 sub hsub
    · exact ha.2 sub (by simpa [hsubs] using hmem)
    · exact h.recorded id e he ev sub hp hc
  noOpen e he := by
    rcases List.mem_cons.1 he with rfl | he
    · rintro rfl
      exact absurd (hok rfl) (by decide)
    · exact hi.noOpen e he

theorem entitlement_empty (subID : String) (n k : ℕ) : Entitlement subID n k {} where
  bound := bound_empty
  mirror := by simp
  licenses := by simp [licenseCount,Table.count]
  pairs := by simp
  recorded := by simp

theorem informed_start (h : Entitlement subID n k s)
    (hgiven : ∀ sub,given sub → agrees subID n sub=true) : Informed given subID n [] s where
  knows := knows_start h.bound
  counts _ hk := by cases hk
  license _ _ hsaw := by cases hsaw
  read _ _ hsaw := by cases hsaw
  written _ hsaw := by cases hsaw
  heard sub hheard := by
    rcases hheard with hsub | ⟨_,hmem⟩ | ⟨_,hmem,-⟩ | ⟨_,_,_,_,_,hmem,-⟩
    · exact hgiven sub hsub
    all_goals cases hmem
  noOpen _ he := by cases he

/-- What is known during a request of a serial run, with the answers still to come. -/
def Tracked (given : Stripe.Subscription → Prop) (subID : String) (n k : ℕ) (log : List Event)
    (s : World × List Answer) : Prop :=
  Entitlement subID n k s.1.store ∧ Informed given subID n log s.1.store ∧
    ∀ a ∈ s.2, agreesAnswer subID n a = true

theorem tracked_answer (hgiven : ∀ sub,given sub → agrees subID n sub=true) (log : List Event)
    (op : Op) (s : World × List Answer) (h : Tracked given subID n k log s)
    (hok : Permitted given true log op) (hroom : crowded subID n k s.1.store op=false) :
    Tracked given subID n k (⟨op,(answer op s).1⟩::log) (answer op s).2 := by
  obtain ⟨hent,hinf,hrest⟩:=h
  have hhead : agreesAnswer subID n (s.2.headD {})=true := by
    cases hs : s.2 with
    | nil => rfl
    | cons a as => exact hrest a (hs ▸ List.mem_cons_self)
  exact ⟨hent.perform hinf hgiven hok hroom,hinf.perform hent hhead hok,
    fun a ha => hrest a (List.mem_of_mem_tail ha)⟩

theorem entitlement_next {srv : Service} (hbilling : srv.billingEnabled=true) (w : World)
    (r : Request × List Answer) (h : Entitlement subID n k w.store) (hr : constant subID n r=true)
    (hroom : spacious srv subID n k w r=true) : Entitlement subID n k (next srv w r).store := by
  have hgiven:=agrees_of_constant hr
  have hanswers : ∀ a∈r.2,agreesAnswer subID n a=true :=
    List.all_eq_true.1 (Bool.and_eq_true _ _ ▸ hr).1
  have hcalls : ∀ x∈(handle srv r.1).trace answer (w,r.2),
      crowded subID n k x.1.1.store x.2.1=false := by
    simpa [spacious] using hroom
  obtain ⟨hinv,-⟩:=run_guarded answer (Permitted r.1.carries true)
    (Tracked r.1.carries subID n k) _ (tracked_answer hgiven) _ (handle srv r.1) [] (w,r.2)
    (handle_obeys (fun _ => hbilling) r.1 fun _ h => h) hcalls
    ⟨h,informed_start h hgiven,hanswers⟩
  exact hinv.1

theorem entitlement_run {srv : Service} (hbilling : srv.billingEnabled=true) (clock : Time)
    (channel : Channel) (rs : List (Request × List Answer))
    (hrs : Machine.Guarded (next srv)
      (fun w r => (constant subID n r && spacious srv subID n k w r)=true)
      { clock := clock, channel := channel } rs) :
    Entitlement subID n k
      (Machine.run (next srv) { clock := clock, channel := channel } rs).store := by
  refine Machine.guarded_invariant (next srv) _ (fun w => Entitlement subID n k w.store) ?_ _ rs
    (entitlement_empty subID n k) hrs
  intro w r h hr
  rw [Bool.and_eq_true] at hr
  exact entitlement_next hbilling w r h hr.1 hr.2

theorem Entitlement.activePairs_le (h : Entitlement subID n k s) : activePairs s subID≤n*k := by
  have hsum : activePairs s subID≤licenseCount s subID*k := by
    refine (List.sum_le_card_nsmul _ k ?_).trans_eq (by simp [licenseCount,Table.count])
    intro c hc
    obtain ⟨l,hl,rfl⟩:=List.mem_map.1 hc
    obtain ⟨hget,hsub⟩:=Table.mem_list.1 hl
    exact h.pairs l.id l hget (by simpa using hsub)
  exact hsum.trans (Nat.mul_le_mul_right k h.licenses)

/-- In every such run that gives no license a second pair, the subscription has
at most `n` active pairs. -/
theorem entitlement_kept (srv : Service) (hbilling : srv.billingEnabled=true)
    (subID : String) (n : ℕ) (clock : Time) (channel : Channel)
    (rs : List (Request × List Answer))
    (hrs : Machine.Guarded (next srv)
      (fun w r => (constant subID n r && spacious srv subID n 1 w r) = true)
      { clock := clock, channel := channel } rs) :
    activePairs (Machine.run (next srv) { clock := clock, channel := channel } rs).store subID ≤
      n :=
  (entitlement_run hbilling clock channel rs hrs).activePairs_le.trans_eq (Nat.mul_one n)

def twoPairs : Stripe.Subscription :=
  { id := "sub_1", customer := some "cus_1", status := .active, metadata := [("max_pairs","2")] }

def pairOn (licenseID desktopDeviceID fresh : String) : List (Request × List Answer) :=
  [(.createPairingToken "Bearer acct_a.s"
      (some { licenseID := licenseID, desktopDeviceID := desktopDeviceID }),drawing fresh),
    (.completePairing (some { pairingToken := "pt_" ++ fresh, mobilePublicKey := "A" }),
      drawing fresh)]

def pairEach : List (Request × List Answer) :=
  [(.webhook (some ⟨"evt_1",.customerSubscriptionCreated (some twoPairs)⟩) true,
      (drawing "a").take 12 ++ drawing "b"),
    (.createAccount "Bearer root" (some "acct_a"),drawing "s"),
    (.registerDevice "Bearer acct_a.s" (some { role := "desktop", publicKey := "AQ==" }),
      drawing "d"),
    (.registerDevice "Bearer acct_a.s" (some { role := "desktop", publicKey := "AQI=AQ==" }),
      drawing "e")] ++
  pairOn "lic_a" "dev_d" "p" ++ pairOn "lic_b" "dev_d" "q"

theorem entitlement_kept_pairEach :
    activePairs (Machine.run (next sampleService) {} pairEach).store "sub_1" = 2 ∧
      activePairs (Machine.run (next sampleService) {} pairEach).store "sub_1" ≤ 2 :=
  ⟨by decide +kernel,
    entitlement_kept sampleService rfl "sub_1" 2 0 {} pairEach (by decide +kernel)⟩

def twoLicenses : List (Request × List Answer) := pairEach ++ pairOn "lic_a" "dev_e" "r"

theorem two_licenses_exceed_entitlement :
    sampleService.billingEnabled = true ∧ twoLicenses.all (constant "sub_1" 2) = true ∧
      ¬ activePairs (Machine.run (next sampleService) {} twoLicenses).store "sub_1" ≤ 2 := by
  decide +kernel

end SecureGateway.Billing
