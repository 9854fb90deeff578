import SecureGateway.Auth.Checks
import SecureGateway.Lib.Machine

/-!
# The subscription status (`handleGetSubscription` in `checkout.go`)

The endpoint reports the first license of the account, in the order of ids, whose
subscription is mirrored; whether a token may be issued is decided by `licenseIssuable`, for
one license. The two agree exactly in the stores that are `representative` of the account. A
request runs at one moment, in which no call fails.
-/

namespace SecureGateway.License

def Behavior.string : Behavior → String
  | valid => "valid"
  | grace => "grace"
  | revoked => "revoked"
  | suspended => "suspended"

end SecureGateway.License

namespace SecureGateway.Auth
open Authstore Prog

def unixOf (t : Time) : ℤ := t / 1000000000 - 62135596800

structure SubscriptionResp where
  status : String
  subscriptionID : String
  currentPeriodEnd : ℤ
  maxPairs : ℕ
  licenseID : String
  deriving DecidableEq

def report (lic : License) (sub : Subscription) (t : Time) : SubscriptionResp where
  status := (License.evaluate sub t).string
  subscriptionID := sub.id
  currentPeriodEnd := unixOf sub.currentPeriodEnd
  maxPairs := sub.maxPairs
  licenseID := lic.id

def reportFirst : List License → Handler (Except Reject SubscriptionResp)
  | [] => return .error ⟨404,"no_subscription"⟩
  | lic :: lics => do
    match ← store (.getSubscription lic.subscriptionID) with
    | .error _ => reportFirst lics
    | .ok sub =>
      let t ← now
      return .ok (report lic sub t)

def handleGetSubscription (s : Service) (authorization : String) :
    Handler (Except Reject SubscriptionResp) := do
  match ← authenticateAccount s authorization with
  | none => return .error ⟨401,"unauthorized"⟩
  | some accountID =>
    match ← store (.listLicensesByAccount accountID) with
    | .error _ => return .error ⟨500,"store_error"⟩
    | .ok lics => reportFirst lics

def mirroredLicenses (s : Store) (accountID : String) : List (License × Subscription) :=
  (s.licenses.list fun l => l.accountID == accountID).filterMap fun l =>
    (s.subscriptions.get l.subscriptionID).map fun m => (l,m)

def honoured (t : Time) (m : Subscription) : Bool := License.issuable (License.evaluate m t)

/-- The first of them is active if its subscription is honoured; if it is not, none of the
others is active with a subscription that is. -/
def representative (s : Store) (t : Time) (accountID : String) : Bool :=
  match mirroredLicenses s accountID with
  | [] => true
  | (l,m) :: rest =>
    if honoured t m then l.status == .active
    else rest.all fun x => !(x.1.status == .active && honoured t x.2)

def usable (resp : SubscriptionResp) : Bool := resp.status == "valid" || resp.status == "grace"

theorem usable_report (l : License) (m : Subscription) (t : Time) :
    usable (report l m t)=honoured t m := by
  unfold usable report honoured
  cases License.evaluate m t with
  | valid => rfl
  | grace => rfl
  | revoked => rfl
  | suspended => rfl

section
variable {w : World} {srv : Service}

@[simp] theorem answer_store_idle (op : StoreOp) :
    answer (.store op) (w,[]) =
      ((w.store.exec ⟨w.clock,[]⟩ op).1,{ w with store := (w.store.exec ⟨w.clock,[]⟩ op).2 },[]) := rfl

theorem serve_reportFirst (lics : List License) :
    (serve (reportFirst lics) [] w).1 =
      match (lics.filterMap fun l =>
        (w.store.subscriptions.get l.subscriptionID).map fun m => (l,m)).head? with
      | none => .error ⟨404,"no_subscription"⟩
      | some x => .ok (report x.1 x.2 w.clock) := by
  induction lics with
  | nil => rfl
  | cons lic lics ih =>
    cases hget : w.store.subscriptions.get lic.subscriptionID with
    | none =>
      rw [List.filterMap_cons_none (by rw [hget]; rfl),← ih]
      simp only [serve,reportFirst,run_bind,run_perform,answer_store_idle,Store.exec,hget,
        Store.found]
    | some m =>
      rw [List.filterMap_cons_some (by rw [hget]; rfl)]
      simp only [serve,reportFirst,run_bind,run_perform,answer_store_idle,Store.exec,hget,
        Store.found,List.head?_cons,run_pure]
      simp [answer,perform]

theorem answer_checks_idle {op : Op} (h : op.checks=true) : (answer op (w,[])).2=(w,[]) := by
  cases op with
  | store sop =>
    cases sop with
    | getAccount | getPairCredential | getSubscription | getLicense | getDevice | getPairing => rfl
    | _ => cases h
  | now =>
    show (({ w with clock := w.clock+0 } : World),([] : List Answer))=(w,[])
    rw [Int.add_zero]
  | _ => cases h

theorem run_authenticateAccount (authorization : String) :
    (authenticateAccount srv authorization).run answer (w,[]) =
      ((serve (authenticateAccount srv authorization) [] w).1,w,[]) := by
  have hstate : ((authenticateAccount srv authorization).run answer (w,[])).2=(w,[]) := by
    refine (run_obeys answer Checks (fun _ s => s=(w,[])) ?_ _ _ []
      (w,[]) (authenticateAccount_checks authorization) rfl).1
    intro log op s hs hop
    rw [hs]
    exact answer_checks_idle hop
  exact Prod.ext rfl hstate

theorem serve_handleGetSubscription {authorization accountID : String}
    (hauth : (serve (authenticateAccount srv authorization) [] w).1=some accountID) :
    (serve (handleGetSubscription srv authorization) [] w).1 =
      match (mirroredLicenses w.store accountID).head? with
      | none => .error ⟨404,"no_subscription"⟩
      | some x => .ok (report x.1 x.2 w.clock) := by
  unfold serve handleGetSubscription
  simp only [run_bind,run_authenticateAccount,hauth,run_perform,answer_store_idle,Store.exec]
  exact serve_reportFirst _

theorem serve_licenseIssuable (hbilling : srv.billingEnabled=true) (lic : License) :
    (serve (licenseIssuable srv lic) [] w).1.2=true ↔
      lic.status = .active ∧ ∃ m,w.store.subscriptions.get lic.subscriptionID=some m ∧
        honoured w.clock m=true := by
  unfold serve licenseIssuable
  by_cases hactive : lic.status=.active
  · cases hget : w.store.subscriptions.get lic.subscriptionID with
    | none => simp [hactive,hbilling,Store.exec,Store.found,hget]
    | some m => simp [hactive,hbilling,Store.exec,Store.found,hget,answer,perform,honoured]
  · simp [hactive]

def OwnsIssuable (srv : Service) (w : World) (accountID id : String) : Prop :=
  ∃ lic, w.store.licenses.get id = some lic ∧ lic.accountID=accountID ∧
    (serve (licenseIssuable srv lic) [] w).1.2 = true

theorem mem_mirroredLicenses {s : Store} {accountID : String} {x : License × Subscription} :
    x∈mirroredLicenses s accountID ↔
      s.licenses.get x.1.id=some x.1 ∧ x.1.accountID=accountID ∧
        s.subscriptions.get x.1.subscriptionID=some x.2 := by
  unfold mirroredLicenses
  rw [List.mem_filterMap]
  constructor
  · intro h
    obtain ⟨l,hl,hx⟩:=h
    obtain ⟨hget,haccount⟩:=Table.mem_list.mp hl
    obtain ⟨m,hm,heq⟩:=Option.map_eq_some_iff.mp hx
    rw [← heq]
    exact ⟨hget,by simpa using haccount,hm⟩
  · intro h
    obtain ⟨hget,haccount,hm⟩:=h
    refine ⟨x.1,Table.mem_list.mpr ⟨hget,by simpa using haccount⟩,?_⟩
    rw [hm]
    rfl

theorem ownsIssuable_iff (hbilling : srv.billingEnabled=true) {accountID id : String} :
    OwnsIssuable srv w accountID id ↔
      ∃ x∈mirroredLicenses w.store accountID,x.1.id=id ∧ x.1.status=.active ∧
        honoured w.clock x.2=true := by
  constructor
  · intro h
    obtain ⟨lic,hget,haccount,hissuable⟩:=h
    obtain ⟨hactive,m,hm,hhonoured⟩:=(serve_licenseIssuable hbilling lic).mp hissuable
    have hid : lic.id=id := Table.key_of_get hget
    refine ⟨(lic,m),mem_mirroredLicenses.mpr ⟨?_,haccount,hm⟩,hid,hactive,hhonoured⟩
    rw [hid]
    exact hget
  · intro h
    obtain ⟨x,hx,hid,hactive,hhonoured⟩:=h
    obtain ⟨hget,haccount,hm⟩:=mem_mirroredLicenses.mp hx
    rw [← hid]
    exact ⟨x.1,hget,haccount,
      (serve_licenseIssuable hbilling x.1).mpr ⟨hactive,x.2,hm,hhonoured⟩⟩

theorem eq_of_mem_mirroredLicenses {s : Store} {accountID : String} {x y : License × Subscription}
    (hx : x∈mirroredLicenses s accountID) (hy : y∈mirroredLicenses s accountID)
    (hid : x.1.id=y.1.id) : x=y := by
  obtain ⟨hgetx,-,hmx⟩:=mem_mirroredLicenses.mp hx
  obtain ⟨hgety,-,hmy⟩:=mem_mirroredLicenses.mp hy
  rw [hid,hgety] at hgetx
  have hlic:=Option.some.inj hgetx
  rw [← hlic,hmy] at hmx
  exact Prod.ext hlic.symm (Option.some.inj hmx).symm

end

/-- The endpoint reports a usable subscription exactly if the account has a license that is
honoured, and then names one, exactly in the representative stores. -/
theorem status_agrees_iff_representative (srv : Service) (hbilling : srv.billingEnabled=true)
    (w : World) (authorization accountID : String)
    (hauth : (serve (authenticateAccount srv authorization) [] w).1 = some accountID) :
    (((∃ resp, (serve (handleGetSubscription srv authorization) [] w).1 = .ok resp ∧
        usable resp = true) ↔ ∃ id, OwnsIssuable srv w accountID id) ∧
      ∀ resp, (serve (handleGetSubscription srv authorization) [] w).1 = .ok resp →
        usable resp = true → OwnsIssuable srv w accountID resp.licenseID) ↔
      representative w.store w.clock accountID = true := by
  have howns : ∀ id, OwnsIssuable srv w accountID id ↔
      ∃ x ∈ mirroredLicenses w.store accountID, x.1.id=id ∧ x.1.status=.active ∧
        honoured w.clock x.2 = true := fun id => ownsIssuable_iff hbilling
  rw [serve_handleGetSubscription hauth]
  unfold representative
  cases hlist : mirroredLicenses w.store accountID with
  | nil => simp [howns,hlist]
  | cons x rest =>
    have hx : x ∈ mirroredLicenses w.store accountID := hlist ▸ List.mem_cons_self
    have hresp : ∀ resp, (Except.ok (report x.1 x.2 w.clock) : Except Reject _) = .ok resp ↔
        resp = report x.1 x.2 w.clock := by
      intro resp
      rw [Except.ok.injEq,eq_comm]
    simp only [List.head?_cons,hresp,exists_eq_left,forall_eq,usable_report]
    by_cases hhonoured : honoured w.clock x.2 = true
    · -- the report is about `x`, so the account must own it
      rw [if_pos hhonoured]
      have hfirst : OwnsIssuable srv w accountID x.1.id ↔ x.1.status=.active := by
        rw [howns]
        constructor
        · intro h
          obtain ⟨y,hy,hid,hactive,-⟩ := h
          rw [← eq_of_mem_mirroredLicenses hy hx hid]
          exact hactive
        · intro hactive
          exact ⟨x,hx,rfl,hactive,hhonoured⟩
      rw [beq_iff_eq,← hfirst]
      constructor
      · intro h
        exact h.2 hhonoured
      · intro h
        exact ⟨⟨fun _ => ⟨_,h⟩,fun _ => hhonoured⟩,fun _ => h⟩
    · -- nothing usable is reported, so there must be nothing
      rw [if_neg hhonoured]
      have hnone : (∃ id, OwnsIssuable srv w accountID id) ↔
          ∃ y ∈ rest, y.1.status=.active ∧ honoured w.clock y.2 = true := by
        constructor
        · intro h
          obtain ⟨id,h⟩ := h
          obtain ⟨y,hy,-,hactive,hy'⟩ := (howns id).mp h
          rw [hlist] at hy
          cases List.mem_cons.mp hy with
          | inl heq => exact absurd (heq ▸ hy') hhonoured
          | inr hmem => exact ⟨y,hmem,hactive,hy'⟩
        · intro h
          obtain ⟨y,hy,hactive,hy'⟩ := h
          exact ⟨y.1.id,(howns _).mpr ⟨y,hlist ▸ List.mem_cons_of_mem x hy,rfl,hactive,hy'⟩⟩
      rw [hnone]
      simp [hhonoured,imp_iff_not_or]

/-! The customer cancels, and buys again; or a failed invoice is reported after the
cancellation. -/

def subscribed : List (Request × List Answer) :=
  [(.webhook (some ⟨"evt_1",.customerSubscriptionCreated (some sampleSubscription)⟩) true,
      drawing "a"),
    (.createAccount "Bearer root" (some "acct_a"),drawing "s")]

def cancelled : List (Request × List Answer) :=
  subscribed ++
    [(.webhook (some ⟨"evt_2",.customerSubscriptionDeleted (some sampleSubscription)⟩) true,
      drawing "b")]

def boughtAgain : World :=
  Machine.run (next sampleService) {} (cancelled ++
    [(.webhook (some ⟨"evt_3",
      .customerSubscriptionCreated (some { sampleSubscription with id := "sub_2" })⟩) true,
      drawing "c")])

def failedLate : World :=
  Machine.run (next sampleService) {} (cancelled ++
    [(.webhook (some ⟨"evt_3",
      .invoicePaymentFailed (some { id := "in_1", subscription := some "sub_1" })⟩) true,
      drawing "c")])

def reported (w : World) : Option (String × String) :=
  match (serve (handleGetSubscription sampleService "Bearer acct_a.s") [] w).1 with
  | .ok resp => some (resp.status,resp.licenseID)
  | .error _ => none

def licenseHonoured (w : World) (id : String) : Bool :=
  (w.store.licenses.get id).any fun lic =>
    lic.accountID == "acct_a" && (serve (licenseIssuable sampleService lic) [] w).1.2

theorem status_and_enforcement_disagree :
    (reported boughtAgain = some ("revoked","lic_a") ∧
      licenseHonoured boughtAgain "lic_c" = true) ∧
    reported failedLate = some ("grace","lic_a") ∧ licenseHonoured failedLate "lic_a" = false := by
  decide +kernel

theorem status_agrees_iff_representative_subscribed :
    reported (Machine.run (next sampleService) {} subscribed) = some ("valid","lic_a") ∧
    OwnsIssuable sampleService (Machine.run (next sampleService) {} subscribed) "acct_a"
      "lic_a" := by
  have hreported : reported (Machine.run (next sampleService) {} subscribed) =
      some ("valid","lic_a") := by decide +kernel
  have hagrees := (status_agrees_iff_representative sampleService rfl
    (Machine.run (next sampleService) {} subscribed) "Bearer acct_a.s" "acct_a"
    (by decide +kernel)).mpr (by decide +kernel)
  refine ⟨hreported,?_⟩
  unfold reported at hreported
  split at hreported
  next resp hresp =>
    obtain ⟨hstatus,hlicense⟩ := Prod.mk.inj (Option.some.inj hreported)
    rw [← hlicense]
    exact hagrees.2 resp hresp (by simp [usable,hstatus])
  next => cases hreported

end SecureGateway.Auth
