import SecureGateway.Auth.Postgres
import SecureGateway.Auth.Writes
import SecureGateway.Lib.Replies

/-!
# The store in memory and in Postgres

Both implementations are asked the same calls. They differ in what an upsert keeps, in what
they check first when a pairing is created, in which of several devices with one key they
find, in zero times and NULL, and in what a column cannot hold. Where none of this happens,
the database is the mirror of the in-memory store after every call (`exec_mirror`).
-/

namespace SecureGateway.Authstore
open E2ee (Bytes)
open Postgres

inductive Call
  | op (op : StoreOp)
  | healthCheck
  | close

/- A call, and what the clocks of the process and of the server show. -/
structure StoreCall where
  clock : Time
  serverClock : Time
  call : Call

inductive Reply
  | op (op : StoreOp) (res : op.Res)
  | healthCheck (res : Except Err Unit)
  | close (res : Except Err Unit)

def errOf {α : Type} : Except Err α → Option Err
  | .ok _ => none
  | .error e => some e

def Reply.err : Reply → Option Err
  | .op _ res => errOf res
  | .healthCheck res | .close res => errOf res

def Store.serve (s : Store) (c : StoreCall) : Reply × Store :=
  match c.call with
  | .op op => (.op op (s.exec ⟨c.clock,[]⟩ op).1,(s.exec ⟨c.clock,[]⟩ op).2)
  | .healthCheck => (.healthCheck (.ok ()),s)
  | .close => (.close (.ok ()),s)

def Postgres.serve (srv : Server) (db : Database) (c : StoreCall) : Reply × Database :=
  match c.call with
  | .op op => (.op op (exec srv c.serverClock op db).1,(exec srv c.serverClock op db).2)
  | .healthCheck => (.healthCheck (healthCheck srv db).1,(healthCheck srv db).2)
  | .close => (.close (close db).1,(close db).2)

/- The server takes the value and gives it back as it was. -/
def Postgres.Server.keeps (srv : Server) : Param → Bool
  | .timestamptz t => srv.inRange t && srv.stamp t == t
  | p => srv.accepts p

def StoreOp.params : StoreOp → List Param
  | upsertAccount a =>
    [.text a.id,.text a.stripeCustomerID,.text a.secretHash] ++ nullable a.createdAt
  | upsertSubscription sub =>
    [.text sub.id,.text sub.accountID,.integer sub.maxPairs] ++ nullable sub.currentPeriodEnd ++
      nullable sub.graceUntil ++ nullable sub.updatedAt
  | createLicense l =>
    [.text l.id,.text l.accountID,.text l.subscriptionID,.text l.subscriptionItemID] ++
      nullable l.createdAt
  | upsertDevice d => [.text d.id,.text d.accountID] ++ nullable d.createdAt
  | createPairing p | createPairingWithinCapacity p _ =>
    [.text p.pairID,.text p.licenseID,.text p.accountID,.text p.mobileDeviceID,
      .text p.desktopDeviceID] ++ nullable p.createdAt
  | putRefreshToken r =>
    [.text r.id,.text r.deviceID,.text r.accountID,.text r.pairID,.timestamptz r.expiresAt] ++
      nullable r.revokedAt
  | putPairCredential c =>
    [.text c.pairID,.text c.accountID,.text c.licenseID,.text c.mobileDeviceID,
      .text c.secretHash,.timestamptz c.createdAt] ++ nullable c.revokedAt
  | createPairingToken t =>
    [.text t.id,.text t.accountID,.text t.licenseID,.text t.desktopDeviceID,
      .timestamptz t.expiresAt] ++ nullable t.consumedAt ++ [.text t.resultPairID]
  | createCheckoutClaim c =>
    [.text c.nonce,.text c.stripeSessionID,.text c.redirectURI,.text c.claimCodeHash,
      .text c.accountID,.text c.licenseID,.text c.subscriptionID,.timestamptz c.createdAt,
      .timestamptz c.expiresAt] ++ nullable c.consumedAt
  | insertWebhookEventIfAbsent e =>
    [.text e.id,.text e.type,.integer e.attempts] ++ nullable e.receivedAt ++
      nullable e.processedAt
  | setWebhookStatus id _ attempts processedAt =>
    [.text id,.integer attempts] ++ nullable processedAt
  | updatePairingDevices pairID mobileDeviceID desktopDeviceID =>
    [.text pairID,.text mobileDeviceID,.text desktopDeviceID]
  | markCheckoutClaimReady nonce accountID licenseID subscriptionID sessionID =>
    [.text nonce,.text accountID,.text licenseID,.text subscriptionID,.text sessionID]
  | consumePairingToken id resultPairID consumedAt =>
    [.text id,.timestamptz consumedAt,.text resultPairID]
  | setCheckoutClaimCode nonce claimCodeHash => [.text nonce,.text claimCodeHash]
  | consumeRefreshToken x t | revokeRefreshTokensByDevice x t | revokePairCredential x t
  | consumeCheckoutClaim x t => [.text x,.timestamptz t]
  | deleteExpiredCheckoutClaims before => [.timestamptz before]
  | getAccount x | getAccountByCustomer x | getSubscription x | getLicense x
  | listLicensesByAccount x | listLicensesBySubscription x | setLicenseStatus x _ | getDevice x
  | countDevicesByAccount x | findDeviceByAccountRoleKey x _ _ | getPairing x
  | listActivePairingsByLicense x | listActivePairingsByAccount x | setPairingStatus x _
  | activePairCount x | getRefreshToken x | revokeRefreshToken x | getPairingToken x
  | getPairCredential x | getCheckoutClaim x | getCheckoutClaimByCode x => [.text x]
  | listSubscriptions | listWebhookEventsByStatus _ _ => []

/- The rows, in the order of their keys, are in the order of the collation as well. -/
def Postgres.Server.inOrder {α : Type} (srv : Server) (column : α → String) (rows : List α) :
    Bool :=
  decide (rows.Pairwise fun a b => srv.collate (column a) (column b) = true)

/- The device that is found first is none that was created later than another. -/
def oldestFirst : List Device → Bool
  | [] => true
  | d :: ds => ds.all fun d' => decide (d.createdAt≤d'.createdAt)

/- What the stores do alike, by the method that is called and what is stored. -/
def alike (srv : Server) (s : Store) (clock serverClock : Time) : StoreOp → Bool
  | .upsertAccount a =>
    (match s.accounts.get a.id with
      | some old => a.createdAt == 0 || a.createdAt == old.createdAt
      | none => a.createdAt != 0) &&
    (a.stripeCustomerID == "" ||
      (s.accounts.list fun b =>
        b.id != a.id && b.stripeCustomerID == a.stripeCustomerID).isEmpty)
  | .getAccountByCustomer customerID =>
    match s.customerToAcct[customerID]? with
    | some id => (s.accounts.get id).map Account.stripeCustomerID == some customerID
    | none => true
  | .upsertSubscription sub => sub.updatedAt != 0
  | .listSubscriptions => srv.inOrder Subscription.id (s.subscriptions.list fun _ => true)
  | .createLicense l => l.createdAt != 0
  | .listLicensesByAccount accountID =>
    srv.inOrder License.id (s.licenses.list fun l => l.accountID == accountID)
  | .listLicensesBySubscription subID =>
    srv.inOrder License.id (s.licenses.list fun l => l.subscriptionID == subID)
  | .upsertDevice d =>
    match s.devices.get d.id with
    | some old => d.createdAt == old.createdAt
    | none => d.createdAt != 0
  | .findDeviceByAccountRoleKey accountID role publicKey =>
    oldestFirst (s.devices.list fun d =>
      d.accountID == accountID && d.role == role && d.key == publicKey)
  | .createPairing p => p.createdAt != 0
  | .createPairingWithinCapacity p maxPairs =>
    p.createdAt != 0 && (s.licenses.get p.licenseID).isSome &&
      ((s.pairings.get p.pairID).isNone || decide (s.activePairCount p.licenseID < maxPairs))
  | .listActivePairingsByLicense licenseID =>
    srv.inOrder Pairing.pairID (s.pairings.list (Store.activeOn licenseID))
  | .listActivePairingsByAccount accountID =>
    srv.inOrder Pairing.pairID
      (s.pairings.list fun p => p.accountID == accountID && p.status == .active)
  | .revokeRefreshToken _ => clock != 0 && srv.stamp serverClock == clock
  | .consumeRefreshToken _ t | .revokeRefreshTokensByDevice _ t | .revokePairCredential _ t
  | .consumePairingToken _ _ t | .consumeCheckoutClaim _ t => t != 0
  | .insertWebhookEventIfAbsent e => e.receivedAt != 0
  | _ => true

/-- The server keeps all values of the call, and the stores do alike what it asks; the
store is not closed. -/
def agreeable (srv : Server) (s : Store) (c : StoreCall) : Bool :=
  match c.call with
  | .op op => op.params.all srv.keeps && alike srv s c.clock c.serverClock op
  | .healthCheck => true
  | .close => false

section Values
variable {srv : Server} {t : Time}

theorem accepts_of_keeps {p : Param} (h : srv.keeps p=true) : srv.accepts p=true := by
  cases p with
  | text x => exact h
  | integer n => exact h
  | timestamptz t => exact (Bool.and_eq_true_iff.1 h).1

theorem stamp_of_keeps (h : srv.keeps (.timestamptz t)=true) : srv.stamp t=t :=
  beq_iff_eq.1 (Bool.and_eq_true_iff.1 h).2

theorem stamp_of_mem {params : List Param} (h : params.all srv.keeps=true)
    (hmem : .timestamptz t∈params) : srv.stamp t=t :=
  stamp_of_keeps (List.all_eq_true.1 h _ hmem)

@[simp] theorem deref_nilIfZero (t : Time) : deref (nilIfZero t)=t := by
  unfold deref nilIfZero
  split <;> simp [*]

@[simp] theorem nilIfZero_isNone (t : Time) : (nilIfZero t).isNone=(t == 0) := by
  unfold nilIfZero
  split <;> simp [*]

@[simp] theorem nilIfZero_isSome (t : Time) : (nilIfZero t).isSome=(t != 0) := by
  unfold nilIfZero
  split <;> simp [*]

@[simp] theorem nilIfZero_eq_none (t : Time) : nilIfZero t=none ↔ t=0 := by
  unfold nilIfZero
  split <;> simp [*]

theorem nilIfZero_of_ne (h : t≠0) : nilIfZero t=some t := if_neg h

@[simp] theorem orNow_id (t : Time) : orNow id 0 t=t := deref_nilIfZero t

theorem nilIfZero_stamp (h : (nullable t).all srv.keeps=true) :
    (nilIfZero t).map srv.stamp=nilIfZero t := by
  by_cases hz : t=0
  · simp [nilIfZero,hz]
  simp only [nullable,nilIfZero_of_ne hz,Option.map_some,Option.toList_some,
    List.all_cons,List.all_nil,Bool.and_true] at h
  rw [nilIfZero_of_ne hz,Option.map_some,stamp_of_keeps h]

theorem orNow_stamp (now : Time) (hz : t≠0) (h : (nullable t).all srv.keeps=true) :
    orNow srv.stamp now t=t := by
  have hkept:=nilIfZero_stamp h
  rw [nilIfZero_of_ne hz,Option.map_some,Option.some.injEq] at hkept
  rw [orNow,nilIfZero_of_ne hz,Option.getD_some,hkept]

@[simp] theorem nullIfEmpty_getD (x : String) : (nullIfEmpty x).getD "" = x := by
  unfold nullIfEmpty
  split <;> simp [*]

@[simp] theorem nullIfEmpty_eq_some (x y : String) : nullIfEmpty x=some y ↔ x=y ∧ y ≠ "" := by
  unfold nullIfEmpty
  split
  · next h =>
    subst h
    simp only [reduceCtorEq,false_iff]
    intro ⟨hy,hne⟩
    exact hne hy.symm
  · next h =>
    simp only [Option.some.injEq,iff_self_and]
    intro hy
    rwa [← hy]

theorem nullIfEmpty_or (x y : String) :
    (nullIfEmpty x).or (nullIfEmpty y)=nullIfEmpty (if x = "" then y else x) := by
  by_cases hx : x = ""
  · simp [hx,nullIfEmpty]
  · simp [hx,nullIfEmpty]

end Values

@[simp] theorem scan_accountRow (a : Account) : (AccountRow.of id 0 a).scan=a := by
  simp [AccountRow.of,AccountRow.scan]

@[simp] theorem scan_subscriptionRow (sub : Subscription) :
    (SubscriptionRow.of id 0 sub).scan=sub := by
  simp [SubscriptionRow.of,SubscriptionRow.scan]

@[simp] theorem scan_refreshTokenRow (r : RefreshToken) : (RefreshTokenRow.of id r).scan=r := by
  simp [RefreshTokenRow.of,RefreshTokenRow.scan]

@[simp] theorem scan_pairCredentialRow (c : PairCredential) :
    (PairCredentialRow.of id c).scan=c := by
  simp [PairCredentialRow.of,PairCredentialRow.scan]

@[simp] theorem scan_pairingTokenRow (t : PairingToken) : (PairingTokenRow.of id t).scan=t := by
  simp [PairingTokenRow.of,PairingTokenRow.scan]

@[simp] theorem scan_checkoutClaimRow (c : CheckoutClaim) : (CheckoutClaimRow.of id c).scan=c := by
  simp [CheckoutClaimRow.of,CheckoutClaimRow.scan]

@[simp] theorem scan_webhookEventRow (e : WebhookEvent) : (WebhookEventRow.of id 0 e).scan=e := by
  simp [WebhookEventRow.of,WebhookEventRow.scan]

theorem key_accountRow (x : Account) : (AccountRow.of id 0 x).id=x.id := rfl
theorem key_subscriptionRow (x : Subscription) : (SubscriptionRow.of id 0 x).id=x.id := rfl
theorem key_refreshTokenRow (x : RefreshToken) : (RefreshTokenRow.of id x).id=x.id := rfl
theorem key_pairingTokenRow (x : PairingToken) : (PairingTokenRow.of id x).id=x.id := rfl
theorem key_pairCredentialRow (x : PairCredential) : (PairCredentialRow.of id x).pairID=x.pairID := rfl
theorem key_checkoutClaimRow (x : CheckoutClaim) : (CheckoutClaimRow.of id x).nonce=x.nonce := rfl
theorem key_webhookEventRow (x : WebhookEvent) : (WebhookEventRow.of id 0 x).id=x.id := rfl

/-- The database that holds what the in-memory store does. -/
def Store.mirror (s : Store) : Database where
  accounts := s.accounts.recast (AccountRow.of id 0) key_accountRow
  subscriptions := s.subscriptions.recast (SubscriptionRow.of id 0) key_subscriptionRow
  licenses := s.licenses
  devices := s.devices
  pairings := s.pairings
  refreshTokens := s.refreshTokens.recast (RefreshTokenRow.of id) key_refreshTokenRow
  pairingTokens := s.pairingTokens.recast (PairingTokenRow.of id) key_pairingTokenRow
  pairCredentials := s.pairCredentials.recast (PairCredentialRow.of id) key_pairCredentialRow
  checkoutClaims := s.checkoutClaims.recast (CheckoutClaimRow.of id) key_checkoutClaimRow
  webhookEvents := s.webhookEvents.recast (WebhookEventRow.of id 0) key_webhookEventRow

structure Linked (s : Store) : Prop where
  own : ∀ id a, s.accounts.get id = some a → a.stripeCustomerID ≠ "" →
    s.customerToAcct[a.stripeCustomerID]? = some id
  named : s.customerToAcct[""]? = none

section Mirror
variable {srv : Server} {s : Store} {params : List Param} {α : Type}

theorem send_kept (h : params.all srv.keeps=true) (statement : Except Err α × Database) :
    srv.send s.mirror params statement=statement := by
  have hall : params.all srv.accepts=true := by
    rw [List.all_eq_true] at h ⊢
    intro p hp
    exact accepts_of_keeps (h p hp)
  simp [Server.send,Store.mirror,hall]

theorem query_kept (h : params.all srv.keeps=true) (answer : Except Err α) :
    srv.query s.mirror params answer=(answer,s.mirror) :=
  send_kept h _

theorem orderBy_kept {column : α → String} {rows : List α} (h : srv.inOrder column rows=true) :
    srv.orderBy column rows=rows :=
  List.mergeSort_of_pairwise (of_decide_eq_true h)

end Mirror

/- The database does what the in-memory store does, and mirrors it after the call. -/
def Mirrored (srv : Server) (s : Store) (clock serverClock : Time) (op : StoreOp) : Prop :=
  exec srv serverClock op s.mirror = ((s.exec ⟨clock,[]⟩ op).1,(s.exec ⟨clock,[]⟩ op).2.mirror)

section Methods
variable {srv : Server} {s : Store} {clock serverClock : Time}

/-! ### Accounts and subscriptions -/

theorem customers_apart (hs : Linked s) {a : Account}
    (hfree : a.stripeCustomerID = "" ∨ (s.accounts.list fun b =>
      b.id != a.id && b.stripeCustomerID == a.stripeCustomerID).isEmpty=true)
    {k : String} {b : Account} (hb : s.accounts.get k=some b) (hne : b.id≠a.id)
    (hset : b.stripeCustomerID ≠ "") :
    b.stripeCustomerID≠(s.mergedAccount a).stripeCustomerID := by
  intro heq
  by_cases hempty : a.stripeCustomerID = ""
  · -- the upsert keeps the customer of the stored account
    cases hold : s.accounts.get a.id with
    | none =>
      simp only [Store.mergedAccount,hold] at heq
      exact hset (heq.trans hempty)
    | some old =>
      simp only [Store.mergedAccount,hold,hempty,if_true] at heq
      have hlinkOld:=hs.own a.id old hold (heq ▸ hset)
      have hlink:=hs.own k b hb hset
      rw [heq,hlinkOld,Option.some.injEq] at hlink
      exact hne ((Table.key_of_get hb).trans hlink.symm)
  · have hcust : b.stripeCustomerID=a.stripeCustomerID := by
      rw [heq,Store.mergedAccount]
      split
      · exact if_neg hempty
      · rfl
    have hmem : b∈s.accounts.list fun b =>
        b.id != a.id && b.stripeCustomerID == a.stripeCustomerID :=
      Table.mem_list_of_get hb (by simp [hne,hcust])
    have hnone:=hfree.resolve_left hempty
    rw [List.isEmpty_iff] at hnone
    simp [hnone] at hmem

theorem customerTaken_mirror (hs : Linked s) {a : Account}
    (hfree : a.stripeCustomerID = "" ∨ (s.accounts.list fun b =>
      b.id != a.id && b.stripeCustomerID == a.stripeCustomerID).isEmpty=true) :
    customerTaken s.mirror (AccountRow.of id 0 (s.mergedAccount a))=false := by
  rw [customerTaken,Bool.not_eq_false',List.isEmpty_iff]
  apply Table.list_eq_nil
  intro k row hrow
  simp only [Store.mirror,Table.get_recast,Option.map_eq_some_iff] at hrow
  obtain ⟨b,hb,rfl⟩:=hrow
  by_contra htaken
  simp only [AccountRow.of,Bool.not_eq_false,Bool.and_eq_true,bne_iff_ne,ne_eq,
    beq_iff_eq,Store.mergedAccount_id] at htaken
  obtain ⟨⟨hne,hsome⟩,heq⟩:=htaken
  obtain ⟨c,hc⟩:=Option.isSome_iff_exists.1 hsome
  rw [hc,eq_comm,nullIfEmpty_eq_some] at heq
  rw [nullIfEmpty_eq_some] at hc
  have hset : b.stripeCustomerID ≠ "" := by rw [hc.1]; exact hc.2
  exact customers_apart hs hfree hb hne hset (hc.1.trans heq.1.symm)

theorem upsertAccount_row {a : Account} (now : Time)
    (hkept : (nullable a.createdAt).all srv.keeps=true)
    (hcreated : match s.accounts.get a.id with
      | some old => a.createdAt=0 ∨ a.createdAt=old.createdAt
      | none => a.createdAt≠0) :
    upsertedAccount srv now s.mirror a=AccountRow.of id 0 (s.mergedAccount a) := by
  cases hold : s.accounts.get a.id with
  | none =>
    rw [hold] at hcreated
    simp only [upsertedAccount,Store.mirror,Table.get_recast,hold,Option.map_none,
      Store.mergedAccount]
    simp only [AccountRow.of,orNow_stamp now hcreated hkept,orNow_id]
  | some old =>
    rw [hold] at hcreated
    have hid : old.id=a.id := Table.key_of_get hold
    have htime : old.createdAt=if a.createdAt=0 then old.createdAt else a.createdAt := by
      rcases hcreated with hzero | hsame
      · rw [if_pos hzero]
      · rw [hsame,ite_self]
    simp only [upsertedAccount,Store.mirror,Table.get_recast,hold,Option.map_some,
      Store.mergedAccount,AccountRow.of,nullIfEmpty_or,orNow_id,hid]
    rw [← htime]
    by_cases hsecret : a.secretHash = "" <;> simp [hsecret]

theorem upsertAccount_mirrored (hs : Linked s) {a : Account}
    (hkept : (StoreOp.upsertAccount a).params.all srv.keeps=true)
    (halike : alike srv s clock serverClock (.upsertAccount a)=true) :
    Mirrored srv s clock serverClock (.upsertAccount a) := by
  simp only [alike,Bool.and_eq_true,Bool.or_eq_true,beq_iff_eq] at halike
  obtain ⟨hcreated,hfree⟩:=halike
  rw [StoreOp.params] at hkept
  have htimes : (nullable a.createdAt).all srv.keeps=true := by
    rw [List.all_append,Bool.and_eq_true] at hkept
    exact hkept.2
  have hrow : upsertedAccount srv serverClock s.mirror a = _ :=
    upsertAccount_row serverClock htimes (by
    cases hold : s.accounts.get a.id with
    | none => simpa [hold] using hcreated
    | some old => simpa [hold] using hcreated)
  rw [Mirrored,exec,upsertAccount,send_kept hkept]
  simp only [hrow,customerTaken_mirror hs hfree,Bool.false_eq_true,if_false]
  simp only [Store.exec,Store.upsertAccount,Store.mirror,Table.recast_put]

theorem getAccountByCustomer_mirrored (hs : Linked s) {customerID : String}
    (hkept : [Param.text customerID].all srv.keeps=true)
    (halike : alike srv s clock serverClock (.getAccountByCustomer customerID)=true) :
    Mirrored srv s clock serverClock (.getAccountByCustomer customerID) := by
  have hrows : (s.mirror.accounts.list fun a => a.stripeCustomerID == some customerID) =
      (s.accounts.list fun a => nullIfEmpty a.stripeCustomerID == some customerID).map
        (AccountRow.of id 0) :=
    Table.list_recast _ key_accountRow fun _ => rfl
  rw [Mirrored,exec,Postgres.getAccountByCustomer,query_kept hkept,hrows]
  simp only [alike] at halike
  simp only [Store.exec,Store.getAccountByCustomer]
  cases hlink : s.customerToAcct[customerID]? with
  | none =>
    have hnil : (s.accounts.list fun a => nullIfEmpty a.stripeCustomerID == some customerID) = [] := by
      apply Table.list_eq_nil
      intro k b hb
      rw [beq_eq_false_iff_ne,ne_eq,nullIfEmpty_eq_some]
      intro hcust
      have hown:=hs.own k b hb (by rw [hcust.1]; exact hcust.2)
      rw [hcust.1,hlink] at hown
      cases hown
    simp [hnil,Store.found]
  | some id =>
    rw [hlink] at halike
    obtain ⟨a,ha,hcust⟩:=Option.map_eq_some_iff.1 (beq_iff_eq.1 halike)
    have hne : customerID ≠ "" := by
      intro hempty
      rw [hempty,hs.named] at hlink
      cases hlink
    have hhead : (s.accounts.list fun a => nullIfEmpty a.stripeCustomerID == some customerID).head? =
        some a := by
      apply Table.head_list
      · rwa [Table.key_of_get ha]
      · rw [beq_iff_eq,nullIfEmpty_eq_some]
        exact ⟨hcust,hne⟩
      intro k b hb hp
      rw [beq_iff_eq,nullIfEmpty_eq_some] at hp
      have hown:=hs.own k b hb (by rw [hp.1]; exact hp.2)
      rw [hp.1,hlink,Option.some.injEq] at hown
      rw [← hown,ha,Option.some.injEq] at hb
      exact hb.symm
    simp [hhead,ha,Store.found]

theorem upsertSubscription_mirrored {sub : Subscription}
    (hkept : (StoreOp.upsertSubscription sub).params.all srv.keeps=true)
    (halike : sub.updatedAt≠0) : Mirrored srv s clock serverClock (.upsertSubscription sub) := by
  rw [StoreOp.params] at hkept
  have hrow : SubscriptionRow.of srv.stamp serverClock sub=SubscriptionRow.of id 0 sub := by
    simp only [List.all_append,Bool.and_eq_true] at hkept
    obtain ⟨⟨⟨-,hend⟩,hgrace⟩,hupdated⟩:=hkept
    simp [SubscriptionRow.of,nilIfZero_stamp hend,nilIfZero_stamp hgrace,
      orNow_stamp serverClock halike hupdated]
  rw [Mirrored,exec,upsertSubscription,send_kept hkept,hrow]
  simp only [Store.exec,Store.mirror,Table.recast_put]

theorem listSubscriptions_mirrored
    (halike : srv.inOrder Subscription.id (s.subscriptions.list fun _ => true)=true) :
    Mirrored srv s clock serverClock .listSubscriptions := by
  have hrows : (s.mirror.subscriptions.list fun _ => true) =
      (s.subscriptions.list fun _ => true).map (SubscriptionRow.of id 0) :=
    Table.list_recast _ key_subscriptionRow fun _ => rfl
  have horder : srv.inOrder SubscriptionRow.id
      ((s.subscriptions.list fun _ => true).map (SubscriptionRow.of id 0))=true := by
    rw [Server.inOrder,decide_eq_true_eq] at halike ⊢
    rw [List.pairwise_map]
    exact halike
  rw [Mirrored,exec,listSubscriptions,query_kept rfl,hrows,orderBy_kept horder]
  simp [Store.exec,List.map_map,Function.comp_def]

/-! ### Licenses, devices and pairings -/

theorem createLicense_mirrored {l : License}
    (hkept : (StoreOp.createLicense l).params.all srv.keeps=true) (hset : l.createdAt≠0) :
    Mirrored srv s clock serverClock (.createLicense l) := by
  rw [StoreOp.params] at hkept
  have hrow : orNow srv.stamp serverClock l.createdAt=l.createdAt := by
    rw [List.all_append,Bool.and_eq_true] at hkept
    exact orNow_stamp serverClock hset hkept.2
  rw [Mirrored,exec,createLicense,send_kept hkept,hrow]
  simp only [Store.exec,Store.createLicense,Store.mirror]
  cases s.licenses.get l.id <;> rfl

theorem setLicenseStatus_mirrored {id : String} (status : LicenseStatus)
    (hkept : [Param.text id].all srv.keeps=true) :
    Mirrored srv s clock serverClock (.setLicenseStatus id status) := by
  rw [Mirrored,exec,setLicenseStatus,send_kept hkept]
  simp only [Store.exec,Store.setLicenseStatus,Store.mirror]
  cases s.licenses.get id <;> rfl

theorem upsertDevice_mirrored {d : Device}
    (hkept : (StoreOp.upsertDevice d).params.all srv.keeps=true)
    (halike : alike srv s clock serverClock (.upsertDevice d)=true) :
    Mirrored srv s clock serverClock (.upsertDevice d) := by
  rw [StoreOp.params] at hkept
  have hrow : upsertedDevice srv serverClock s.mirror d =
      if d.publicKey.isNone then
        { d with publicKey := (s.devices.get d.id).bind Device.publicKey } else d := by
    simp only [alike] at halike
    simp only [upsertedDevice,Store.mirror]
    cases hold : s.devices.get d.id with
    | none =>
      simp only [hold,bne_iff_ne,ne_eq] at halike
      rw [List.all_append,Bool.and_eq_true] at hkept
      simp only [orNow_stamp serverClock halike hkept.2,Option.bind_none]
      split
      · next hnone => rw [← Option.isNone_iff_eq_none.1 hnone]
      · rfl
    | some old =>
      simp only [hold,beq_iff_eq] at halike
      have hid : old.id=d.id := Table.key_of_get hold
      obtain ⟨id,accountID,role,publicKey,createdAt⟩:=d
      cases publicKey with
      | none => simp [hid,← halike]
      | some key => simp [hid,← halike]
  rw [Mirrored,exec,upsertDevice,send_kept hkept,hrow]
  rfl

theorem head_sorted_of_oldestFirst {ds : List Device} (h : oldestFirst ds=true) :
    (ds.mergeSort fun a b => decide (a.createdAt≤b.createdAt)).head? = ds.head? := by
  cases ds with
  | nil => simp
  | cons d ds =>
    have htrans : ∀ a b c : Device,decide (a.createdAt≤b.createdAt)=true →
        decide (b.createdAt≤c.createdAt)=true → decide (a.createdAt≤c.createdAt)=true := by
      intro a b c hab hbc
      exact decide_eq_true (le_trans (of_decide_eq_true hab) (of_decide_eq_true hbc))
    have htotal : ∀ a b : Device,
        (decide (a.createdAt≤b.createdAt) || decide (b.createdAt≤a.createdAt))=true := by
      intro a b
      simpa using le_total a.createdAt b.createdAt
    obtain ⟨older,rest,hsort,hperm,holder⟩:=List.mergeSort_cons htrans htotal d ds
    have hnone : older=[] := by
      rw [List.eq_nil_iff_forall_not_mem]
      intro d' hd'
      have hmem : d'∈ds := by
        rw [← List.mem_mergeSort,hperm]
        exact List.mem_append_left _ hd'
      have hle:=List.all_eq_true.1 h d' hmem
      have hlt:=holder d' hd'
      simp only [hle,Bool.not_true,Bool.false_eq_true] at hlt
    rw [hsort,hnone,List.nil_append,List.head?_cons,List.head?_cons]

theorem findDevice_mirrored {accountID : String} (role : Role) (publicKey : Bytes)
    (hkept : [Param.text accountID].all srv.keeps=true)
    (halike : oldestFirst (s.devices.list fun d =>
      d.accountID == accountID && d.role == role && d.key == publicKey)=true) :
    Mirrored srv s clock serverClock (.findDeviceByAccountRoleKey accountID role publicKey) := by
  rw [Mirrored,exec,findDeviceByAccountRoleKey,Store.exec,Store.findDeviceByAccountRoleKey]
  by_cases hkey : publicKey=[]
  · rw [if_pos hkey,if_pos hkey]
  have hrows : (fun d : Device =>
      d.accountID == accountID && d.role == role && d.publicKey == some publicKey) =
      fun d => d.accountID == accountID && d.role == role && d.key == publicKey := by
    funext d
    have hsame : (d.publicKey == some publicKey)=(d.key == publicKey) := by
      cases hpk : d.publicKey with
      | none =>
        have hne : ([] : Bytes)≠publicKey := fun hempty => hkey hempty.symm
        simpa [Device.key,hpk] using hne
      | some k => simp [Device.key,hpk]
    rw [hsame]
  rw [if_neg hkey,if_neg hkey,query_kept hkept]
  simp only [Store.mirror,hrows,head_sorted_of_oldestFirst halike]

theorem createPairing_mirrored {p : Pairing}
    (hkept : (StoreOp.createPairing p).params.all srv.keeps=true) (hset : p.createdAt≠0) :
    Postgres.createPairing srv serverClock s.mirror p =
      ((s.createPairing p).1,(s.createPairing p).2.mirror) := by
  rw [StoreOp.params] at hkept
  have hrow : orNow srv.stamp serverClock p.createdAt=p.createdAt := by
    rw [List.all_append,Bool.and_eq_true] at hkept
    exact orNow_stamp serverClock hset hkept.2
  rw [Postgres.createPairing,send_kept hkept,hrow]
  simp only [Store.createPairing,Store.mirror]
  cases s.pairings.get p.pairID <;> rfl

theorem createPairingWithinCapacity_mirrored {p : Pairing} {maxPairs : ℕ}
    (hkept : (StoreOp.createPairing p).params.all srv.keeps=true)
    (halike : alike srv s clock serverClock (.createPairingWithinCapacity p maxPairs)=true) :
    Mirrored srv s clock serverClock (.createPairingWithinCapacity p maxPairs) := by
  simp only [alike,Bool.and_eq_true,bne_iff_ne,ne_eq,Bool.or_eq_true,decide_eq_true_eq]
    at halike
  obtain ⟨⟨hset,hlicense⟩,hfirst⟩:=halike
  obtain ⟨l,hl⟩:=Option.isSome_iff_exists.1 hlicense
  have hcount : s.mirror.pairings.count (Store.activeOn p.licenseID) =
      s.activePairCount p.licenseID := rfl
  have hlic : s.mirror.licenses.get p.licenseID=some l := hl
  have hid : [Param.text p.licenseID].all srv.keeps=true := by
    simp only [StoreOp.params,List.cons_append,List.all_cons,Bool.and_eq_true] at hkept
    simp [hkept.2.1]
  have hinsert : Postgres.createPairing srv serverClock s.mirror p = _ :=
    createPairing_mirrored hkept hset
  rw [Mirrored,exec,createPairingWithinCapacity,send_kept hid,hlic,hcount,hinsert]
  simp only [Store.exec,Store.createPairingWithinCapacity,Store.createPairing]
  cases hold : s.pairings.get p.pairID with
  | some old =>
    have hfree : ¬ maxPairs ≤ s.activePairCount p.licenseID := by
      simp only [hold,Option.isNone_some,Bool.false_eq_true,false_or] at hfirst
      omega
    simp only [if_neg hfree]
  | none => split <;> rfl

/-! ### Refresh tokens and pair credentials -/

theorem refreshTokenRow_kept {r : RefreshToken}
    (hkept : (StoreOp.putRefreshToken r).params.all srv.keeps=true) :
    RefreshTokenRow.of srv.stamp r=RefreshTokenRow.of id r := by
  simp only [StoreOp.params,List.all_append,List.all_cons,Bool.and_eq_true] at hkept
  obtain ⟨⟨-,-,-,-,hexpires,-⟩,hrevoked⟩:=hkept
  simp [RefreshTokenRow.of,nilIfZero_stamp hrevoked,stamp_of_keeps hexpires]

theorem refreshTokenRow_revoked (r : RefreshToken) {t : Time} (ht : t≠0) :
    RefreshTokenRow.of id { r with revokedAt := t } =
      { RefreshTokenRow.of id r with revokedAt := some t } := by
  simp [RefreshTokenRow.of,nilIfZero_of_ne ht]

theorem revokeRefreshToken_mirrored {id : String} (hkept : [Param.text id].all srv.keeps=true)
    (hset : clock≠0) (hclocks : srv.stamp serverClock=clock) :
    Mirrored srv s clock serverClock (.revokeRefreshToken id) := by
  rw [Mirrored,exec,revokeRefreshToken,send_kept hkept,hclocks]
  simp only [Store.exec,Store.revokeRefreshToken,Store.mirror,Table.get_recast]
  cases s.refreshTokens.get id with
  | none => rfl
  | some r =>
    simp only [Option.map_some,RefreshTokenRow.of,Option.map_id_fun,id_eq,nilIfZero_isNone,
      beq_iff_eq]
    split
    · simp only [Table.recast_put,refreshTokenRow_revoked r hset]
      simp [RefreshTokenRow.of]
    · rfl

theorem consumeRefreshToken_mirrored {id : String} {t : Time}
    (hkept : [Param.text id,.timestamptz t].all srv.keeps=true) (hset : t≠0) :
    Mirrored srv s clock serverClock (.consumeRefreshToken id t) := by
  have hstamp : srv.stamp t=t := stamp_of_mem hkept (by simp)
  rw [Mirrored,exec,consumeRefreshToken,send_kept hkept,hstamp]
  simp only [Store.exec,Store.consumeRefreshToken,Store.mirror,Table.get_recast]
  cases s.refreshTokens.get id with
  | none => rfl
  | some r =>
    simp only [Option.map_some,RefreshTokenRow.of,Option.map_id_fun,id_eq,nilIfZero_isSome,
      bne_iff_ne]
    split
    · rfl
    · simp only [Table.recast_put,refreshTokenRow_revoked r hset]
      simp [RefreshTokenRow.of]

theorem revokeRefreshTokensByDevice_mirrored {deviceID : String} {t : Time}
    (hkept : [Param.text deviceID,.timestamptz t].all srv.keeps=true) (hset : t≠0) :
    Mirrored srv s clock serverClock (.revokeRefreshTokensByDevice deviceID t) := by
  have hstamp : srv.stamp t=t := stamp_of_mem hkept (by simp)
  rw [Mirrored,exec,revokeRefreshTokensByDevice,send_kept hkept]
  simp only [Store.exec,Store.revokeRefreshTokensByDevice,Store.mirror,hstamp]
  congr 2
  symm
  apply Table.recast_mapRows
  intro r
  simp only [RefreshTokenRow.of,Option.map_id_fun,id_eq,nilIfZero_eq_none]
  split
  · simp [nilIfZero_of_ne hset]
  · rfl

theorem pairCredentialRow_kept {c : PairCredential}
    (hkept : (StoreOp.putPairCredential c).params.all srv.keeps=true) :
    PairCredentialRow.of srv.stamp c=PairCredentialRow.of id c := by
  simp only [StoreOp.params,List.all_append,List.all_cons,Bool.and_eq_true] at hkept
  obtain ⟨⟨-,-,-,-,-,hcreated,-⟩,hrevoked⟩:=hkept
  simp [PairCredentialRow.of,nilIfZero_stamp hrevoked,stamp_of_keeps hcreated]

theorem revokePairCredential_mirrored {pairID : String} {t : Time}
    (hkept : [Param.text pairID,.timestamptz t].all srv.keeps=true) (hset : t≠0) :
    Mirrored srv s clock serverClock (.revokePairCredential pairID t) := by
  have hstamp : srv.stamp t=t := stamp_of_mem hkept (by simp)
  rw [Mirrored,exec,revokePairCredential,send_kept hkept,hstamp]
  simp only [Store.exec,Store.revokePairCredential,Store.mirror,Table.get_recast]
  cases s.pairCredentials.get pairID with
  | none => rfl
  | some c =>
    simp only [Option.map_some,PairCredentialRow.of,Option.map_id_fun,id_eq,nilIfZero_isNone,
      beq_iff_eq]
    split
    · simp [Table.recast_put,PairCredentialRow.of,nilIfZero_of_ne hset]
    · rfl

/-! ### Pairing tokens -/

theorem createPairingToken_mirrored {t : PairingToken}
    (hkept : (StoreOp.createPairingToken t).params.all srv.keeps=true) :
    Mirrored srv s clock serverClock (.createPairingToken t) := by
  rw [StoreOp.params] at hkept
  have hrow : PairingTokenRow.of srv.stamp t=PairingTokenRow.of id t := by
    simp only [List.all_append,List.all_cons,Bool.and_eq_true] at hkept
    obtain ⟨⟨⟨-,-,-,-,hexpires,-⟩,hconsumed⟩,-⟩:=hkept
    simp [PairingTokenRow.of,nilIfZero_stamp hconsumed,stamp_of_keeps hexpires]
  rw [Mirrored,exec,createPairingToken,send_kept hkept,hrow]
  simp only [Store.exec,Store.createPairingToken,Store.mirror,Table.get_recast]
  cases s.pairingTokens.get t.id with
  | none => simp only [Option.map_none,Table.recast_put]
  | some old => rfl

theorem consumePairingToken_mirrored {id resultPairID : String} {t : Time}
    (hkept : [Param.text id,.timestamptz t,.text resultPairID].all srv.keeps=true)
    (hset : t≠0) : Mirrored srv s clock serverClock (.consumePairingToken id resultPairID t) := by
  have hstamp : srv.stamp t=t := stamp_of_mem hkept (by simp)
  rw [Mirrored,exec,consumePairingToken,send_kept hkept,hstamp]
  simp only [Store.exec,Store.consumePairingToken,Store.mirror,Table.get_recast]
  cases s.pairingTokens.get id with
  | none => rfl
  | some tok =>
    simp only [Option.map_some,PairingTokenRow.of,Option.map_id_fun,id_eq,nilIfZero_isSome,
      bne_iff_ne]
    split
    · rfl
    · simp [Table.recast_put,PairingTokenRow.of,nilIfZero_of_ne hset]

/-! ### Checkout claims -/

theorem createCheckoutClaim_mirrored {c : CheckoutClaim}
    (hkept : (StoreOp.createCheckoutClaim c).params.all srv.keeps=true) :
    Mirrored srv s clock serverClock (.createCheckoutClaim c) := by
  rw [StoreOp.params] at hkept
  have hrow : CheckoutClaimRow.of srv.stamp c=CheckoutClaimRow.of id c := by
    have hcreated : srv.stamp c.createdAt=c.createdAt := stamp_of_mem hkept (by simp)
    have hexpires : srv.stamp c.expiresAt=c.expiresAt := stamp_of_mem hkept (by simp)
    rw [List.all_append,Bool.and_eq_true] at hkept
    simp [CheckoutClaimRow.of,nilIfZero_stamp hkept.2,hcreated,hexpires]
  rw [Mirrored,exec,createCheckoutClaim,send_kept hkept,hrow]
  simp only [Store.exec,Store.createCheckoutClaim,Store.mirror,Table.get_recast]
  cases s.checkoutClaims.get c.nonce with
  | none => simp only [Option.map_none,Table.recast_put]
  | some old => rfl

theorem getCheckoutClaimByCode_mirrored {code : String}
    (hkept : [Param.text code].all srv.keeps=true) :
    Mirrored srv s clock serverClock (.getCheckoutClaimByCode code) := by
  have hrows : (s.mirror.checkoutClaims.list fun c => c.claimCodeHash == code) =
      (s.checkoutClaims.list fun c => c.claimCodeHash == code).map (CheckoutClaimRow.of id) :=
    Table.list_recast _ key_checkoutClaimRow fun _ => rfl
  rw [Mirrored,exec,getCheckoutClaimByCode,Store.exec,Store.getCheckoutClaimByCode]
  by_cases hcode : code = ""
  · rw [if_pos hcode,if_pos hcode]
  · rw [if_neg hcode,if_neg hcode,query_kept hkept,hrows]
    simp [Option.map_map,Function.comp_def]

theorem markCheckoutClaimReady_mirrored {nonce accountID licenseID subscriptionID sessionID : String}
    (hkept : (StoreOp.markCheckoutClaimReady nonce accountID licenseID subscriptionID
      sessionID).params.all srv.keeps=true) :
    Mirrored srv s clock serverClock
      (.markCheckoutClaimReady nonce accountID licenseID subscriptionID sessionID) := by
  rw [StoreOp.params] at hkept
  rw [Mirrored,exec,markCheckoutClaimReady,send_kept hkept]
  simp only [Store.exec,Store.markCheckoutClaimReady,Store.mirror,Table.get_recast]
  cases s.checkoutClaims.get nonce with
  | none => rfl
  | some c =>
    have hsession : (nullIfEmpty sessionID).getD c.stripeSessionID =
        if sessionID ≠ "" then sessionID else c.stripeSessionID := by
      by_cases hs : sessionID = "" <;> simp [nullIfEmpty,hs]
    by_cases hpending : c.status=.pending
    · simp [hpending,CheckoutClaimRow.of,Table.recast_put,hsession]
    · simp [hpending,CheckoutClaimRow.of]

theorem setCheckoutClaimCode_mirrored {nonce code : String}
    (hkept : [Param.text nonce,.text code].all srv.keeps=true) :
    Mirrored srv s clock serverClock (.setCheckoutClaimCode nonce code) := by
  rw [Mirrored,exec,setCheckoutClaimCode,send_kept hkept]
  simp only [Store.exec,Store.setCheckoutClaimCode,Store.mirror,Table.get_recast]
  cases s.checkoutClaims.get nonce with
  | none => rfl
  | some c =>
    by_cases hready : c.status=.ready
    · simp [hready,CheckoutClaimRow.of,Table.recast_put]
    · simp [hready,CheckoutClaimRow.of]

theorem consumeCheckoutClaim_mirrored {nonce : String} {t : Time}
    (hkept : [Param.text nonce,.timestamptz t].all srv.keeps=true) (hset : t≠0) :
    Mirrored srv s clock serverClock (.consumeCheckoutClaim nonce t) := by
  have hstamp : srv.stamp t=t := stamp_of_mem hkept (by simp)
  rw [Mirrored,exec,consumeCheckoutClaim,send_kept hkept,hstamp]
  simp only [Store.exec,Store.consumeCheckoutClaim,Store.mirror,Table.get_recast]
  cases s.checkoutClaims.get nonce with
  | none => rfl
  | some c =>
    cases hstatus : c.status with
    | pending => simp [hstatus,CheckoutClaimRow.of]
    | consumed => simp [hstatus,CheckoutClaimRow.of]
    | ready =>
      simp [hstatus,CheckoutClaimRow.of,CheckoutClaimRow.scan,Table.recast_put,
        nilIfZero_of_ne hset,deref]

theorem deleteExpiredCheckoutClaims_mirrored {before : Time}
    (hkept : [Param.timestamptz before].all srv.keeps=true) :
    Mirrored srv s clock serverClock (.deleteExpiredCheckoutClaims before) := by
  have hstamp : srv.stamp before=before := stamp_of_mem hkept (by simp)
  have hcount : (s.checkoutClaims.recast (CheckoutClaimRow.of id) key_checkoutClaimRow).count
      (fun c => decide (c.expiresAt<before)) =
        s.checkoutClaims.count fun c => decide (c.expiresAt<before) :=
    Table.count_recast _ key_checkoutClaimRow fun _ => rfl
  have herase : (s.checkoutClaims.eraseRows fun c => decide (c.expiresAt<before)).recast
      (CheckoutClaimRow.of id) key_checkoutClaimRow=Table.eraseRows _ _ :=
    Table.recast_eraseRows (q := fun c => decide (c.expiresAt<before)) _ fun _ => rfl
  rw [Mirrored,exec,deleteExpiredCheckoutClaims,send_kept hkept,hstamp]
  simp only [Store.exec,Store.mirror,hcount,herase]

/-! ### Webhook events -/

theorem insertWebhookEventIfAbsent_mirrored {e : WebhookEvent}
    (hkept : (StoreOp.insertWebhookEventIfAbsent e).params.all srv.keeps=true)
    (hset : e.receivedAt≠0) : Mirrored srv s clock serverClock (.insertWebhookEventIfAbsent e) := by
  rw [StoreOp.params] at hkept
  have hrow : WebhookEventRow.of srv.stamp serverClock e=WebhookEventRow.of id 0 e := by
    simp only [List.all_append,Bool.and_eq_true] at hkept
    obtain ⟨⟨-,hreceived⟩,hprocessed⟩:=hkept
    simp [WebhookEventRow.of,nilIfZero_stamp hprocessed,orNow_stamp serverClock hset hreceived]
  rw [Mirrored,exec,insertWebhookEventIfAbsent,send_kept hkept,hrow]
  simp only [Store.exec,Store.insertWebhookEventIfAbsent,Store.mirror,Table.get_recast]
  cases s.webhookEvents.get e.id with
  | none => simp only [Option.map_none,Table.recast_put]
  | some old => rfl

theorem setWebhookStatus_mirrored {id : String} (status : WebhookStatus) {attempts : ℤ} {t : Time}
    (hkept : ([Param.text id,.integer attempts]++nullable t).all srv.keeps=true) :
    Mirrored srv s clock serverClock (.setWebhookStatus id status attempts t) := by
  have hstamp : (nilIfZero t).map srv.stamp=nilIfZero t := by
    rw [List.all_append,Bool.and_eq_true] at hkept
    exact nilIfZero_stamp hkept.2
  rw [Mirrored,exec,setWebhookStatus,send_kept hkept,hstamp]
  simp only [Store.exec,Store.setWebhookStatus,Store.mirror,Table.get_recast]
  cases s.webhookEvents.get id with
  | none => rfl
  | some e => simp [WebhookEvent.withStatus,WebhookEventRow.of,Table.recast_put]

theorem listWebhookEventsByStatus_mirrored (status : WebhookStatus) (limit : ℕ) :
    Mirrored srv s clock serverClock (.listWebhookEventsByStatus status limit) := by
  have hrows : (s.mirror.webhookEvents.list fun e => e.status == status) =
      (s.webhookEvents.list fun e => e.status == status).map (WebhookEventRow.of id 0) :=
    Table.list_recast _ key_webhookEventRow fun _ => rfl
  have hsort (events : List WebhookEvent) :
      (events.map (WebhookEventRow.of id 0)).mergeSort
          (fun a b => decide (a.receivedAt≤b.receivedAt)) =
        (events.mergeSort fun a b => decide (a.receivedAt≤b.receivedAt)).map
          (WebhookEventRow.of id 0) := by
    refine (List.map_mergeSort ?_).symm
    intro a _ b _
    simp [WebhookEventRow.of]
  have hties (events : List WebhookEvent) : (events.mergeSort fun _ _ => true)=events :=
    List.mergeSort_of_pairwise (List.pairwise_of_forall fun _ _ => rfl)
  rw [Mirrored,exec,listWebhookEventsByStatus,query_kept rfl,hrows,hsort]
  simp only [Store.exec,Store.listWebhookEventsByStatus]
  split <;> simp [← List.map_take,List.map_map,Function.comp_def,hties]

end Methods

/-! ### All methods -/

theorem exec_mirror {srv : Server} {s : Store} {clock serverClock : Time} (hs : Linked s)
    {op : StoreOp} (hkept : op.params.all srv.keeps=true)
    (halike : alike srv s clock serverClock op=true) : Mirrored srv s clock serverClock op := by
  cases op with
  | upsertAccount a => exact upsertAccount_mirrored hs hkept halike
  | getAccountByCustomer customerID => exact getAccountByCustomer_mirrored hs hkept halike
  | upsertSubscription sub => exact upsertSubscription_mirrored hkept (bne_iff_ne.1 halike)
  | listSubscriptions => exact listSubscriptions_mirrored halike
  | createLicense l => exact createLicense_mirrored hkept (bne_iff_ne.1 halike)
  | setLicenseStatus id status => exact setLicenseStatus_mirrored status hkept
  | upsertDevice d => exact upsertDevice_mirrored hkept halike
  | findDeviceByAccountRoleKey accountID role publicKey =>
    exact findDevice_mirrored role publicKey hkept halike
  | createPairing p => exact createPairing_mirrored hkept (bne_iff_ne.1 halike)
  | createPairingWithinCapacity p maxPairs =>
    exact createPairingWithinCapacity_mirrored hkept halike
  | setPairingStatus pairID status =>
    refine (send_kept hkept _).trans ?_
    simp only [Store.exec,Store.setPairingStatus,Store.modifyPairing,Store.mirror]
    cases s.pairings.get pairID <;> rfl
  | updatePairingDevices pairID mobileDeviceID desktopDeviceID =>
    refine (send_kept hkept _).trans ?_
    simp only [Store.exec,Store.updatePairingDevices,Store.modifyPairing,Store.mirror]
    cases s.pairings.get pairID <;> rfl
  | putRefreshToken r =>
    refine (send_kept hkept _).trans ?_
    rw [refreshTokenRow_kept hkept]
    simp only [Store.exec,Store.mirror,Table.recast_put]
  | revokeRefreshToken id =>
    simp only [alike,Bool.and_eq_true,bne_iff_ne,beq_iff_eq] at halike
    exact revokeRefreshToken_mirrored hkept halike.1 halike.2
  | consumeRefreshToken id t => exact consumeRefreshToken_mirrored hkept (bne_iff_ne.1 halike)
  | revokeRefreshTokensByDevice id t =>
    exact revokeRefreshTokensByDevice_mirrored hkept (bne_iff_ne.1 halike)
  | putPairCredential c =>
    refine (send_kept hkept _).trans ?_
    rw [pairCredentialRow_kept hkept]
    simp only [Store.exec,Store.mirror,Table.recast_put]
  | revokePairCredential pairID t => exact revokePairCredential_mirrored hkept (bne_iff_ne.1 halike)
  | createPairingToken t => exact createPairingToken_mirrored hkept
  | consumePairingToken id resultPairID t =>
    exact consumePairingToken_mirrored hkept (bne_iff_ne.1 halike)
  | createCheckoutClaim c => exact createCheckoutClaim_mirrored hkept
  | getCheckoutClaimByCode code => exact getCheckoutClaimByCode_mirrored hkept
  | markCheckoutClaimReady => exact markCheckoutClaimReady_mirrored hkept
  | setCheckoutClaimCode => exact setCheckoutClaimCode_mirrored hkept
  | consumeCheckoutClaim nonce t => exact consumeCheckoutClaim_mirrored hkept (bne_iff_ne.1 halike)
  | deleteExpiredCheckoutClaims before => exact deleteExpiredCheckoutClaims_mirrored hkept
  | insertWebhookEventIfAbsent e =>
    exact insertWebhookEventIfAbsent_mirrored hkept (bne_iff_ne.1 halike)
  | setWebhookStatus id status attempts t => exact setWebhookStatus_mirrored status hkept
  | listWebhookEventsByStatus status limit => exact listWebhookEventsByStatus_mirrored status limit
  | listLicensesByAccount accountID =>
    refine (query_kept hkept _).trans ?_
    simp only [Store.mirror,orderBy_kept halike,Store.exec]
  | listLicensesBySubscription subID =>
    refine (query_kept hkept _).trans ?_
    simp only [Store.mirror,orderBy_kept halike,Store.exec]
  | listActivePairingsByLicense licenseID =>
    refine (query_kept hkept _).trans ?_
    simp only [Store.mirror,orderBy_kept halike,Store.exec]
  | listActivePairingsByAccount accountID =>
    refine (query_kept hkept _).trans ?_
    simp only [Store.mirror,orderBy_kept halike,Store.exec]
  -- what is looked up by its key, and the counts
  | getAccount id | getSubscription id | getLicense id | getDevice id | getPairing id
  | getRefreshToken id | getPairingToken id | getPairCredential id | getCheckoutClaim id
  | countDevicesByAccount id | activePairCount id =>
    refine (query_kept hkept _).trans ?_
    simp [Store.exec,Store.mirror,Option.map_map,Function.comp_def,Store.activePairCount]

theorem exec_accounts (s : Store) (clock : Time) {op : StoreOp} (hop : ∀ a,op ≠ .upsertAccount a) :
    (s.exec ⟨clock,[]⟩ op).2.accounts=s.accounts ∧
      (s.exec ⟨clock,[]⟩ op).2.customerToAcct=s.customerToAcct := by
  have hwrites:=Store.exec_writes s ⟨clock,[]⟩ op
  generalize (s.exec ⟨clock,[]⟩ op).2=s' at hwrites ⊢
  cases hwrites with
  | account a accounts customerToAcct => exact absurd rfl (hop a)
  | _ => exact ⟨rfl,rfl⟩

theorem Linked.upsertAccount {s : Store} (hs : Linked s) {a : Account}
    (hfree : a.stripeCustomerID = "" ∨ (s.accounts.list fun b =>
      b.id != a.id && b.stripeCustomerID == a.stripeCustomerID).isEmpty=true) :
    Linked (s.upsertAccount a) := by
  rw [Store.upsertAccount]
  constructor
  · intro id b hb hset
    rw [Table.get_put,Store.mergedAccount_id] at hb
    split at hb
    · next hid =>
      cases hb
      simp [hset,Store.mergedAccount_id,hid]
    next hid =>
    have hne : b.id≠a.id := fun heq => hid (heq.symm.trans (Table.key_of_get hb))
    have hother:=customers_apart hs hfree hb hne hset
    have hown:=hs.own id b hb hset
    split
    · exact hown
    rwa [Std.ExtTreeMap.getElem?_insert,if_neg]
    rw [Std.LawfulEqCmp.compare_eq_iff_eq]
    exact Ne.symm hother
  · dsimp only
    split
    · exact hs.named
    next hset =>
    rw [Std.ExtTreeMap.getElem?_insert,if_neg]
    · exact hs.named
    · rwa [Std.LawfulEqCmp.compare_eq_iff_eq]

theorem Linked.exec {srv : Server} {s : Store} {clock serverClock : Time} {op : StoreOp}
    (hs : Linked s) (halike : alike srv s clock serverClock op=true) :
    Linked (s.exec ⟨clock,[]⟩ op).2 := by
  by_cases hop : ∃ a,op = .upsertAccount a
  · obtain ⟨a,rfl⟩:=hop
    simp only [alike,Bool.and_eq_true,Bool.or_eq_true,beq_iff_eq] at halike
    exact hs.upsertAccount halike.2
  obtain ⟨haccounts,hlinks⟩:=exec_accounts s clock fun a ha => hop ⟨a,ha⟩
  constructor
  · rw [haccounts,hlinks]
    exact hs.own
  · rw [hlinks]
    exact hs.named

theorem serve_mirror (srv : Server) (s : Store) (db : Database) (c : StoreCall)
    (hrel : db=s.mirror ∧ Linked s) (hok : agreeable srv s c=true) :
    (s.serve c).1=(Postgres.serve srv db c).1 ∧
      (Postgres.serve srv db c).2=(s.serve c).2.mirror ∧ Linked (s.serve c).2 := by
  obtain ⟨rfl,hs⟩:=hrel
  obtain ⟨clock,serverClock,call⟩:=c
  cases call with
  | op op =>
    simp only [agreeable,Bool.and_eq_true] at hok
    have hexec : exec srv serverClock op s.mirror = _ := exec_mirror hs hok.1 hok.2
    simp only [Store.serve,Postgres.serve,hexec,true_and]
    exact hs.exec hok.2
  | healthCheck => exact ⟨rfl,rfl,hs⟩
  | close => simp [agreeable] at hok

/- A server that keeps whole microseconds, takes any text without a NUL character and
orders texts by their bytes. -/
def bytewise : Server where
  holdsText x := !x.toList.contains '\x00'
  inRange _ := true
  stamp t := t / 1000 * 1000
  collate a b := (compare a b).isLE

def moment (n : ℕ) : Time := Time.unix (1700000000 + n)

def callAt (n : ℕ) (op : StoreOp) : StoreCall := ⟨moment n,moment n,.op op⟩

def licensed : StoreOp :=
  .createLicense
    { id := "lic_cap", accountID := "acct_cap", subscriptionID := "sub_cap", status := .active,
      createdAt := moment 0 }

def pairs (pairID : String) : StoreOp :=
  .createPairingWithinCapacity
    { pairID := pairID, licenseID := "lic_cap", accountID := "acct_cap",
      mobileDeviceID := "m_" ++ pairID, desktopDeviceID := "d_" ++ pairID, status := .active,
      createdAt := moment 1 } 2

def fillsLicense : List StoreCall :=
  [callAt 0 licensed,callAt 1 (pairs "cap_a"),callAt 2 (pairs "cap_b"),
    callAt 3 (pairs "cap_c"),callAt 4 (.activePairCount "lic_cap"),
    callAt 5 (.setPairingStatus "cap_a" .revoked),callAt 6 (pairs "cap_a"),
    callAt 7 (pairs "cap_c"),callAt 8 (.listActivePairingsByLicense "lic_cap")]

/- What the shared test suite asks of a full license: a pairing that exists already. -/
def pairsAgain : List StoreCall :=
  [callAt 0 licensed,callAt 1 (pairs "cap_a"),callAt 2 (pairs "cap_b"),callAt 3 (pairs "cap_a")]

def upserts (id customer : String) (createdAt : Time) : StoreOp :=
  .upsertAccount { id := id, stripeCustomerID := customer, createdAt := createdAt }

def sharesCustomer : List StoreCall :=
  [callAt 0 (upserts "acct_1" "cus_1" (moment 0)),callAt 1 (upserts "acct_2" "cus_1" (moment 1))]

def changesCustomer : List StoreCall :=
  [callAt 0 (upserts "acct_1" "cus_1" (moment 0)),callAt 1 (upserts "acct_1" "cus_2" 0),
    callAt 2 (.getAccountByCustomer "cus_1")]

def consumesTwice : List StoreCall :=
  [callAt 0 (.putRefreshToken
      { id := "rt_1", deviceID := "dev_1", accountID := "acct_1", pairID := "pair_1",
        expiresAt := moment 60 }),
    callAt 1 (.consumeRefreshToken "rt_1" 0),callAt 2 (.consumeRefreshToken "rt_1" (moment 2))]

def upsertsTwice : List StoreCall :=
  [callAt 0 (upserts "acct_1" "" (moment 0)),callAt 1 (upserts "acct_1" "" (moment 1)),
    callAt 2 (.getAccount "acct_1")]

def Reply.createdAt : Reply → Option Time
  | .op (.getAccount _) (.ok a) => some a.createdAt
  | _ => none

end SecureGateway.Authstore
