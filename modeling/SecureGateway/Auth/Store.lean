import SecureGateway.Billing.Stripe
import SecureGateway.E2ee.Crypto
import SecureGateway.Lib.Table

/-!
# The auth service's store

The records and the `Store` interface of `store.go`, and the in-memory implementation
`memory.go`, whose methods run under one lock. A method is a `StoreOp`, and `Store.exec`
answers it. Each map is a `Table`, whose rows stand under their own id.
-/

namespace SecureGateway.Authstore
open E2ee (Bytes)

/- `ErrNotFound`, `ErrConflict`, `ErrCapacityExceeded`, any other failure of a
call, and the errors the handlers make from a text or wrap around another. -/
inductive Err
  | notFound
  | conflict
  | capacityExceeded
  | fault
  | msg (text : String)
  | wrap (context : String) (cause : Err)
  deriving DecidableEq

def Err.is (target : Err) : Err → Bool
  | .wrap context cause => .wrap context cause == target || is target cause
  | e => e == target

inductive LicenseStatus
  | active
  | revoked
  deriving DecidableEq

inductive PairingStatus
  | active
  | revoked
  deriving DecidableEq

inductive WebhookStatus
  | pending
  | processed
  | failed
  | dead
  deriving DecidableEq

inductive ClaimStatus
  | pending
  | ready
  | consumed
  deriving DecidableEq

/-! ## Records

A zero `Time` in a record means "not set", as in the source. -/

structure Account where
  id : String
  stripeCustomerID : String := ""
  secretHash : String := ""
  createdAt : Time := 0
  deriving DecidableEq, Inhabited

structure Subscription where
  id : String
  accountID : String
  status : SubStatus
  maxPairs : ℕ
  currentPeriodEnd : Time := 0
  graceUntil : Time := 0
  updatedAt : Time := 0
  deriving DecidableEq

structure License where
  id : String
  accountID : String
  subscriptionID : String
  subscriptionItemID : String := ""
  status : LicenseStatus
  createdAt : Time := 0
  deriving DecidableEq

/- `publicKey` is `none` for a nil slice, which the store tells from an empty one. -/
structure Device where
  id : String
  accountID : String
  role : Role
  publicKey : Option Bytes := none
  createdAt : Time := 0
  deriving DecidableEq

def Device.key (d : Device) : Bytes := d.publicKey.getD []

structure Pairing where
  pairID : String
  licenseID : String
  accountID : String
  mobileDeviceID : String
  desktopDeviceID : String
  status : PairingStatus
  createdAt : Time := 0
  deriving DecidableEq

structure RefreshToken where
  id : String
  deviceID : String
  accountID : String
  pairID : String
  expiresAt : Time
  revokedAt : Time := 0
  deriving DecidableEq

def RefreshToken.active (r : RefreshToken) (now : Time) : Bool :=
  r.revokedAt == 0 && decide (now<r.expiresAt)

structure PairingToken where
  id : String
  accountID : String
  licenseID : String
  desktopDeviceID : String
  expiresAt : Time
  consumedAt : Time := 0
  resultPairID : String := ""
  deriving DecidableEq

def PairingToken.active (t : PairingToken) (now : Time) : Bool :=
  t.consumedAt == 0 && decide (now<t.expiresAt)

structure PairCredential where
  pairID : String
  accountID : String
  licenseID : String
  mobileDeviceID : String
  secretHash : String
  createdAt : Time := 0
  revokedAt : Time := 0
  deriving DecidableEq

def PairCredential.active (c : PairCredential) : Bool := c.revokedAt == 0

structure CheckoutClaim where
  nonce : String
  stripeSessionID : String := ""
  redirectURI : String := ""
  claimCodeHash : String := ""
  accountID : String := ""
  licenseID : String := ""
  subscriptionID : String := ""
  status : ClaimStatus
  createdAt : Time := 0
  expiresAt : Time := 0
  consumedAt : Time := 0
  deriving DecidableEq

/- `payload` is what `json.Unmarshal` reads from the recorded bytes. -/
structure WebhookEvent where
  id : String
  type : String
  status : WebhookStatus
  attempts : ℤ := 0
  payload : Option Stripe.Event
  receivedAt : Time := 0
  processedAt : Time := 0
  deriving DecidableEq

def WebhookEvent.withStatus (e : WebhookEvent) (status : WebhookStatus) (attempts : ℤ)
    (processedAt : Time) : WebhookEvent :=
  { e with status := status, attempts := attempts, processedAt := processedAt }

structure Store where
  accounts : Table Account Account.id := .empty
  customerToAcct : Std.ExtTreeMap String String compare := ∅
  subscriptions : Table Subscription Subscription.id := .empty
  licenses : Table License License.id := .empty
  devices : Table Device Device.id := .empty
  pairings : Table Pairing Pairing.pairID := .empty
  refreshTokens : Table RefreshToken RefreshToken.id := .empty
  pairingTokens : Table PairingToken PairingToken.id := .empty
  pairCredentials : Table PairCredential PairCredential.pairID := .empty
  checkoutClaims : Table CheckoutClaim CheckoutClaim.nonce := .empty
  webhookEvents : Table WebhookEvent WebhookEvent.id := .empty

inductive StoreOp
  | upsertAccount (a : Account)
  | getAccount (id : String)
  | getAccountByCustomer (customerID : String)
  | upsertSubscription (sub : Subscription)
  | getSubscription (id : String)
  | listSubscriptions
  | createLicense (l : License)
  | getLicense (id : String)
  | listLicensesByAccount (accountID : String)
  | listLicensesBySubscription (subID : String)
  | setLicenseStatus (id : String) (status : LicenseStatus)
  | upsertDevice (d : Device)
  | getDevice (id : String)
  | countDevicesByAccount (accountID : String)
  | findDeviceByAccountRoleKey (accountID : String) (role : Role) (publicKey : Bytes)
  | createPairing (p : Pairing)
  | createPairingWithinCapacity (p : Pairing) (maxPairs : ℕ)
  | getPairing (pairID : String)
  | listActivePairingsByLicense (licenseID : String)
  | listActivePairingsByAccount (accountID : String)
  | setPairingStatus (pairID : String) (status : PairingStatus)
  | updatePairingDevices (pairID mobileDeviceID desktopDeviceID : String)
  | activePairCount (licenseID : String)
  | putRefreshToken (r : RefreshToken)
  | getRefreshToken (id : String)
  | revokeRefreshToken (id : String)
  | consumeRefreshToken (id : String) (consumedAt : Time)
  | revokeRefreshTokensByDevice (deviceID : String) (revokedAt : Time)
  | createPairingToken (t : PairingToken)
  | getPairingToken (id : String)
  | consumePairingToken (id resultPairID : String) (consumedAt : Time)
  | putPairCredential (c : PairCredential)
  | getPairCredential (pairID : String)
  | revokePairCredential (pairID : String) (revokedAt : Time)
  | createCheckoutClaim (c : CheckoutClaim)
  | getCheckoutClaim (nonce : String)
  | getCheckoutClaimByCode (claimCodeHash : String)
  | markCheckoutClaimReady (nonce accountID licenseID subscriptionID sessionID : String)
  | setCheckoutClaimCode (nonce claimCodeHash : String)
  | consumeCheckoutClaim (nonce : String) (consumedAt : Time)
  | deleteExpiredCheckoutClaims (before : Time)
  | insertWebhookEventIfAbsent (e : WebhookEvent)
  | setWebhookStatus (id : String) (status : WebhookStatus) (attempts : ℤ) (processedAt : Time)
  | listWebhookEventsByStatus (status : WebhookStatus) (limit : ℕ)

namespace StoreOp

abbrev Out : StoreOp → Type
  | getAccount _ | getAccountByCustomer _ => Account
  | getSubscription _ => Subscription
  | listSubscriptions => List Subscription
  | getLicense _ => License
  | listLicensesByAccount _ | listLicensesBySubscription _ => List License
  | getDevice _ | findDeviceByAccountRoleKey _ _ _ => Device
  | countDevicesByAccount _ | activePairCount _ | deleteExpiredCheckoutClaims _ => ℕ
  | getPairing _ => Pairing
  | listActivePairingsByLicense _ | listActivePairingsByAccount _ => List Pairing
  | getRefreshToken _ => RefreshToken
  | getPairingToken _ => PairingToken
  | getPairCredential _ => PairCredential
  | getCheckoutClaim _ | getCheckoutClaimByCode _ | consumeCheckoutClaim _ _ => CheckoutClaim
  | insertWebhookEventIfAbsent _ => Bool
  | listWebhookEventsByStatus _ _ => List WebhookEvent
  | _ => Unit

abbrev Res (op : StoreOp) : Type := Except Err op.Out

end StoreOp

/- What a method reads from outside: the wall clock, and the order of events received at the
same time. -/
structure Moment where
  now : Time
  ties : List String := []

namespace Store

def found {α : Type} : Option α → Except Err α
  | some a => .ok a
  | none => .error .notFound

/- An upsert is merged on empty, so that a partial one keeps the customer link and the
secret. -/
def mergedAccount (s : Store) (a : Account) : Account :=
  match s.accounts.get a.id with
  | some existing =>
    { a with
      stripeCustomerID := if a.stripeCustomerID = "" then existing.stripeCustomerID
        else a.stripeCustomerID
      secretHash := if a.secretHash = "" then existing.secretHash else a.secretHash
      createdAt := if a.createdAt=0 then existing.createdAt else a.createdAt }
  | none => a

theorem mergedAccount_id (s : Store) (a : Account) : (s.mergedAccount a).id=a.id := by
  unfold mergedAccount
  split <;> rfl

theorem mergedAccount_customer (s : Store) (a : Account) :
    (s.mergedAccount a).stripeCustomerID=a.stripeCustomerID ∨ a.stripeCustomerID = "" ∧
      ∃ e,s.accounts.get a.id=some e ∧
        (s.mergedAccount a).stripeCustomerID=e.stripeCustomerID := by
  unfold mergedAccount
  split
  · next e he =>
    by_cases hc : a.stripeCustomerID = ""
    · exact .inr ⟨hc,e,he,if_pos hc⟩
    · exact .inl (if_neg hc)
  · exact .inl rfl

def upsertAccount (s : Store) (a : Account) : Store :=
  let merged := s.mergedAccount a
  { s with
    accounts := s.accounts.put merged
    customerToAcct := if merged.stripeCustomerID = "" then s.customerToAcct
      else s.customerToAcct.insert merged.stripeCustomerID merged.id }

def getAccountByCustomer (s : Store) (customerID : String) : Except Err Account :=
  match s.customerToAcct[customerID]? with
  | some id => .ok ((s.accounts.get id).getD default)
  | none => .error .notFound

def createLicense (s : Store) (l : License) : Except Err Unit × Store :=
  match s.licenses.get l.id with
  | some _ => (.error .conflict,s)
  | none => (.ok (),{ s with licenses := s.licenses.put l })

def setLicenseStatus (s : Store) (id : String) (status : LicenseStatus) : Except Err Unit × Store :=
  match s.licenses.get id with
  | some l => (.ok (),{ s with licenses := s.licenses.put { l with status := status } })
  | none => (.error .notFound,s)

/- An upsert with a nil key keeps the stored one. -/
def upsertDevice (s : Store) (d : Device) : Store :=
  let d := if d.publicKey.isNone then
    { d with publicKey := (s.devices.get d.id).bind Device.publicKey } else d
  { s with devices := s.devices.put d }

def findDeviceByAccountRoleKey (s : Store) (accountID : String) (role : Role) (publicKey : Bytes) :
    Except Err Device :=
  if publicKey=[] then .error .notFound
  else
    -- the list is in the order of the ids, so its head has the lowest one
    found (s.devices.list fun d =>
      d.accountID == accountID && d.role == role && d.key == publicKey).head?

def createPairing (s : Store) (p : Pairing) : Except Err Unit × Store :=
  match s.pairings.get p.pairID with
  | some _ => (.error .conflict,s)
  | none => (.ok (),{ s with pairings := s.pairings.put p })

def activeOn (licenseID : String) (p : Pairing) : Bool :=
  p.licenseID == licenseID && p.status == .active

def activePairCount (s : Store) (licenseID : String) : ℕ := s.pairings.count (activeOn licenseID)

/- Count and insert under one lock. -/
def createPairingWithinCapacity (s : Store) (p : Pairing) (maxPairs : ℕ) :
    Except Err Unit × Store :=
  match s.pairings.get p.pairID with
  | some _ => (.error .conflict,s)
  | none =>
    if maxPairs ≤ s.activePairCount p.licenseID then (.error .capacityExceeded,s)
    else (.ok (),{ s with pairings := s.pairings.put p })

def modifyPairing (s : Store) (pairID : String) (f : Pairing → Pairing) : Except Err Unit × Store :=
  match s.pairings.get pairID with
  | some p => (.ok (),{ s with pairings := s.pairings.put (f p) })
  | none => (.error .notFound,s)

def setPairingStatus (s : Store) (pairID : String) (status : PairingStatus) :
    Except Err Unit × Store :=
  s.modifyPairing pairID fun p => { p with status := status }

def updatePairingDevices (s : Store) (pairID mobileDeviceID desktopDeviceID : String) :
    Except Err Unit × Store :=
  s.modifyPairing pairID fun p =>
    { p with mobileDeviceID := mobileDeviceID, desktopDeviceID := desktopDeviceID }

/- `now` is the process's wall clock, which this method reads itself. -/
def revokeRefreshToken (s : Store) (now : Time) (id : String) : Except Err Unit × Store :=
  match s.refreshTokens.get id with
  | some r =>
    (.ok (),if r.revokedAt=0 then
      { s with refreshTokens := s.refreshTokens.put { r with revokedAt := now } } else s)
  | none => (.error .notFound,s)

def consumeRefreshToken (s : Store) (id : String) (consumedAt : Time) : Except Err Unit × Store :=
  match s.refreshTokens.get id with
  | some r =>
    if r.revokedAt≠0 then (.error .conflict,s)
    else (.ok (),{ s with refreshTokens := s.refreshTokens.put { r with revokedAt := consumedAt } })
  | none => (.error .notFound,s)

def revokeRefreshTokensByDevice (s : Store) (deviceID : String) (revokedAt : Time) : Store :=
  { s with
    refreshTokens := s.refreshTokens.mapRows
      (fun r => if r.deviceID=deviceID ∧ r.revokedAt=0 then { r with revokedAt := revokedAt }
        else r)
      (fun r => by split <;> rfl) }

def createPairingToken (s : Store) (t : PairingToken) : Except Err Unit × Store :=
  match s.pairingTokens.get t.id with
  | some _ => (.error .conflict,s)
  | none => (.ok (),{ s with pairingTokens := s.pairingTokens.put t })

def consumePairingToken (s : Store) (id resultPairID : String) (consumedAt : Time) :
    Except Err Unit × Store :=
  match s.pairingTokens.get id with
  | some t =>
    if t.consumedAt≠0 then (.error .conflict,s)
    else
      let t := { t with consumedAt := consumedAt, resultPairID := resultPairID }
      (.ok (),{ s with pairingTokens := s.pairingTokens.put t })
  | none => (.error .notFound,s)

/- Idempotent: a missing or already revoked credential is no error. -/
def revokePairCredential (s : Store) (pairID : String) (revokedAt : Time) : Store :=
  match s.pairCredentials.get pairID with
  | some c =>
    if c.revokedAt=0 then
      { s with pairCredentials := s.pairCredentials.put { c with revokedAt := revokedAt } }
    else s
  | none => s

def createCheckoutClaim (s : Store) (c : CheckoutClaim) : Except Err Unit × Store :=
  match s.checkoutClaims.get c.nonce with
  | some _ => (.error .conflict,s)
  | none => (.ok (),{ s with checkoutClaims := s.checkoutClaims.put c })

def getCheckoutClaimByCode (s : Store) (claimCodeHash : String) : Except Err CheckoutClaim :=
  if claimCodeHash = "" then .error .notFound
  else found (s.checkoutClaims.list fun c => c.claimCodeHash == claimCodeHash).head?

/- Idempotent: a missing or already progressed claim is left as it is. -/
def markCheckoutClaimReady (s : Store)
    (nonce accountID licenseID subscriptionID sessionID : String) : Store :=
  match s.checkoutClaims.get nonce with
  | some c =>
    if c.status≠.pending then s
    else
      let c := { c with
        accountID := accountID
        licenseID := licenseID
        subscriptionID := subscriptionID
        stripeSessionID := if sessionID ≠ "" then sessionID else c.stripeSessionID
        status := .ready }
      { s with checkoutClaims := s.checkoutClaims.put c }
  | none => s

def setCheckoutClaimCode (s : Store) (nonce claimCodeHash : String) : Except Err Unit × Store :=
  match s.checkoutClaims.get nonce with
  | some c =>
    if c.status≠.ready then (.error .notFound,s)
    else
      let c := { c with claimCodeHash := claimCodeHash }
      (.ok (),{ s with checkoutClaims := s.checkoutClaims.put c })
  | none => (.error .notFound,s)

def consumeCheckoutClaim (s : Store) (nonce : String) (consumedAt : Time) :
    Except Err CheckoutClaim × Store :=
  match s.checkoutClaims.get nonce with
  | none => (.error .notFound,s)
  | some c =>
    match c.status with
    | .consumed => (.error .conflict,s)
    | .pending => (.error .notFound,s)
    | .ready =>
      let c := { c with status := .consumed, consumedAt := consumedAt }
      (.ok c,{ s with checkoutClaims := s.checkoutClaims.put c })

def insertWebhookEventIfAbsent (s : Store) (e : WebhookEvent) : Bool × Store :=
  match s.webhookEvents.get e.id with
  | some _ => (false,s)
  | none => (true,{ s with webhookEvents := s.webhookEvents.put e })

def setWebhookStatus (s : Store) (id : String) (status : WebhookStatus) (attempts : ℤ)
    (processedAt : Time) : Except Err Unit × Store :=
  match s.webhookEvents.get id with
  | some e =>
    (.ok (),{ s with
      webhookEvents := s.webhookEvents.put (e.withStatus status attempts processedAt) })
  | none => (.error .notFound,s)

/- The oldest first, at most `limit` of them unless that is zero. `sort.Slice` is not stable
and runs over a map, so that events received at the same time come in any order. -/
def listWebhookEventsByStatus (s : Store) (ties : List String) (status : WebhookStatus)
    (limit : ℕ) : List WebhookEvent :=
  let out := ((s.webhookEvents.list fun e => e.status == status).mergeSort
    fun a b => decide (ties.idxOf a.id≤ties.idxOf b.id)).mergeSort
    fun a b => decide (a.receivedAt≤b.receivedAt)
  if 0<limit then out.take limit else out

/- One method call, atomic under the store's lock. -/
def exec (m : Moment) : (op : StoreOp) → Store → op.Res × Store
  | .upsertAccount a, s => (.ok (),s.upsertAccount a)
  | .getAccount id, s => (found (s.accounts.get id),s)
  | .getAccountByCustomer customerID, s => (s.getAccountByCustomer customerID,s)
  | .upsertSubscription sub, s => (.ok (),{ s with subscriptions := s.subscriptions.put sub })
  | .getSubscription id, s => (found (s.subscriptions.get id),s)
  | .listSubscriptions, s => (.ok (s.subscriptions.list fun _ => true),s)
  | .createLicense l, s => s.createLicense l
  | .getLicense id, s => (found (s.licenses.get id),s)
  | .listLicensesByAccount accountID, s =>
    (.ok (s.licenses.list fun l => l.accountID == accountID),s)
  | .listLicensesBySubscription subID, s =>
    (.ok (s.licenses.list fun l => l.subscriptionID == subID),s)
  | .setLicenseStatus id status, s => s.setLicenseStatus id status
  | .upsertDevice d, s => (.ok (),s.upsertDevice d)
  | .getDevice id, s => (found (s.devices.get id),s)
  | .countDevicesByAccount accountID, s =>
    (.ok (s.devices.count fun d => d.accountID == accountID),s)
  | .findDeviceByAccountRoleKey accountID role publicKey, s =>
    (s.findDeviceByAccountRoleKey accountID role publicKey,s)
  | .createPairing p, s => s.createPairing p
  | .createPairingWithinCapacity p maxPairs, s => s.createPairingWithinCapacity p maxPairs
  | .getPairing pairID, s => (found (s.pairings.get pairID),s)
  | .listActivePairingsByLicense licenseID, s => (.ok (s.pairings.list (activeOn licenseID)),s)
  | .listActivePairingsByAccount accountID, s =>
    (.ok (s.pairings.list fun p => p.accountID == accountID && p.status == .active),s)
  | .setPairingStatus pairID status, s => s.setPairingStatus pairID status
  | .updatePairingDevices pairID mobileDeviceID desktopDeviceID, s =>
    s.updatePairingDevices pairID mobileDeviceID desktopDeviceID
  | .activePairCount licenseID, s => (.ok (s.activePairCount licenseID),s)
  | .putRefreshToken r, s => (.ok (),{ s with refreshTokens := s.refreshTokens.put r })
  | .getRefreshToken id, s => (found (s.refreshTokens.get id),s)
  | .revokeRefreshToken id, s => s.revokeRefreshToken m.now id
  | .consumeRefreshToken id consumedAt, s => s.consumeRefreshToken id consumedAt
  | .revokeRefreshTokensByDevice deviceID revokedAt, s =>
    (.ok (),s.revokeRefreshTokensByDevice deviceID revokedAt)
  | .createPairingToken t, s => s.createPairingToken t
  | .getPairingToken id, s => (found (s.pairingTokens.get id),s)
  | .consumePairingToken id resultPairID consumedAt, s =>
    s.consumePairingToken id resultPairID consumedAt
  | .putPairCredential c, s => (.ok (),{ s with pairCredentials := s.pairCredentials.put c })
  | .getPairCredential pairID, s => (found (s.pairCredentials.get pairID),s)
  | .revokePairCredential pairID revokedAt, s => (.ok (),s.revokePairCredential pairID revokedAt)
  | .createCheckoutClaim c, s => s.createCheckoutClaim c
  | .getCheckoutClaim nonce, s => (found (s.checkoutClaims.get nonce),s)
  | .getCheckoutClaimByCode claimCodeHash, s => (s.getCheckoutClaimByCode claimCodeHash,s)
  | .markCheckoutClaimReady nonce accountID licenseID subscriptionID sessionID, s =>
    (.ok (),s.markCheckoutClaimReady nonce accountID licenseID subscriptionID sessionID)
  | .setCheckoutClaimCode nonce claimCodeHash, s => s.setCheckoutClaimCode nonce claimCodeHash
  | .consumeCheckoutClaim nonce consumedAt, s => s.consumeCheckoutClaim nonce consumedAt
  | .deleteExpiredCheckoutClaims before, s =>
    (.ok (s.checkoutClaims.count fun c => decide (c.expiresAt<before)),
      { s with checkoutClaims := s.checkoutClaims.eraseRows fun c => decide (c.expiresAt<before) })
  | .insertWebhookEventIfAbsent e, s =>
    (.ok (s.insertWebhookEventIfAbsent e).1,(s.insertWebhookEventIfAbsent e).2)
  | .setWebhookStatus id status attempts processedAt, s =>
    s.setWebhookStatus id status attempts processedAt
  | .listWebhookEventsByStatus status limit, s =>
    (.ok (s.listWebhookEventsByStatus m.ties status limit),s)

end Store
end SecureGateway.Authstore
