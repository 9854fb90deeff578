import SecureGateway.Auth.Store

/-!
# The Postgres store

`postgres.go` over the tables of its migrations. Every method is one SQL statement, or a few
that nothing runs between here; the schema declares no foreign key. A column that may be NULL
is an `Option`. Rows whose order the statement leaves open come in the order of their keys.
-/

namespace SecureGateway.Authstore.Postgres
open E2ee (Bytes)
open Store (found activeOn)

/- What is left to the server and its driver. -/
structure Server where
  /- the texts a TEXT column can hold -/
  holdsText : String → Bool
  /- the times a TIMESTAMPTZ column can hold, and what it keeps of them -/
  inRange : Time → Bool
  stamp : Time → Time
  /- the collation by which texts are ordered -/
  collate : String → String → Bool

/- What a statement is sent. Bytes, booleans and NULL fit anywhere. -/
inductive Param
  | text (x : String)
  | integer (n : ℤ)
  | timestamptz (t : Time)

/- An INTEGER has 32 bits. -/
def Server.accepts (srv : Server) : Param → Bool
  | .text x => srv.holdsText x
  | .integer n => decide (-2147483648 ≤ n ∧ n≤2147483647)
  | .timestamptz t => srv.inRange t

/- A zero time is written as NULL. -/
def nilIfZero (t : Time) : Option Time := if t=0 then none else some t

def deref (p : Option Time) : Time := p.getD 0

def nullable (t : Time) : List Param := ((nilIfZero t).map Param.timestamptz).toList

/- `NULLIF(x, '')`. -/
def nullIfEmpty (x : String) : Option String := if x = "" then none else some x

/- `COALESCE($n, now())`. -/
def orNow (stamp : Time → Time) (now t : Time) : Time := stamp ((nilIfZero t).getD now)

/-! ## Rows

The rows of licenses, devices and pairings have the columns of their records; the
key of a device is the only one that may be NULL. For the others, `of` makes the
row that is inserted, with times as `stamp` keeps them, and `scan` reads it. -/

structure AccountRow where
  id : String
  stripeCustomerID : Option String
  secretHash : String
  createdAt : Time

def AccountRow.of (stamp : Time → Time) (now : Time) (a : Account) : AccountRow :=
  { id := a.id, stripeCustomerID := nullIfEmpty a.stripeCustomerID, secretHash := a.secretHash,
    createdAt := orNow stamp now a.createdAt }

def AccountRow.scan (r : AccountRow) : Account :=
  { id := r.id, stripeCustomerID := r.stripeCustomerID.getD "", secretHash := r.secretHash,
    createdAt := r.createdAt }

structure SubscriptionRow where
  id : String
  accountID : String
  status : SubStatus
  maxPairs : ℕ
  currentPeriodEnd : Option Time
  graceUntil : Option Time
  updatedAt : Time

def SubscriptionRow.of (stamp : Time → Time) (now : Time) (sub : Subscription) : SubscriptionRow :=
  { id := sub.id, accountID := sub.accountID, status := sub.status, maxPairs := sub.maxPairs,
    currentPeriodEnd := (nilIfZero sub.currentPeriodEnd).map stamp,
    graceUntil := (nilIfZero sub.graceUntil).map stamp,
    updatedAt := orNow stamp now sub.updatedAt }

def SubscriptionRow.scan (r : SubscriptionRow) : Subscription :=
  { id := r.id, accountID := r.accountID, status := r.status, maxPairs := r.maxPairs,
    currentPeriodEnd := deref r.currentPeriodEnd, graceUntil := deref r.graceUntil,
    updatedAt := r.updatedAt }

structure RefreshTokenRow where
  id : String
  deviceID : String
  accountID : String
  pairID : String
  expiresAt : Time
  revokedAt : Option Time

def RefreshTokenRow.of (stamp : Time → Time) (r : RefreshToken) : RefreshTokenRow :=
  { id := r.id, deviceID := r.deviceID, accountID := r.accountID, pairID := r.pairID,
    expiresAt := stamp r.expiresAt, revokedAt := (nilIfZero r.revokedAt).map stamp }

def RefreshTokenRow.scan (r : RefreshTokenRow) : RefreshToken :=
  { id := r.id, deviceID := r.deviceID, accountID := r.accountID, pairID := r.pairID,
    expiresAt := r.expiresAt, revokedAt := deref r.revokedAt }

structure PairCredentialRow where
  pairID : String
  accountID : String
  licenseID : String
  mobileDeviceID : String
  secretHash : String
  createdAt : Time
  revokedAt : Option Time

def PairCredentialRow.of (stamp : Time → Time) (c : PairCredential) : PairCredentialRow :=
  { pairID := c.pairID, accountID := c.accountID, licenseID := c.licenseID,
    mobileDeviceID := c.mobileDeviceID, secretHash := c.secretHash,
    createdAt := stamp c.createdAt, revokedAt := (nilIfZero c.revokedAt).map stamp }

def PairCredentialRow.scan (r : PairCredentialRow) : PairCredential :=
  { pairID := r.pairID, accountID := r.accountID, licenseID := r.licenseID,
    mobileDeviceID := r.mobileDeviceID, secretHash := r.secretHash, createdAt := r.createdAt,
    revokedAt := deref r.revokedAt }

structure PairingTokenRow where
  id : String
  accountID : String
  licenseID : String
  desktopDeviceID : String
  expiresAt : Time
  consumedAt : Option Time
  resultPairID : String

def PairingTokenRow.of (stamp : Time → Time) (t : PairingToken) : PairingTokenRow :=
  { id := t.id, accountID := t.accountID, licenseID := t.licenseID,
    desktopDeviceID := t.desktopDeviceID, expiresAt := stamp t.expiresAt,
    consumedAt := (nilIfZero t.consumedAt).map stamp, resultPairID := t.resultPairID }

def PairingTokenRow.scan (r : PairingTokenRow) : PairingToken :=
  { id := r.id, accountID := r.accountID, licenseID := r.licenseID,
    desktopDeviceID := r.desktopDeviceID, expiresAt := r.expiresAt,
    consumedAt := deref r.consumedAt, resultPairID := r.resultPairID }

structure CheckoutClaimRow where
  nonce : String
  stripeSessionID : String
  redirectURI : String
  claimCodeHash : String
  accountID : String
  licenseID : String
  subscriptionID : String
  status : ClaimStatus
  createdAt : Time
  expiresAt : Time
  consumedAt : Option Time

def CheckoutClaimRow.of (stamp : Time → Time) (c : CheckoutClaim) : CheckoutClaimRow :=
  { nonce := c.nonce, stripeSessionID := c.stripeSessionID, redirectURI := c.redirectURI,
    claimCodeHash := c.claimCodeHash, accountID := c.accountID, licenseID := c.licenseID,
    subscriptionID := c.subscriptionID, status := c.status, createdAt := stamp c.createdAt,
    expiresAt := stamp c.expiresAt, consumedAt := (nilIfZero c.consumedAt).map stamp }

def CheckoutClaimRow.scan (r : CheckoutClaimRow) : CheckoutClaim :=
  { nonce := r.nonce, stripeSessionID := r.stripeSessionID, redirectURI := r.redirectURI,
    claimCodeHash := r.claimCodeHash, accountID := r.accountID, licenseID := r.licenseID,
    subscriptionID := r.subscriptionID, status := r.status, createdAt := r.createdAt,
    expiresAt := r.expiresAt, consumedAt := deref r.consumedAt }

structure WebhookEventRow where
  id : String
  type : String
  status : WebhookStatus
  attempts : ℤ
  payload : Option Stripe.Event
  receivedAt : Time
  processedAt : Option Time

def WebhookEventRow.of (stamp : Time → Time) (now : Time) (e : WebhookEvent) : WebhookEventRow :=
  { id := e.id, type := e.type, status := e.status, attempts := e.attempts, payload := e.payload,
    receivedAt := orNow stamp now e.receivedAt, processedAt := (nilIfZero e.processedAt).map stamp }

def WebhookEventRow.scan (r : WebhookEventRow) : WebhookEvent :=
  { id := r.id, type := r.type, status := r.status, attempts := r.attempts, payload := r.payload,
    receivedAt := r.receivedAt, processedAt := deref r.processedAt }

structure Database where
  accounts : Table AccountRow AccountRow.id := .empty
  subscriptions : Table SubscriptionRow SubscriptionRow.id := .empty
  licenses : Table License License.id := .empty
  devices : Table Device Device.id := .empty
  pairings : Table Pairing Pairing.pairID := .empty
  refreshTokens : Table RefreshTokenRow RefreshTokenRow.id := .empty
  pairingTokens : Table PairingTokenRow PairingTokenRow.id := .empty
  pairCredentials : Table PairCredentialRow PairCredentialRow.pairID := .empty
  checkoutClaims : Table CheckoutClaimRow CheckoutClaimRow.nonce := .empty
  webhookEvents : Table WebhookEventRow WebhookEventRow.id := .empty
  /- the pool has been closed -/
  closed : Bool := false

/- A statement fails once the pool is closed, or when a parameter does not fit. -/
def Server.send {α : Type} (srv : Server) (db : Database) (params : List Param)
    (statement : Except Err α × Database) : Except Err α × Database :=
  if db.closed || !params.all srv.accepts then (.error .fault,db) else statement

def Server.query {α : Type} (srv : Server) (db : Database) (params : List Param)
    (answer : Except Err α) : Except Err α × Database :=
  srv.send db params (answer,db)

def Server.orderBy {α : Type} (srv : Server) (column : α → String) (rows : List α) : List α :=
  rows.mergeSort fun a b => srv.collate (column a) (column b)

section Methods
variable (srv : Server) (now : Time) (db : Database)

/-! ### Accounts and subscriptions -/

/- `stripe_customer_id` is UNIQUE. -/
def customerTaken (row : AccountRow) : Bool :=
  !(db.accounts.list fun b => b.id != row.id && b.stripeCustomerID.isSome &&
    b.stripeCustomerID == row.stripeCustomerID).isEmpty

/- What the row becomes: on a conflict the new customer and secret replace the old
ones unless they are empty, and `created_at` stays. -/
def upsertedAccount (a : Account) : AccountRow :=
  let excluded := AccountRow.of srv.stamp now a
  match db.accounts.get a.id with
  | some old =>
    { old with
      stripeCustomerID := excluded.stripeCustomerID.or old.stripeCustomerID
      secretHash := if excluded.secretHash ≠ "" then excluded.secretHash else old.secretHash }
  | none => excluded

def upsertAccount (a : Account) : Except Err Unit × Database :=
  srv.send db ([.text a.id,.text a.stripeCustomerID,.text a.secretHash] ++ nullable a.createdAt)
    (let row := upsertedAccount srv now db a
     if customerTaken db row then (.error .conflict,db)
     else (.ok (),{ db with accounts := db.accounts.put row }))

def getAccount (id : String) : Except Err Account × Database :=
  srv.query db [.text id] (found ((db.accounts.get id).map AccountRow.scan))

def getAccountByCustomer (customerID : String) : Except Err Account × Database :=
  srv.query db [.text customerID]
    (found ((db.accounts.list fun a => a.stripeCustomerID == some customerID).head?.map
      AccountRow.scan))

def upsertSubscription (sub : Subscription) : Except Err Unit × Database :=
  srv.send db ([.text sub.id,.text sub.accountID,.integer sub.maxPairs] ++
      nullable sub.currentPeriodEnd ++ nullable sub.graceUntil ++ nullable sub.updatedAt)
    (.ok (),
      { db with subscriptions := db.subscriptions.put (SubscriptionRow.of srv.stamp now sub) })

def getSubscription (id : String) : Except Err Subscription × Database :=
  srv.query db [.text id] (found ((db.subscriptions.get id).map SubscriptionRow.scan))

def listSubscriptions : Except Err (List Subscription) × Database :=
  srv.query db []
    (.ok ((srv.orderBy SubscriptionRow.id (db.subscriptions.list fun _ => true)).map
      SubscriptionRow.scan))

/-! ### Licenses and devices -/

def createLicense (l : License) : Except Err Unit × Database :=
  srv.send db ([.text l.id,.text l.accountID,.text l.subscriptionID,
      .text l.subscriptionItemID] ++ nullable l.createdAt)
    (match db.licenses.get l.id with
    | some _ => (.error .conflict,db)
    | none =>
      let row := { l with createdAt := orNow srv.stamp now l.createdAt }
      (.ok (),{ db with licenses := db.licenses.put row }))

def getLicense (id : String) : Except Err License × Database :=
  srv.query db [.text id] (found (db.licenses.get id))

def listLicensesByAccount (accountID : String) : Except Err (List License) × Database :=
  srv.query db [.text accountID]
    (.ok (srv.orderBy License.id (db.licenses.list fun l => l.accountID == accountID)))

def listLicensesBySubscription (subID : String) : Except Err (List License) × Database :=
  srv.query db [.text subID]
    (.ok (srv.orderBy License.id (db.licenses.list fun l => l.subscriptionID == subID)))

def setLicenseStatus (id : String) (status : LicenseStatus) : Except Err Unit × Database :=
  srv.send db [.text id]
    (match db.licenses.get id with
    | some l => (.ok (),{ db with licenses := db.licenses.put { l with status := status } })
    | none => (.error .notFound,db))

/- On a conflict `created_at` stays, and a NULL key keeps the old one. -/
def upsertedDevice (d : Device) : Device :=
  match db.devices.get d.id with
  | some old =>
    { old with
      accountID := d.accountID
      role := d.role
      publicKey := d.publicKey.or old.publicKey }
  | none => { d with createdAt := orNow srv.stamp now d.createdAt }

def upsertDevice (d : Device) : Except Err Unit × Database :=
  srv.send db ([.text d.id,.text d.accountID] ++ nullable d.createdAt)
    (.ok (),{ db with devices := db.devices.put (upsertedDevice srv now db d) })

def getDevice (id : String) : Except Err Device × Database :=
  srv.query db [.text id] (found (db.devices.get id))

def countDevicesByAccount (accountID : String) : Except Err ℕ × Database :=
  srv.query db [.text accountID] (.ok (db.devices.count fun d => d.accountID == accountID))

def findDeviceByAccountRoleKey (accountID : String) (role : Role) (publicKey : Bytes) :
    Except Err Device × Database :=
  if publicKey=[] then (.error .notFound,db)
  else
    srv.query db [.text accountID]
      (found ((db.devices.list fun d =>
          d.accountID == accountID && d.role == role && d.publicKey == some publicKey).mergeSort
        fun a b => decide (a.createdAt≤b.createdAt)).head?)

/-! ### Pairings -/

def createPairing (p : Pairing) : Except Err Unit × Database :=
  srv.send db ([.text p.pairID,.text p.licenseID,.text p.accountID,.text p.mobileDeviceID,
      .text p.desktopDeviceID] ++ nullable p.createdAt)
    (match db.pairings.get p.pairID with
    | some _ => (.error .conflict,db)
    | none =>
      let row := { p with createdAt := orNow srv.stamp now p.createdAt }
      (.ok (),{ db with pairings := db.pairings.put row }))

/- The transaction locks the license, counts, and only then inserts. -/
def createPairingWithinCapacity (p : Pairing) (maxPairs : ℕ) : Except Err Unit × Database :=
  srv.send db [.text p.licenseID]
    (match db.licenses.get p.licenseID with
    | none => (.error .notFound,db)
    | some _ =>
      if maxPairs ≤ db.pairings.count (activeOn p.licenseID) then (.error .capacityExceeded,db)
      else createPairing srv now db p)

def getPairing (pairID : String) : Except Err Pairing × Database :=
  srv.query db [.text pairID] (found (db.pairings.get pairID))

def listActivePairingsByLicense (licenseID : String) : Except Err (List Pairing) × Database :=
  srv.query db [.text licenseID]
    (.ok (srv.orderBy Pairing.pairID (db.pairings.list (activeOn licenseID))))

def listActivePairingsByAccount (accountID : String) : Except Err (List Pairing) × Database :=
  srv.query db [.text accountID]
    (.ok (srv.orderBy Pairing.pairID
      (db.pairings.list fun p => p.accountID == accountID && p.status == .active)))

def setPairingStatus (pairID : String) (status : PairingStatus) : Except Err Unit × Database :=
  srv.send db [.text pairID]
    (match db.pairings.get pairID with
    | some p => (.ok (),{ db with pairings := db.pairings.put { p with status := status } })
    | none => (.error .notFound,db))

def updatePairingDevices (pairID mobileDeviceID desktopDeviceID : String) :
    Except Err Unit × Database :=
  srv.send db [.text pairID,.text mobileDeviceID,.text desktopDeviceID]
    (match db.pairings.get pairID with
    | some p =>
      let row := { p with mobileDeviceID := mobileDeviceID, desktopDeviceID := desktopDeviceID }
      (.ok (),{ db with pairings := db.pairings.put row })
    | none => (.error .notFound,db))

def activePairCount (licenseID : String) : Except Err ℕ × Database :=
  srv.query db [.text licenseID] (.ok (db.pairings.count (activeOn licenseID)))

/-! ### Refresh tokens and pair credentials -/

def putRefreshToken (r : RefreshToken) : Except Err Unit × Database :=
  srv.send db ([.text r.id,.text r.deviceID,.text r.accountID,.text r.pairID,
      .timestamptz r.expiresAt] ++ nullable r.revokedAt)
    (.ok (),{ db with refreshTokens := db.refreshTokens.put (RefreshTokenRow.of srv.stamp r) })

def getRefreshToken (id : String) : Except Err RefreshToken × Database :=
  srv.query db [.text id] (found ((db.refreshTokens.get id).map RefreshTokenRow.scan))

/- No row is updated when the token is missing or already revoked. -/
def revokeRefreshToken (id : String) : Except Err Unit × Database :=
  srv.send db [.text id]
    (match db.refreshTokens.get id with
    | some r =>
      (.ok (),if r.revokedAt.isNone then
        { db with refreshTokens :=
            db.refreshTokens.put { r with revokedAt := some (srv.stamp now) } } else db)
    | none => (.error .notFound,db))

def consumeRefreshToken (id : String) (consumedAt : Time) : Except Err Unit × Database :=
  srv.send db [.text id,.timestamptz consumedAt]
    (match db.refreshTokens.get id with
    | some r =>
      if r.revokedAt.isSome then (.error .conflict,db)
      else
        let row := { r with revokedAt := some (srv.stamp consumedAt) }
        (.ok (),{ db with refreshTokens := db.refreshTokens.put row })
    | none => (.error .notFound,db))

def revokeRefreshTokensByDevice (deviceID : String) (revokedAt : Time) :
    Except Err Unit × Database :=
  srv.send db [.text deviceID,.timestamptz revokedAt]
    (.ok (),
      { db with
        refreshTokens := db.refreshTokens.mapRows
          (fun r => if r.deviceID=deviceID ∧ r.revokedAt=none then
            { r with revokedAt := some (srv.stamp revokedAt) } else r)
          (fun r => by split <;> rfl) })

def putPairCredential (c : PairCredential) : Except Err Unit × Database :=
  srv.send db ([.text c.pairID,.text c.accountID,.text c.licenseID,.text c.mobileDeviceID,
      .text c.secretHash,.timestamptz c.createdAt] ++ nullable c.revokedAt)
    (.ok (),
      { db with pairCredentials := db.pairCredentials.put (PairCredentialRow.of srv.stamp c) })

def getPairCredential (pairID : String) : Except Err PairCredential × Database :=
  srv.query db [.text pairID] (found ((db.pairCredentials.get pairID).map PairCredentialRow.scan))

def revokePairCredential (pairID : String) (revokedAt : Time) : Except Err Unit × Database :=
  srv.send db [.text pairID,.timestamptz revokedAt]
    (.ok (),match db.pairCredentials.get pairID with
    | some c =>
      if c.revokedAt.isNone then
        let row := { c with revokedAt := some (srv.stamp revokedAt) }
        { db with pairCredentials := db.pairCredentials.put row }
      else db
    | none => db)

/-! ### Pairing tokens -/

def createPairingToken (t : PairingToken) : Except Err Unit × Database :=
  srv.send db ([.text t.id,.text t.accountID,.text t.licenseID,.text t.desktopDeviceID,
      .timestamptz t.expiresAt] ++ nullable t.consumedAt ++ [.text t.resultPairID])
    (match db.pairingTokens.get t.id with
    | some _ => (.error .conflict,db)
    | none =>
      (.ok (),{ db with pairingTokens := db.pairingTokens.put (PairingTokenRow.of srv.stamp t) }))

def getPairingToken (id : String) : Except Err PairingToken × Database :=
  srv.query db [.text id] (found ((db.pairingTokens.get id).map PairingTokenRow.scan))

def consumePairingToken (id resultPairID : String) (consumedAt : Time) :
    Except Err Unit × Database :=
  srv.send db [.text id,.timestamptz consumedAt,.text resultPairID]
    (match db.pairingTokens.get id with
    | some t =>
      if t.consumedAt.isSome then (.error .conflict,db)
      else
        let row :=
          { t with consumedAt := some (srv.stamp consumedAt), resultPairID := resultPairID }
        (.ok (),{ db with pairingTokens := db.pairingTokens.put row })
    | none => (.error .notFound,db))

/-! ### Checkout claims -/

def createCheckoutClaim (c : CheckoutClaim) : Except Err Unit × Database :=
  srv.send db ([.text c.nonce,.text c.stripeSessionID,.text c.redirectURI,
      .text c.claimCodeHash,.text c.accountID,.text c.licenseID,.text c.subscriptionID,
      .timestamptz c.createdAt,.timestamptz c.expiresAt] ++ nullable c.consumedAt)
    (match db.checkoutClaims.get c.nonce with
    | some _ => (.error .conflict,db)
    | none =>
      (.ok (),
        { db with checkoutClaims := db.checkoutClaims.put (CheckoutClaimRow.of srv.stamp c) }))

def getCheckoutClaim (nonce : String) : Except Err CheckoutClaim × Database :=
  srv.query db [.text nonce] (found ((db.checkoutClaims.get nonce).map CheckoutClaimRow.scan))

def getCheckoutClaimByCode (claimCodeHash : String) : Except Err CheckoutClaim × Database :=
  if claimCodeHash = "" then (.error .notFound,db)
  else
    srv.query db [.text claimCodeHash]
      (found ((db.checkoutClaims.list fun c => c.claimCodeHash == claimCodeHash).head?.map
        CheckoutClaimRow.scan))

/- Only a claim that is still pending is updated. -/
def markCheckoutClaimReady (nonce accountID licenseID subscriptionID sessionID : String) :
    Except Err Unit × Database :=
  srv.send db [.text nonce,.text accountID,.text licenseID,.text subscriptionID,
      .text sessionID]
    (.ok (),match db.checkoutClaims.get nonce with
    | some c =>
      if c.status=.pending then
        let row := { c with
          accountID := accountID
          licenseID := licenseID
          subscriptionID := subscriptionID
          stripeSessionID := (nullIfEmpty sessionID).getD c.stripeSessionID
          status := .ready }
        { db with checkoutClaims := db.checkoutClaims.put row }
      else db
    | none => db)

def setCheckoutClaimCode (nonce claimCodeHash : String) : Except Err Unit × Database :=
  srv.send db [.text nonce,.text claimCodeHash]
    (match db.checkoutClaims.get nonce with
    | some c =>
      if c.status=.ready then
        let row := { c with claimCodeHash := claimCodeHash }
        (.ok (),{ db with checkoutClaims := db.checkoutClaims.put row })
      else (.error .notFound,db)
    | none => (.error .notFound,db))

/- Only a claim that is ready is updated; otherwise its status tells the errors apart. -/
def consumeCheckoutClaim (nonce : String) (consumedAt : Time) :
    Except Err CheckoutClaim × Database :=
  srv.send db [.text nonce,.timestamptz consumedAt]
    (match db.checkoutClaims.get nonce with
    | some c =>
      if c.status=.ready then
        let row := { c with status := .consumed, consumedAt := some (srv.stamp consumedAt) }
        (.ok row.scan,{ db with checkoutClaims := db.checkoutClaims.put row })
      else if c.status=.consumed then (.error .conflict,db)
      else (.error .notFound,db)
    | none => (.error .notFound,db))

def deleteExpiredCheckoutClaims (before : Time) : Except Err ℕ × Database :=
  srv.send db [.timestamptz before]
    (let expired := fun c : CheckoutClaimRow => decide (c.expiresAt < srv.stamp before)
     (.ok (db.checkoutClaims.count expired),
      { db with checkoutClaims := db.checkoutClaims.eraseRows expired }))

/-! ### Webhook events -/

def insertWebhookEventIfAbsent (e : WebhookEvent) : Except Err Bool × Database :=
  srv.send db ([.text e.id,.text e.type,.integer e.attempts] ++ nullable e.receivedAt ++
      nullable e.processedAt)
    (match db.webhookEvents.get e.id with
    | some _ => (.ok false,db)
    | none =>
      (.ok true,
        { db with webhookEvents := db.webhookEvents.put (WebhookEventRow.of srv.stamp now e) }))

def setWebhookStatus (id : String) (status : WebhookStatus) (attempts : ℤ) (processedAt : Time) :
    Except Err Unit × Database :=
  srv.send db ([.text id,.integer attempts] ++ nullable processedAt)
    (match db.webhookEvents.get id with
    | some e =>
      let row := { e with
        status := status
        attempts := attempts
        processedAt := (nilIfZero processedAt).map srv.stamp }
      (.ok (),{ db with webhookEvents := db.webhookEvents.put row })
    | none => (.error .notFound,db))

def listWebhookEventsByStatus (status : WebhookStatus) (limit : ℕ) :
    Except Err (List WebhookEvent) × Database :=
  srv.query db []
    (let rows := (db.webhookEvents.list fun e => e.status == status).mergeSort
      fun a b => decide (a.receivedAt≤b.receivedAt)
     .ok ((if 0<limit then rows.take limit else rows).map WebhookEventRow.scan))

/-! ### Operational -/

def healthCheck : Except Err Unit × Database := srv.query db [] (.ok ())

def close : Except Err Unit × Database := (.ok (),{ db with closed := true })

end Methods

def exec (srv : Server) (now : Time) : (op : StoreOp) → Database → op.Res × Database
  | .upsertAccount a, db => upsertAccount srv now db a
  | .getAccount id, db => getAccount srv db id
  | .getAccountByCustomer customerID, db => getAccountByCustomer srv db customerID
  | .upsertSubscription sub, db => upsertSubscription srv now db sub
  | .getSubscription id, db => getSubscription srv db id
  | .listSubscriptions, db => listSubscriptions srv db
  | .createLicense l, db => createLicense srv now db l
  | .getLicense id, db => getLicense srv db id
  | .listLicensesByAccount accountID, db => listLicensesByAccount srv db accountID
  | .listLicensesBySubscription subID, db => listLicensesBySubscription srv db subID
  | .setLicenseStatus id status, db => setLicenseStatus srv db id status
  | .upsertDevice d, db => upsertDevice srv now db d
  | .getDevice id, db => getDevice srv db id
  | .countDevicesByAccount accountID, db => countDevicesByAccount srv db accountID
  | .findDeviceByAccountRoleKey accountID role publicKey, db =>
    findDeviceByAccountRoleKey srv db accountID role publicKey
  | .createPairing p, db => createPairing srv now db p
  | .createPairingWithinCapacity p maxPairs, db => createPairingWithinCapacity srv now db p maxPairs
  | .getPairing pairID, db => getPairing srv db pairID
  | .listActivePairingsByLicense licenseID, db => listActivePairingsByLicense srv db licenseID
  | .listActivePairingsByAccount accountID, db => listActivePairingsByAccount srv db accountID
  | .setPairingStatus pairID status, db => setPairingStatus srv db pairID status
  | .updatePairingDevices pairID mobileDeviceID desktopDeviceID, db =>
    updatePairingDevices srv db pairID mobileDeviceID desktopDeviceID
  | .activePairCount licenseID, db => activePairCount srv db licenseID
  | .putRefreshToken r, db => putRefreshToken srv db r
  | .getRefreshToken id, db => getRefreshToken srv db id
  | .revokeRefreshToken id, db => revokeRefreshToken srv now db id
  | .consumeRefreshToken id consumedAt, db => consumeRefreshToken srv db id consumedAt
  | .revokeRefreshTokensByDevice deviceID revokedAt, db =>
    revokeRefreshTokensByDevice srv db deviceID revokedAt
  | .createPairingToken t, db => createPairingToken srv db t
  | .getPairingToken id, db => getPairingToken srv db id
  | .consumePairingToken id resultPairID consumedAt, db =>
    consumePairingToken srv db id resultPairID consumedAt
  | .putPairCredential c, db => putPairCredential srv db c
  | .getPairCredential pairID, db => getPairCredential srv db pairID
  | .revokePairCredential pairID revokedAt, db => revokePairCredential srv db pairID revokedAt
  | .createCheckoutClaim c, db => createCheckoutClaim srv db c
  | .getCheckoutClaim nonce, db => getCheckoutClaim srv db nonce
  | .getCheckoutClaimByCode claimCodeHash, db => getCheckoutClaimByCode srv db claimCodeHash
  | .markCheckoutClaimReady nonce accountID licenseID subscriptionID sessionID, db =>
    markCheckoutClaimReady srv db nonce accountID licenseID subscriptionID sessionID
  | .setCheckoutClaimCode nonce claimCodeHash, db => setCheckoutClaimCode srv db nonce claimCodeHash
  | .consumeCheckoutClaim nonce consumedAt, db => consumeCheckoutClaim srv db nonce consumedAt
  | .deleteExpiredCheckoutClaims before, db => deleteExpiredCheckoutClaims srv db before
  | .insertWebhookEventIfAbsent e, db => insertWebhookEventIfAbsent srv now db e
  | .setWebhookStatus id status attempts processedAt, db =>
    setWebhookStatus srv db id status attempts processedAt
  | .listWebhookEventsByStatus status limit, db => listWebhookEventsByStatus srv db status limit

end SecureGateway.Authstore.Postgres
