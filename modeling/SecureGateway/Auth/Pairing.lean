import SecureGateway.Auth.Service

/-!
# Pairing

`internal/authservice/pairing.go`: a desktop issues a one-time pairing token, a
phone completes the pairing with it, the desktop polls for the result, and
either side unpairs. `Request` collects everything that reaches the store of
the auth service, and `handle` runs one of them.
-/

namespace SecureGateway.Auth
open Authstore
open E2ee (Bytes)

def capacityAvailable (lic : License) : Handler (Except Err (Bool × ℕ)) := do
  match ← store (.getSubscription lic.subscriptionID) with
  | .error e => return .error e
  | .ok sub =>
    match ← store (.activePairCount lic.id) with
    | .error e => return .error e
    | .ok inUse => return .ok (decide (inUse<sub.maxPairs),sub.maxPairs)

def activePairingForDesktop (licenseID desktopDeviceID : String) :
    Handler (Except Err (Option Pairing)) := do
  match ← store (.listActivePairingsByLicense licenseID) with
  | .error e => return .error e
  | .ok pairings => return .ok (pairings.find? fun p => p.desktopDeviceID == desktopDeviceID)

structure PairingTokenReq where
  licenseID : String
  desktopDeviceID : String
  desktopPublicKey : String := ""

/- The QR payload repeats the token and names the desktop. -/
structure PairingTokenResp where
  pairingToken : String
  expiresIn : ℤ
  desktopPubKey : String
  desktopDeviceID : String
  relay : String
  auth : String
  deriving DecidableEq

/- The advisory capacity check of a pairing token: a re-pair needs no slot. -/
def slotFree (lic : License) (existing : Option Pairing) : Handler (Except Err Bool) := do
  match existing with
  | some _ => return .ok true
  | none =>
    match ← capacityAvailable lic with
    | .error e => return .error e
    | .ok res => return .ok res.1

/- Stores the desktop's key where the request carries one: the device as it is then. -/
def storeDesktopKey (s : Service) (dev : Device) (text : String) :
    Handler (Except Reject Device) := do
  if text = "" then return .ok dev
  match s.base64Decode text with
  | none => return .error ⟨400,"bad_public_key"⟩
  | some pub =>
    match ← store (.upsertDevice { dev with publicKey := some pub }) with
    | .error _ => return .error ⟨500,"store_error"⟩
    | .ok _ => return .ok { dev with publicKey := some pub }

def issuePairingToken (s : Service) (accountID : String) (lic : License) (dev : Device) :
    Handler (Except Reject PairingTokenResp) := do
  if dev.key=[] then return .error ⟨400,"missing_public_key"⟩
  let secret ← newID "pt"
  let t ← now
  match ← store (.createPairingToken
    { id := s.hashSecret secret, accountID, licenseID := lic.id, desktopDeviceID := dev.id,
      expiresAt := t + s.pairingTokenTTL }) with
  | .error _ => return .error ⟨500,"store_error"⟩
  | .ok _ =>
    return .ok
      { pairingToken := secret, expiresIn := s.pairingTokenTTL.tdiv 1000000000,
        desktopPubKey := s.base64Encode dev.key, desktopDeviceID := dev.id,
        relay := s.relayURL, auth := s.authURL }

def handleCreatePairingToken (s : Service) (authorization : String) (req : Option PairingTokenReq) :
    Handler (Except Reject PairingTokenResp) := do
  match ← authenticateAccount s authorization with
  | none => return .error ⟨401,"unauthorized"⟩
  | some accountID =>
    match req with
    | none => return .error ⟨400,"bad_request"⟩
    | some req =>
      if req.licenseID = "" ∨ req.desktopDeviceID = "" then return .error ⟨400,"bad_request"⟩
      match ← store (.getLicense req.licenseID) with
      | .error _ => return .error ⟨404,"license_not_found"⟩
      | .ok lic =>
        if lic.accountID≠accountID then return .error ⟨404,"license_not_found"⟩
        let valid ← licenseIssuable s lic
        if !valid.2 then return .error ⟨403,"license_invalid"⟩
        match ← deviceForRole req.desktopDeviceID accountID .desktop with
        | none => return .error ⟨400,"bad_devices"⟩
        | some dev =>
          match ← activePairingForDesktop lic.id dev.id with
          | .error _ => return .error ⟨500,"store_error"⟩
          | .ok existing =>
            match ← slotFree lic existing with
            | .error _ => return .error ⟨500,"store_error"⟩
            | .ok false => return .error ⟨409,"capacity_exceeded"⟩
            | .ok true =>
              match ← storeDesktopKey s dev req.desktopPublicKey with
              | .error e => return .error e
              | .ok dev => issuePairingToken s accountID lic dev

structure CompletePairingReq where
  pairingToken : String
  mobileDeviceID : String := ""
  mobilePublicKey : String

structure CompletePairingResp where
  pairID : String
  desktopPublicKey : String
  mobileDeviceID : String
  pairCredential : String
  deriving DecidableEq

/- The phone's device: the one it names, which must be a mobile device of the
token's account, or one registered under its key. -/
def mobileDevice (s : Service) (pt : PairingToken) (mobileDeviceID : String) (pub : Bytes) :
    Handler (Except Reject Device) := do
  if mobileDeviceID ≠ "" then
    match ← deviceForRole mobileDeviceID pt.accountID .mobile with
    | none => return .error ⟨400,"bad_devices"⟩
    | some dev => return .ok dev
  else
    match ← registerOrFindDevice s pt.accountID .mobile (some pub) with
    | .ok dev => return .ok dev
    | .error e =>
      if Err.is errDeviceLimit e then return .error ⟨409,"device_limit"⟩
      else return .error ⟨500,"store_error"⟩

/- The pair id of the completion and, for a new pair, the capacity to insert
under: a re-pair keeps the id of the existing pairing. -/
def pairSlot (lic : License) (existing : Option Pairing) :
    Handler (Except Reject (String × ℕ)) := do
  let fresh ← newID "pair"
  match existing with
  | some p => return .ok (p.pairID,0)
  | none =>
    match ← capacityAvailable lic with
    | .error _ => return .error ⟨500,"store_error"⟩
    | .ok (true,maxPairs) => return .ok (fresh,maxPairs)
    | .ok (false,_) => return .error ⟨409,"capacity_exceeded"⟩

/- Replaces the phone of an existing pairing: its refresh tokens and its live
session go. -/
def rePair (s : Service) (existing : Pairing) (mobile desktop : Device) :
    Handler (Except Reject Unit) := do
  match ← store (.updatePairingDevices existing.pairID mobile.id desktop.id) with
  | .error _ => return .error ⟨500,"store_error"⟩
  | .ok _ =>
    let evicted := existing.mobileDeviceID
    if evicted ≠ "" ∧ evicted≠mobile.id then
      let t ← now
      let _ ← store (.revokeRefreshTokensByDevice evicted t)
      publishRevocation s { pairID := existing.pairID }
      return .ok ()
    else
      publishRevocation s { pairID := existing.pairID }
      return .ok ()

def newPair (pt : PairingToken) (lic : License) (mobile desktop : Device) (pairID : String)
    (maxPairs : ℕ) : Handler (Except Reject Unit) := do
  let createdAt ← now
  match ← store (.createPairingWithinCapacity
    { pairID, licenseID := lic.id, accountID := pt.accountID, mobileDeviceID := mobile.id,
      desktopDeviceID := desktop.id, status := .active, createdAt } maxPairs) with
  | .ok _ => return .ok ()
  | .error e =>
    if Err.is .capacityExceeded e then return .error ⟨409,"capacity_exceeded"⟩
    else return .error ⟨500,"store_error"⟩

def credentialPair (s : Service) (pt : PairingToken) (lic : License) (mobile desktop : Device)
    (pairID : String) : Handler (Except Reject CompletePairingResp) := do
  let credSecret ← newPairCredential pairID
  let createdAt ← now
  match ← store (.putPairCredential
    { pairID, accountID := pt.accountID, licenseID := lic.id, mobileDeviceID := mobile.id,
      secretHash := s.hashSecret credSecret, createdAt }) with
  | .error _ => return .error ⟨500,"store_error"⟩
  | .ok _ =>
    return .ok
      { pairID, desktopPublicKey := s.base64Encode desktop.key, mobileDeviceID := mobile.id,
        pairCredential := credSecret }

/- What follows once the phone and the desktop are known: the token is consumed
first, so that a replayed completion changes nothing. -/
def pairDevices (s : Service) (pt : PairingToken) (lic : License) (mobile desktop : Device)
    (pub : Bytes) : Handler (Except Reject CompletePairingResp) := do
  match ← activePairingForDesktop lic.id pt.desktopDeviceID with
  | .error _ => return .error ⟨500,"store_error"⟩
  | .ok existing =>
    match ← pairSlot lic existing with
    | .error e => return .error e
    | .ok (pairID,maxPairs) =>
      let t ← now
      match ← store (.consumePairingToken pt.id pairID t) with
      | .error e =>
        if Err.is .conflict e then return .error ⟨409,"pairing_token_used"⟩
        else return .error ⟨500,"store_error"⟩
      | .ok _ =>
        match ← store (.upsertDevice { mobile with publicKey := some pub }) with
        | .error _ => return .error ⟨500,"store_error"⟩
        | .ok _ =>
          match existing with
          | some p =>
            match ← rePair s p mobile desktop with
            | .error e => return .error e
            | .ok _ => credentialPair s pt lic mobile desktop pairID
          | none =>
            match ← newPair pt lic mobile desktop pairID maxPairs with
            | .error e => return .error e
            | .ok _ => credentialPair s pt lic mobile desktop pairID

def handleCompletePairing (s : Service) (req : Option CompletePairingReq) :
    Handler (Except Reject CompletePairingResp) := do
  match req with
  | none => return .error ⟨400,"bad_request"⟩
  | some req =>
    if req.pairingToken = "" ∨ req.mobilePublicKey = "" then return .error ⟨400,"bad_request"⟩
    match ← store (.getPairingToken (s.hashSecret req.pairingToken)) with
    | .error _ => return .error ⟨401,"pairing_token_invalid"⟩
    | .ok pt =>
      let t ← now
      if !pt.active t then return .error ⟨401,"pairing_token_invalid"⟩
      match ← store (.getLicense pt.licenseID) with
      | .error _ => return .error ⟨403,"license_invalid"⟩
      | .ok lic =>
        let valid ← licenseIssuable s lic
        if !valid.2 then return .error ⟨403,"license_invalid"⟩
        let pub := (s.base64Decode req.mobilePublicKey).getD []
        if pub=[] then return .error ⟨400,"bad_public_key"⟩
        match ← mobileDevice s pt req.mobileDeviceID pub with
        | .error e => return .error e
        | .ok mobile =>
          match ← store (.getDevice pt.desktopDeviceID) with
          | .error _ => return .error ⟨403,"desktop_unavailable"⟩
          | .ok desktop =>
            if desktop.key=[] then return .error ⟨403,"desktop_unavailable"⟩
            pairDevices s pt lic mobile desktop pub

inductive PollPairingResp
  | completed (pairID mobilePublicKey : String)
  | expired
  | pending
  deriving DecidableEq

def pollConsumed (s : Service) (pt : PairingToken) : Handler (Except Reject PollPairingResp) := do
  match ← store (.getPairing pt.resultPairID) with
  | .error _ => return .error ⟨500,"store_error"⟩
  | .ok pairing =>
    match ← store (.getDevice pairing.mobileDeviceID) with
    | .error _ => return .error ⟨500,"store_error"⟩
    | .ok mobile => return .ok (.completed pt.resultPairID (s.base64Encode mobile.key))

/- `req` is the pairing token of the body. -/
def handlePollPairingToken (s : Service) (authorization : String) (req : Option String) :
    Handler (Except Reject PollPairingResp) := do
  match ← authenticateAccount s authorization with
  | none => return .error ⟨401,"unauthorized"⟩
  | some accountID =>
    let secret := req.getD ""
    if secret = "" then return .error ⟨400,"bad_request"⟩
    match ← store (.getPairingToken (s.hashSecret secret)) with
    | .error _ => return .error ⟨404,"pairing_token_not_found"⟩
    | .ok pt =>
      if pt.accountID≠accountID then return .error ⟨404,"pairing_token_not_found"⟩
      if pt.consumedAt≠0 then pollConsumed s pt
      else
        let t ← now
        return .ok (if t<pt.expiresAt then .pending else .expired)

/- A pair credential may only unpair its own pairing. -/
def credentialOwns (cred : Option PairCredential) (pairID : String) : Bool :=
  match cred with
  | none => true
  | some cred => cred.pairID == pairID

/- `req` is the pair id of the body. -/
def handleUnpair (s : Service) (authorization : String) (req : Option String) :
    Handler (Except Reject Unit) := do
  match ← authenticateAccountOrPair s authorization with
  | none => return .error ⟨401,"unauthorized"⟩
  | some (accountID,cred) =>
    let pairID := req.getD ""
    if pairID = "" then return .error ⟨400,"bad_request"⟩
    if !credentialOwns cred pairID then return .error ⟨404,"pairing_not_found"⟩
    match ← store (.getPairing pairID) with
    | .error _ => return .error ⟨404,"pairing_not_found"⟩
    | .ok p =>
      if p.accountID≠accountID then return .error ⟨404,"pairing_not_found"⟩
      match ← store (.setPairingStatus p.pairID .revoked) with
      | .error _ => return .error ⟨500,"store_error"⟩
      | .ok _ =>
        let t ← now
        let _ ← store (.revokePairCredential p.pairID t)
        publishRevocation s { pairID := p.pairID }
        return .ok ()

/- What reaches the service: the requests of its clients, Stripe's webhooks, and
the rounds of its two background workers. -/
inductive Request
  | createAccount (authorization : String) (accountID : Option String)
  | registerDevice (authorization : String) (req : Option DeviceReq)
  | createPairingToken (authorization : String) (req : Option PairingTokenReq)
  | completePairing (req : Option CompletePairingReq)
  | pollPairingToken (authorization : String) (pairingToken : Option String)
  | unpair (authorization : String) (pairID : Option String)
  | issueToken (authorization : String) (req : Option TokenReq)
  | refreshToken (refreshToken : Option String)
  | webhook (payload : Option Stripe.Event) (signed : Bool)
  | retryFailed (limit : ℕ)
  | reconcile

def ignore {α : Type} (p : Handler α) : Handler Unit := do
  let _ ← p
  return ()

def handle (s : Service) : Request → Handler Unit
  | .createAccount authorization accountID => ignore (handleCreateAccount s authorization accountID)
  | .registerDevice authorization req => ignore (handleRegisterDevice s authorization req)
  | .createPairingToken authorization req => ignore (handleCreatePairingToken s authorization req)
  | .completePairing req => ignore (handleCompletePairing s req)
  | .pollPairingToken authorization token => ignore (handlePollPairingToken s authorization token)
  | .unpair authorization pairID => ignore (handleUnpair s authorization pairID)
  | .issueToken authorization req => ignore (handleIssueToken s authorization req)
  | .refreshToken token => ignore (handleRefreshToken s token)
  | .webhook payload signed => ignore (handleWebhook s payload signed)
  | .retryFailed limit => ignore (Billing.retryFailed s.proc limit)
  | .reconcile => ignore (Billing.reconcile s.proc)

def next (s : Service) (w : World) (r : Request × List Answer) : World :=
  (serve (handle s r.1) r.2 w).2

def sampleService : Service where
  refreshTTL := 1000
  pairingTokenTTL := 1000
  adminKey := "root"
  billingEnabled := true
  proc := { grace := 100 }
  hashSecret secret := "#" ++ secret
  base64Decode text := some [UInt8.ofNat text.length]
  base64Encode _ := "AQ=="

def drawing (fresh : String) : List Answer := List.replicate 60 { elapsed := 1, fresh := fresh }

def sampleSubscription : Stripe.Subscription :=
  { id := "sub_1", customer := some "cus_1", status := .active }

end SecureGateway.Auth
