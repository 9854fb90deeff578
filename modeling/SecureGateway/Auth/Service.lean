import SecureGateway.Billing.Processor

/-!
# The auth service

`auth.go` and `handlers.go`. A handler takes the `Authorization` header and the decoded body,
`none` where it does not decode, and returns the response body or the status and code of the
error. SHA-256 with hex, base64 and calendar arithmetic are functions of the `Service`;
logging, metrics and rate limits are left out.
-/

namespace SecureGateway.Auth
open Authstore
open E2ee (Bytes)

structure Service where
  issuer : String := ""
  audience : String := ""
  tokenTTL : Duration := 0
  refreshTTL : Duration := 0
  pairingTokenTTL : Duration := 0
  adminKey : String := ""
  relayURL : String := ""
  authURL : String := ""
  billingEnabled : Bool
  deviceCap : ℕ := 10
  /- a backplane is configured -/
  backplane : Bool := true
  proc : Billing.Processor
  /- hex SHA-256 -/
  hashSecret : String → String
  /- `base64.StdEncoding` -/
  base64Decode : String → Option Bytes
  base64Encode : Bytes → String
  /- `AddDate(100, 0, 0)` -/
  addCentury : Time → Time := id

structure Reject where
  status : ℕ
  code : String
  deriving DecidableEq

def dropChars (n : ℕ) (s : String) : String := String.ofList (s.toList.drop n)

def newAccountSecret (accountID : String) : Handler String := do
  let id ← newID "s"
  return accountID ++ "." ++ dropChars 2 id

def newPairCredential (pairID : String) : Handler String := do
  let id ← newID "pc"
  return pairID ++ "." ++ dropChars 3 id

def bearer (authorization : String) : String :=
  let cs := authorization.toList
  if 7<cs.length ∧ (cs.take 7).map Char.toLower = "bearer ".toList then
    GoStrings.trimSpace (String.ofList (cs.drop 7))
  else ""

def credentialID (secret : String) : Option String :=
  if secret = "" then none
  else (GoStrings.cut secret '.').bind fun parts => if parts.1 = "" then none else some parts.1

/- The account whose secret was presented; `none` is `errUnauthorized`. -/
def authenticateAccount (s : Service) (authorization : String) : Handler (Option String) := do
  let secret := bearer authorization
  match credentialID secret with
  | none => return none
  | some accountID =>
    match ← store (.getAccount accountID) with
    | .error _ => return none
    | .ok acct =>
      if acct.secretHash = "" then return none
      else if s.hashSecret secret ≠ acct.secretHash then return none
      else return some accountID

def authenticatePair (s : Service) (authorization : String) : Handler (Option PairCredential) := do
  let secret := bearer authorization
  match credentialID secret with
  | none => return none
  | some pairID =>
    match ← store (.getPairCredential pairID) with
    | .error _ => return none
    | .ok cred =>
      if cred.secretHash = "" then return none
      let _ ← now
      if !cred.active then return none
      else if s.hashSecret secret ≠ cred.secretHash then return none
      else return some cred

def authenticateAccountOrPair (s : Service) (authorization : String) :
    Handler (Option (String × Option PairCredential)) := do
  match ← authenticateAccount s authorization with
  | some accountID => return some (accountID,none)
  | none =>
    match ← authenticatePair s authorization with
    | some cred => return some (cred.accountID,some cred)
    | none => return none

def authorizeAdmin (s : Service) (authorization : String) : Bool :=
  s.adminKey != "" && bearer authorization == s.adminKey

structure AccountResp where
  accountID : String
  secret : String
  licenseID : String := ""
  deriving DecidableEq

def openLicenseMaxPairs : ℕ := 1

def provisionOpenLicense (s : Service) (accountID : String) :
    Handler (Except Err (String × String)) := do
  match ← store (.listLicensesByAccount accountID) with
  | .error e => return .error e
  | .ok existing =>
    match existing.find? fun l => l.status == .active with
    | some l => return .ok (l.id,l.subscriptionID)
    | none =>
      let t ← now
      let subID ← newID "sub"
      match ← store (.upsertSubscription
        { id := subID, accountID, status := .active, maxPairs := openLicenseMaxPairs,
          currentPeriodEnd := s.addCentury t, updatedAt := t }) with
      | .error e => return .error e
      | .ok _ =>
        let licID ← newKey
        match ← store (.createLicense
          { id := licID, accountID, subscriptionID := subID, status := .active, createdAt := t }) with
        | .error e => return .error e
        | .ok _ => return .ok (licID,subID)

/- `req` is the account id of the body. -/
def handleCreateAccount (s : Service) (authorization : String) (req : Option String) :
    Handler (Except Reject AccountResp) := do
  if !authorizeAdmin s authorization then return .error ⟨403,"forbidden"⟩
  let accountID := req.getD ""
  if accountID = "" then return .error ⟨400,"bad_request"⟩
  let secret ← newAccountSecret accountID
  let createdAt ← now
  match ← store (.upsertAccount { id := accountID, secretHash := s.hashSecret secret, createdAt }) with
  | .error _ => return .error ⟨500,"store_error"⟩
  | .ok _ =>
    if s.billingEnabled then return .ok { accountID, secret }
    else
      match ← provisionOpenLicense s accountID with
      | .error _ => return .error ⟨500,"store_error"⟩
      | .ok ids => return .ok { accountID, secret, licenseID := ids.1 }

structure DeviceReq where
  role : String
  publicKey : String := ""

def errDeviceLimit : Err := .msg "device limit"

def registeredDevice (accountID : String) (role : Role) (pub : Option Bytes) :
    Handler (Except Err (Option Device)) := do
  let key := pub.getD []
  if key=[] then return .ok none
  match ← store (.findDeviceByAccountRoleKey accountID role key) with
  | .ok existing => return .ok (some existing)
  | .error e => if Err.is .notFound e then return .ok none else return .error e

def registerOrFindDevice (s : Service) (accountID : String) (role : Role) (pub : Option Bytes) :
    Handler (Except Err Device) := do
  match ← registeredDevice accountID role pub with
  | .error e => return .error e
  | .ok (some existing) => return .ok existing
  | .ok none =>
    match ← store (.countDevicesByAccount accountID) with
    | .error e => return .error e
    | .ok count =>
      if s.deviceCap≤count then return .error errDeviceLimit
      let id ← newID "dev"
      let createdAt ← now
      let dev : Device := { id, accountID, role, publicKey := pub, createdAt }
      match ← store (.upsertDevice dev) with
      | .error e => return .error e
      | .ok _ => return .ok dev

/- The decoded key of a body: nil where the field is empty. -/
def decodeKey (s : Service) (text : String) : Option (Option Bytes) :=
  if text = "" then some none else (s.base64Decode text).map some

def handleRegisterDevice (s : Service) (authorization : String) (req : Option DeviceReq) :
    Handler (Except Reject String) := do
  match ← authenticateAccount s authorization with
  | none => return .error ⟨401,"unauthorized"⟩
  | some accountID =>
    match req with
    | none => return .error ⟨400,"bad_request"⟩
    | some req =>
      match Role.valid req.role with
      | none => return .error ⟨400,"bad_role"⟩
      | some role =>
        match decodeKey s req.publicKey with
        | none => return .error ⟨400,"bad_public_key"⟩
        | some pub =>
          match ← registerOrFindDevice s accountID role pub with
          | .ok dev => return .ok dev.id
          | .error e =>
            if Err.is errDeviceLimit e then return .error ⟨409,"device_limit"⟩
            else return .error ⟨500,"store_error"⟩

def licenseIssuable (s : Service) (lic : License) : Handler (License × Bool) := do
  if lic.status≠.active then return (lic,false)
  -- open mode: an active license alone authorizes
  if !s.billingEnabled then return (lic,true)
  match ← store (.getSubscription lic.subscriptionID) with
  | .error _ => return (lic,false)
  | .ok sub =>
    let t ← now
    return (lic,License.issuable (License.evaluate sub t))

def pairingIssuable (s : Service) (pairing : Pairing) : Handler (Option License) := do
  match ← store (.getLicense pairing.licenseID) with
  | .error _ => return none
  | .ok lic =>
    let res ← licenseIssuable s lic
    return if res.2 then some res.1 else none

def deviceForRole (deviceID accountID : String) (role : Role) : Handler (Option Device) := do
  match ← store (.getDevice deviceID) with
  | .error _ => return none
  | .ok dev => return if dev.accountID=accountID ∧ dev.role=role then some dev else none

def Pairing.entry (p : Pairing) : Role → String
  | .mobile => p.mobileDeviceID
  | .desktop => p.desktopDeviceID

def pairingHasDevice (p : Pairing) (dev : Device) : Bool := Pairing.entry p dev.role == dev.id

structure TokenReq where
  deviceID : String
  pairID : String

structure TokenResp where
  token : String
  refreshToken : String
  expiresIn : ℤ
  deriving DecidableEq

def issueTokenPair (s : Service) (accountID : String) (pairing : Pairing) (dev : Device)
    (lic : License) : Handler (Except Reject TokenResp) := do
  match ← mint
    { issuer := s.issuer, audience := s.audience, accountID, pairID := pairing.pairID,
      deviceID := dev.id, role := dev.role, licenseID := lic.id, ttl := s.tokenTTL } with
  | .error _ => return .error ⟨500,"sign_error"⟩
  | .ok jwt =>
    let refreshSecret ← newID "rt"
    let t ← now
    match ← store (.putRefreshToken
      { id := s.hashSecret refreshSecret, deviceID := dev.id, accountID,
        pairID := pairing.pairID, expiresAt := t + s.refreshTTL }) with
    | .error _ => return .error ⟨500,"store_error"⟩
    | .ok _ =>
      return .ok { token := jwt, refreshToken := refreshSecret, expiresIn := s.tokenTTL.tdiv 1000000000 }

def credentialCovers (cred : Option PairCredential) (req : TokenReq) : Bool :=
  match cred with
  | none => true
  | some cred => cred.pairID == req.pairID && cred.mobileDeviceID == req.deviceID

def handleIssueToken (s : Service) (authorization : String) (req : Option TokenReq) :
    Handler (Except Reject TokenResp) := do
  match ← authenticateAccountOrPair s authorization with
  | none => return .error ⟨401,"unauthorized"⟩
  | some (accountID,cred) =>
    match req with
    | none => return .error ⟨400,"bad_request"⟩
    | some req =>
      if req.deviceID = "" ∨ req.pairID = "" then return .error ⟨400,"bad_request"⟩
      if !credentialCovers cred req then return .error ⟨403,"pairing_invalid"⟩
      match ← store (.getPairing req.pairID) with
      | .error _ => return .error ⟨403,"pairing_invalid"⟩
      | .ok pairing =>
        if pairing.accountID≠accountID ∨ pairing.status≠.active then
          return .error ⟨403,"pairing_invalid"⟩
        match ← store (.getDevice req.deviceID) with
        | .error _ => return .error ⟨403,"device_invalid"⟩
        | .ok dev =>
          if dev.accountID≠accountID then return .error ⟨403,"device_invalid"⟩
          if !pairingHasDevice pairing dev then return .error ⟨403,"device_not_in_pairing"⟩
          match ← pairingIssuable s pairing with
          | none => return .error ⟨403,"license_invalid"⟩
          | some lic => issueTokenPair s accountID pairing dev lic

/- `publishRevocation`: a failure is only logged. -/
def publishRevocation (s : Service) (ev : RevocationEvent) : Handler Unit := do
  if s.backplane then
    let _ ← publish ev
    return ()
  else return ()

/- A revoked refresh token was presented again: the device's whole chain is
revoked and its live session cut. -/
def revokeChain (s : Service) (rt : RefreshToken) : Handler Unit := do
  let t ← now
  let _ ← store (.revokeRefreshTokensByDevice rt.deviceID t)
  publishRevocation s { pairID := rt.pairID, accountID := rt.accountID }

def revokeAndReject {α : Type} (rt : RefreshToken) (code : String) : Handler (Except Reject α) := do
  let _ ← store (.revokeRefreshToken rt.id)
  return .error ⟨403,code⟩

/- `secret` is the refresh token of the body. -/
def handleRefreshToken (s : Service) (req : Option String) : Handler (Except Reject TokenResp) := do
  let secret := req.getD ""
  if secret = "" then return .error ⟨400,"bad_request"⟩
  match ← store (.getRefreshToken (s.hashSecret secret)) with
  | .error _ => return .error ⟨401,"refresh_invalid"⟩
  | .ok rt =>
    let t ← now
    if !rt.active t then
      if rt.revokedAt≠0 then
        revokeChain s rt
        return .error ⟨401,"refresh_invalid"⟩
      else return .error ⟨401,"refresh_invalid"⟩
    else
      match ← store (.getPairing rt.pairID) with
      | .error _ => revokeAndReject rt "pairing_invalid"
      | .ok pairing =>
        if pairing.status≠.active then revokeAndReject rt "pairing_invalid"
        else
          match ← store (.getDevice rt.deviceID) with
          | .error _ => return .error ⟨403,"device_invalid"⟩
          | .ok dev =>
            if dev.accountID≠rt.accountID then return .error ⟨403,"device_invalid"⟩
            else if !pairingHasDevice pairing dev then revokeAndReject rt "device_not_in_pairing"
            else
              match ← pairingIssuable s pairing with
              | none => revokeAndReject rt "license_invalid"
              | some lic =>
                let t ← now
                match ← store (.consumeRefreshToken rt.id t) with
                | .error _ => return .error ⟨401,"refresh_invalid"⟩
                | .ok _ => issueTokenPair s rt.accountID pairing dev lic

inductive WebhookResp
  | ok
  | queued
  | duplicate
  deriving DecidableEq

/- `Processor.Verify`: the event in the body, where the signature is good. -/
def verify (payload : Option Stripe.Event) (signed : Bool) : Option Stripe.Event :=
  if signed then payload else none

theorem verify_eq_some {payload : Option Stripe.Event} {signed : Bool} {ev : Stripe.Event}
    (h : verify payload signed=some ev) : payload=some ev := by
  unfold verify at h
  split at h
  · exact h
  · cases h

/- `payload` is the body as JSON, `signed` whether its signature verifies. -/
def handleWebhook (s : Service) (payload : Option Stripe.Event) (signed : Bool) :
    Handler (Except Reject WebhookResp) := do
  if !s.billingEnabled then return .error ⟨503,"billing_disabled"⟩
  match verify payload signed with
  | none => return .error ⟨400,"bad_signature"⟩
  | some ev =>
    match ← Billing.record ev payload with
    | .error _ => return .error ⟨500,"record_error"⟩
    | .ok false => return .ok .duplicate
    | .ok true =>
      match ← Billing.process s.proc ev with
      | .error _ => return .ok .queued
      | .ok _ => return .ok .ok

end SecureGateway.Auth
