import SecureGateway.Auth.Pairing
import SecureGateway.Lib.Pool

/-!
# Desktop checkout (`checkout.go`)

The nonce of a desktop has a pending claim; the webhook of the paid session binds account,
license and subscription to it; the return page mints a one-time code; the desktop exchanges
code or nonce for credentials. A sweeper deletes expired claims.

`url.Parse`, `url.QueryEscape` and `net.ParseIP` are functions of the service, and Stripe's
answer to `CreateCheckoutSession` comes with the request. Page texts are not modelled.
-/

namespace SecureGateway.Auth
open Authstore Prog

/- What the service uses of a parsed `url.URL`. -/
structure URL where
  scheme : String
  /- `User` is not nil -/
  hasUser : Bool
  host : String
  hostname : String
  /- the text of the URL once a query parameter is set -/
  withQuery : String → String → String

structure CheckoutService extends Service where
  checkoutPriceID : String := ""
  claimTTL : Duration := 0
  parseURL : String → Option URL
  queryEscape : String → String := id
  /- `net.ParseIP` reads an address that is a loopback -/
  isLoopbackIP : String → Bool

structure CheckoutSessionParams where
  priceID : String
  successURL : String
  cancelURL : String
  metadata : List (String × String)

/- What `CreateCheckoutSession` returns. -/
inductive SessionReply
  | session (checkoutURL sessionID : String)
  | notConfigured
  | failed
  deriving DecidableEq

def minNonceLen : ℕ := 22

/- The bytes of a nonce are counted, and it goes into a URL. -/
def badNonce (nonce : String) : Bool :=
  nonce.utf8ByteSize < minNonceLen ||
    nonce.toList.any fun c => [' ','\t','\r','\n','/','?','#'].contains c

def validateLoopbackRedirect (s : CheckoutService) (raw : String) : Bool :=
  match s.parseURL raw with
  | none => false
  | some u =>
    if u.scheme ≠ "http" ∨ u.hasUser ∨ u.host = "" then false
    else u.hostname == "localhost" || s.isLoopbackIP u.hostname

def appendQuery (s : CheckoutService) (raw key value : String) : String :=
  match s.parseURL raw with
  | none => raw
  | some u => u.withQuery key value

/- `strings.TrimRight(s, "/")`. -/
def trimSlashes (s : String) : String :=
  String.ofList (s.toList.reverse.dropWhile (· == '/')).reverse

structure StartCheckoutReq where
  nonce : String
  redirectURI : String
  label : String := ""

structure StartCheckoutResp where
  checkoutURL : String
  expiresIn : ℤ
  deriving DecidableEq

def checkStart (s : CheckoutService) (req : Option StartCheckoutReq) :
    Except Reject StartCheckoutReq :=
  match req with
  | none => .error ⟨400,"bad_request"⟩
  | some req =>
    if badNonce req.nonce then .error ⟨400,"bad_nonce"⟩
    else if !validateLoopbackRedirect s req.redirectURI then .error ⟨400,"bad_redirect"⟩
    else .ok req

def successURL (s : CheckoutService) (nonce : String) : String :=
  trimSlashes s.authURL ++ "/v1/checkout/return?nonce=" ++ s.queryEscape nonce ++
    "&session_id=\x7bCHECKOUT_SESSION_ID\x7d"

def recordRejected (e : Err) : Reject :=
  if Err.is .conflict e then ⟨409,"nonce_in_use"⟩ else ⟨500,"store_error"⟩

def bindOpenClaim (s : CheckoutService) (req : StartCheckoutReq) (accountID licID subID : String) :
    Handler (Except Reject StartCheckoutResp) := do
  match ← store (.markCheckoutClaimReady req.nonce accountID licID subID "") with
  | .error _ => return .error ⟨500,"store_error"⟩
  | .ok _ =>
    let claimCode ← newID "clm"
    match ← store (.setCheckoutClaimCode req.nonce (s.hashSecret claimCode)) with
    | .error _ => return .error ⟨500,"store_error"⟩
    | .ok _ =>
      return .ok
        { checkoutURL := appendQuery s req.redirectURI "claim_code" claimCode,
          expiresIn := s.claimTTL.tdiv 1000000000 }

/- Without Stripe: an account with an open license, and a claim that is ready. -/
def startCheckoutOpen (s : CheckoutService) (req : Option StartCheckoutReq) :
    Handler (Except Reject StartCheckoutResp) := do
  match checkStart s req with
  | .error e => return .error e
  | .ok req =>
    let t ← now
    let accountID ← newID "acct"
    match ← store (.upsertAccount { id := accountID, createdAt := t }) with
    | .error _ => return .error ⟨500,"store_error"⟩
    | .ok _ =>
      match ← provisionOpenLicense s.toService accountID with
      | .error _ => return .error ⟨500,"store_error"⟩
      | .ok (licID,subID) =>
        match ← store (.createCheckoutClaim
          { nonce := req.nonce, redirectURI := req.redirectURI, status := .pending,
            createdAt := t, expiresAt := t + s.claimTTL }) with
        | .error e => return .error (recordRejected e)
        | .ok _ => bindOpenClaim s req accountID licID subID

def handleStartCheckout (s : CheckoutService) (stripe : CheckoutSessionParams → SessionReply)
    (req : Option StartCheckoutReq) : Handler (Except Reject StartCheckoutResp) := do
  if !s.billingEnabled then startCheckoutOpen s req
  else if s.checkoutPriceID = "" then return .error ⟨503,"checkout_unavailable"⟩
  else
    match checkStart s req with
    | .error e => return .error e
    | .ok req =>
      match stripe
        { priceID := s.checkoutPriceID, successURL := successURL s req.nonce,
          cancelURL := appendQuery s req.redirectURI "status" "canceled",
          metadata := [("nonce",req.nonce)] } with
      | .notConfigured => return .error ⟨503,"checkout_unavailable"⟩
      | .failed => return .error ⟨502,"stripe_error"⟩
      | .session checkoutURL sessionID =>
        let t ← now
        match ← store (.createCheckoutClaim
          { nonce := req.nonce, stripeSessionID := sessionID, redirectURI := req.redirectURI,
            status := .pending, createdAt := t, expiresAt := t + s.claimTTL }) with
        | .error e => return .error (recordRejected e)
        | .ok _ => return .ok { checkoutURL, expiresIn := s.claimTTL.tdiv 1000000000 }

inductive ReturnPage
  | activated
  | pending
  | redirect (url : String)
  deriving DecidableEq

def handleCheckoutReturn (s : CheckoutService) (nonce sessionID : String) :
    Handler (Except Reject ReturnPage) := do
  match ← store (.getCheckoutClaim nonce) with
  | .error _ => return .error ⟨404,"unknown or expired checkout"⟩
  | .ok claim =>
    if sessionID ≠ "" ∧ claim.stripeSessionID ≠ "" ∧ sessionID≠claim.stripeSessionID then
      return .error ⟨400,"session mismatch"⟩
    if claim.status=.consumed then return .ok .activated
    let t ← now
    if claim.expiresAt<t then return .error ⟨410,"checkout expired"⟩
    if claim.status=.pending then return .ok .pending
    let claimCode ← newID "clm"
    match ← store (.setCheckoutClaimCode nonce (s.hashSecret claimCode)) with
    | .error _ => return .error ⟨500,"could not finalize checkout"⟩
    | .ok _ => return .ok (.redirect (appendQuery s claim.redirectURI "claim_code" claimCode))

structure ClaimReq where
  claimCode : String := ""
  nonce : String := ""

structure ClaimResp where
  accountID : String
  accountSecret : String
  licenseID : String
  subscriptionID : String
  deriving DecidableEq

/- What is answered without an error: 202 while the webhook has not landed, or 200. -/
inductive ClaimAnswer
  | pending
  | claimed (resp : ClaimResp)
  deriving DecidableEq

def handOut (s : CheckoutService) (consumed : CheckoutClaim) :
    Handler (Except Reject ClaimAnswer) := do
  let secret ← newAccountSecret consumed.accountID
  match ← store (.upsertAccount
    { id := consumed.accountID, secretHash := s.hashSecret secret, createdAt := 0 }) with
  | .error _ => return .error ⟨500,"store_error"⟩
  | .ok _ =>
    return .ok (.claimed
      { accountID := consumed.accountID, accountSecret := secret,
        licenseID := consumed.licenseID, subscriptionID := consumed.subscriptionID })

def findClaim (s : CheckoutService) (req : ClaimReq) : Handler (Except Err CheckoutClaim) :=
  if req.claimCode ≠ "" then store (.getCheckoutClaimByCode (s.hashSecret req.claimCode))
  else store (.getCheckoutClaim req.nonce)

def handleClaimAccount (s : CheckoutService) (req : Option ClaimReq) :
    Handler (Except Reject ClaimAnswer) := do
  match req with
  | none => return .error ⟨400,"bad_request"⟩
  | some req =>
    if req.claimCode = "" ∧ req.nonce = "" then return .error ⟨400,"bad_request"⟩
    match ← findClaim s req with
    | .error _ => return .error ⟨404,"claim_not_found"⟩
    | .ok claim =>
      if claim.status=.consumed then return .error ⟨409,"claim_consumed"⟩
      let t ← now
      if claim.expiresAt<t then return .error ⟨410,"claim_expired"⟩
      if claim.status=.pending then return .ok .pending
      let consumedAt ← now
      match ← store (.consumeCheckoutClaim claim.nonce consumedAt) with
      | .error e =>
        if Err.is .conflict e then return .error ⟨409,"claim_consumed"⟩
        else return .error ⟨500,"store_error"⟩
      | .ok consumed => handOut s consumed

/- The sweeper of `main.go`. -/
def sweepClaims : Handler Unit := do
  let t ← now
  let _ ← store (.deleteExpiredCheckoutClaims t)
  return ()

/- The checkout endpoints, Stripe's webhooks with their retries, and the sweeper. -/
inductive CheckoutActivity
  | startCheckout (stripe : CheckoutSessionParams → SessionReply) (req : Option StartCheckoutReq)
  | checkoutReturn (nonce sessionID : String)
  | claimAccount (req : Option ClaimReq)
  | webhook (payload : Option Stripe.Event) (signed : Bool)
  | retryFailed (limit : ℕ)
  | sweepClaims

def handleCheckout (s : CheckoutService) : CheckoutActivity → Handler Unit
  | .startCheckout stripe req => ignore (handleStartCheckout s stripe req)
  | .checkoutReturn nonce sessionID => ignore (handleCheckoutReturn s nonce sessionID)
  | .claimAccount req => ignore (handleClaimAccount s req)
  | .webhook payload signed => ignore (handleWebhook s.toService payload signed)
  | .retryFailed limit => ignore (Billing.retryFailed s.proc limit)
  | .sweepClaims => sweepClaims

end SecureGateway.Auth
