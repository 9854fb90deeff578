import SecureGateway.Auth.Calls

/-!
# The billing processor

`stripe.go` and `reconcile.go`. A loop of the source that may return early is a recursion
over what is left of it. Logging and metrics are left out; the Stripe API is taken to be
wired.
-/

namespace SecureGateway.Billing
open Authstore Auth
open Stripe (customerIDOf subscriptionIDOf maxPairsFor currentPeriodEnd firstItemID)

def maxAttempts : ℤ := 5

structure Processor where
  grace : Duration

def resolveAccount (customerID : String) : Handler (Except Err String) := do
  if customerID = "" then return .error (.msg "event has no customer")
  match ← store (.getAccountByCustomer customerID) with
  | .ok acct => return .ok acct.id
  | .error _ =>
    let id ← newID "acct"
    let createdAt ← now
    match ← store (.upsertAccount { id, stripeCustomerID := customerID, createdAt }) with
    | .ok _ => return .ok id
    | .error e => return .error e

/- The loop of `ensureLicenses`, with so many licenses still to create. -/
def provision (mirror : Subscription) (itemID : String) : ℕ → Handler (Except Err Unit)
  | 0 => return .ok ()
  | missing + 1 => do
    let id ← newKey
    let createdAt ← now
    match ← store (.createLicense
      { id, accountID := mirror.accountID, subscriptionID := mirror.id,
        subscriptionItemID := itemID, status := .active, createdAt }) with
    | .ok _ => provision mirror itemID missing
    | .error e => return .error (.wrap "provision license" e)

def ensureLicenses (mirror : Subscription) (sub : Stripe.Subscription) :
    Handler (Except Err Unit) := do
  match ← store (.listLicensesBySubscription mirror.id) with
  | .ok existing => provision mirror (firstItemID sub) (mirror.maxPairs - existing.length)
  | .error e => return .error e

def whenRevoked (behavior : License.Behavior) (op : StoreOp) : Handler (Except Err Unit) := do
  if behavior=.revoked then
    match ← store op with
    | .ok _ => return .ok ()
    | .error e => return .error e
  else return .ok ()

/- The inner loop of `enforce`, over the pairings still to be cut. -/
def enforcePairings (behavior : License.Behavior) : List Pairing → Handler (Except Err Unit)
  | [] => return .ok ()
  | pr :: pairs => do
    match ← whenRevoked behavior (.setPairingStatus pr.pairID .revoked) with
    | .error e => return .error e
    | .ok _ =>
      match ← publish { pairID := pr.pairID } with
      | .error e => return .error (.wrap ("publish revocation for " ++ pr.pairID) e)
      | .ok _ => enforcePairings behavior pairs

/- The outer loop of `enforce`, over the licenses still to be enforced. -/
def enforceLicenses (behavior : License.Behavior) : List License → Handler (Except Err Unit)
  | [] => return .ok ()
  | l :: licenses => do
    match ← whenRevoked behavior (.setLicenseStatus l.id .revoked) with
    | .error e => return .error e
    | .ok _ =>
      match ← store (.listActivePairingsByLicense l.id) with
      | .error e => return .error e
      | .ok pairs =>
        match ← enforcePairings behavior pairs with
        | .error e => return .error e
        | .ok _ => enforceLicenses behavior licenses

def enforce (subID : String) (behavior : License.Behavior) : Handler (Except Err Unit) := do
  match ← store (.listLicensesBySubscription subID) with
  | .ok licenses => enforceLicenses behavior licenses
  | .error e => return .error e

/- The loop of `reactivate`. -/
def reactivateLicenses : List License → Handler (Except Err Unit)
  | [] => return .ok ()
  | l :: licenses =>
    if l.status≠.active then do
      match ← store (.setLicenseStatus l.id .active) with
      | .ok _ => reactivateLicenses licenses
      | .error e => return .error e
    else reactivateLicenses licenses

def reactivate (subID : String) : Handler (Except Err Unit) := do
  match ← store (.listLicensesBySubscription subID) with
  | .ok licenses => reactivateLicenses licenses
  | .error e => return .error e

/- The mirror `syncSubscription` writes at `now`, where `existing` is the grace
deadline already recorded. -/
def mirrorOf (p : Processor) (sub : Stripe.Subscription) (accountID : String) (now existing : Time) :
    Subscription where
  id := sub.id
  accountID := accountID
  status := sub.status
  maxPairs := maxPairsFor sub
  currentPeriodEnd := currentPeriodEnd sub
  graceUntil :=
    if sub.status=.pastDue then (if existing=0 then now + p.grace else existing) else 0
  updatedAt := now

def syncSubscription (p : Processor) (sub : Stripe.Subscription) (accountID : String) :
    Handler (Except Err Unit) := do
  let t ← now
  let existing ← store (.getSubscription sub.id)
  let mirror := mirrorOf p sub accountID t (match existing with | .ok m => m.graceUntil | .error _ => 0)
  match ← store (.upsertSubscription mirror) with
  | .error e => return .error e
  | .ok _ =>
    match ← ensureLicenses mirror sub with
    | .error e => return .error e
    | .ok _ =>
      let behavior := License.evaluate mirror t
      if License.enforced behavior then enforce sub.id behavior else reactivate sub.id

def checkoutAccount (cs : Stripe.CheckoutSession) (customerID : String) :
    Handler (Except Err String) :=
  if cs.clientReferenceID ≠ "" then return .ok cs.clientReferenceID
  else do
    match ← resolveAccount customerID with
    | .ok accountID => return .ok accountID
    | .error e => return .error (.wrap ("resolve account for checkout " ++ cs.id) e)

def claimedLicense (subID : String) : Handler String := do
  match ← store (.listLicensesBySubscription subID) with
  | .ok (l::_) => return l.id
  | _ => return ""

def bindClaim (cs : Stripe.CheckoutSession) (accountID subID : String) :
    Handler (Except Err Unit) := do
  let nonce := (cs.metadata.lookup "nonce").getD ""
  if nonce = "" then return .ok ()
  let licenseID ← claimedLicense subID
  match ← store (.markCheckoutClaimReady nonce accountID licenseID subID cs.id) with
  | .ok _ => return .ok ()
  | .error e => return .error (.wrap "bind checkout claim" e)

def handleCheckoutCompleted (p : Processor) : Option Stripe.CheckoutSession →
    Handler (Except Err Unit)
  | none => return .error (.msg "parse checkout session")
  | some cs => do
    let customerID := customerIDOf cs.customer
    if customerID = "" then
      return .error (.msg ("checkout session " ++ cs.id ++ " has no customer"))
    match ← checkoutAccount cs customerID with
    | .error e => return .error e
    | .ok accountID =>
      let createdAt ← now
      match ← store (.upsertAccount { id := accountID, stripeCustomerID := customerID, createdAt }) with
      | .error e => return .error (.wrap "link account" e)
      | .ok _ =>
        let subID := subscriptionIDOf cs.subscription
        if subID = "" then
          return .error (.msg ("checkout session " ++ cs.id ++ " has no subscription"))
        match ← stripeGetSubscription subID with
        | .error e => return .error (.wrap ("fetch subscription " ++ subID) e)
        | .ok sub =>
          match ← syncSubscription p sub accountID with
          | .error e => return .error e
          | .ok _ => bindClaim cs accountID subID

def handleSubscriptionUpsert (p : Processor) : Option Stripe.Subscription →
    Handler (Except Err Unit)
  | none => return .error (.msg "parse subscription")
  | some sub => do
    match ← resolveAccount (customerIDOf sub.customer) with
    | .error e => return .error e
    | .ok accountID => syncSubscription p sub accountID

def handleSubscriptionDeleted : Option Stripe.Subscription → Handler (Except Err Unit)
  | none => return .error (.msg "parse subscription")
  | some sub => do
    match ← resolveAccount (customerIDOf sub.customer) with
    | .error e => return .error e
    | .ok accountID =>
      let updatedAt ← now
      match ← store (.upsertSubscription
        { id := sub.id, accountID, status := .canceled, maxPairs := maxPairsFor sub, updatedAt }) with
      | .error e => return .error e
      | .ok _ => enforce sub.id .revoked

def invoiceSubscriptionID : Option Stripe.Invoice → Except Err String
  | none => .error (.msg "parse invoice")
  | some inv =>
    match inv.subscription with
    | none => .error (.msg ("invoice " ++ inv.id ++ " has no subscription parent"))
    | some id =>
      if id = "" then .error (.msg ("invoice " ++ inv.id ++ " subscription id empty")) else .ok id

def graceDeadline (p : Processor) (mirror : Subscription) : Handler Time :=
  if mirror.graceUntil=0 then do
    let t ← now
    return t + p.grace
  else return mirror.graceUntil

def handleInvoicePaymentFailed (p : Processor) (inv : Option Stripe.Invoice) :
    Handler (Except Err Unit) := do
  match invoiceSubscriptionID inv with
  | .error e => return .error e
  | .ok subID =>
    match ← store (.getSubscription subID) with
    | .error e =>
      return .error (.wrap ("invoice.payment_failed for unknown subscription " ++ subID) e)
    | .ok mirror =>
      let graceUntil ← graceDeadline p mirror
      let updatedAt ← now
      match ← store (.upsertSubscription
        { mirror with status := .pastDue, graceUntil, updatedAt }) with
      | .error e => return .error e
      | .ok _ => return .ok ()

def handleInvoicePaid (inv : Option Stripe.Invoice) : Handler (Except Err Unit) := do
  match invoiceSubscriptionID inv with
  | .error e => return .error e
  | .ok subID =>
    match ← store (.getSubscription subID) with
    | .error _ => return .ok ()
    | .ok mirror =>
      let status := if mirror.status=.pastDue then .active else mirror.status
      let updatedAt ← now
      match ← store (.upsertSubscription { mirror with status, graceUntil := 0, updatedAt }) with
      | .error e => return .error e
      | .ok _ => reactivate subID

def dispatch (p : Processor) (ev : Stripe.Event) : Handler (Except Err Unit) :=
  match ev.data with
  | .checkoutSessionCompleted cs => handleCheckoutCompleted p cs
  | .customerSubscriptionCreated sub | .customerSubscriptionUpdated sub =>
    handleSubscriptionUpsert p sub
  | .customerSubscriptionDeleted sub => handleSubscriptionDeleted sub
  | .invoicePaymentFailed inv => handleInvoicePaymentFailed p inv
  | .invoicePaid inv => handleInvoicePaid inv
  | .other _ => return .ok ()

/- `payload` is the request body the event was parsed from. -/
def record (ev : Stripe.Event) (payload : Option Stripe.Event) : Handler (Except Err Bool) := do
  let receivedAt ← now
  store (.insertWebhookEventIfAbsent
    { id := ev.id, type := ev.data.type, status := .pending, payload, receivedAt })

def process (p : Processor) (ev : Stripe.Event) : Handler (Except Err Unit) := do
  match ← dispatch p ev with
  | .error e =>
    dispatched ev.id false
    let _ ← store (.setWebhookStatus ev.id .failed 1 0)
    return .error e
  | .ok _ =>
    dispatched ev.id true
    let t ← now
    match ← store (.setWebhookStatus ev.id .processed 0 t) with
    | .error e => return .error e
    | .ok _ => return .ok ()

def retryEvent (p : Processor) (e : WebhookEvent) : Handler (ℕ × ℕ) := do
  match e.payload with
  | none =>
    let t ← now
    let _ ← store (.setWebhookStatus e.id .dead e.attempts t)
    return (0,1)
  | some ev =>
    match ← dispatch p ev with
    | .error _ =>
      dispatched e.id false
      let attempts := e.attempts + 1
      let status : WebhookStatus := if maxAttempts≤attempts then .dead else .failed
      let _ ← store (.setWebhookStatus e.id status attempts 0)
      return (0,if maxAttempts≤attempts then 1 else 0)
    | .ok _ =>
      dispatched e.id true
      let t ← now
      let _ ← store (.setWebhookStatus e.id .processed 0 t)
      return (1,0)

/- The loop of `RetryFailed`. -/
def retryEvents (p : Processor) : List WebhookEvent → Handler (ℕ × ℕ)
  | [] => return (0,0)
  | e :: events => do
    let one ← retryEvent p e
    let rest ← retryEvents p events
    return (one.1 + rest.1,one.2 + rest.2)

def retryFailed (p : Processor) (limit : ℕ) : Handler (Except Err (ℕ × ℕ)) := do
  match ← store (.listWebhookEventsByStatus .failed limit) with
  | .error e => return .error e
  | .ok events =>
    let counts ← retryEvents p events
    return .ok counts

def reconcileOne (p : Processor) (sub : Stripe.Subscription) : Handler (Except Err Unit) := do
  match ← resolveAccount (customerIDOf sub.customer) with
  | .error e => return .error e
  | .ok accountID => syncSubscription p sub accountID

/- The loop of `Reconcile`, which goes on after an error and returns the first. -/
def reconcileAll (p : Processor) : List Stripe.Subscription → Handler (Except Err Unit)
  | [] => return .ok ()
  | sub :: subs => do
    let one ← reconcileOne p sub
    let rest ← reconcileAll p subs
    match one with
    | .error e => return .error e
    | .ok _ => return rest

def reconcile (p : Processor) : Handler (Except Err Unit) := do
  match ← stripeListSubscriptions with
  | .error e => return .error (.wrap "reconcile list subscriptions" e)
  | .ok subs => reconcileAll p subs

end SecureGateway.Billing
