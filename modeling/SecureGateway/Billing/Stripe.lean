import SecureGateway.Lib.GoStrings

/-!
# Stripe objects

The parts of a Stripe event that the billing processor reads, and the accessors of
`extract.go`, with `MaxPairs` of `license.go`. A pointer of the source is an `Option`; an
id-only reference is its id.
-/

namespace SecureGateway

/- `time.Time` in nanoseconds, `0` being Go's zero time, and `time.Duration`. -/
abbrev Time := ℤ
abbrev Duration := ℤ

/- `time.Unix(sec, 0)`: the epoch is 62135596800 s after the zero time. -/
def Time.unix (sec : ℤ) : Time := (sec + 62135596800) * 1000000000

inductive SubStatus
  | trialing | active | pastDue | canceled | unpaid | incompleteExpired | paused
  | other (raw : String)
  deriving DecidableEq

namespace Stripe

abbrev Metadata := List (String × String)

structure SubscriptionItem where
  id : String
  currentPeriodEnd : ℤ := 0
  price : Option Metadata := none
  deriving DecidableEq

structure Subscription where
  id : String
  customer : Option String
  status : SubStatus
  items : List (Option SubscriptionItem) := []
  metadata : Metadata := []
  deriving DecidableEq

structure CheckoutSession where
  id : String
  customer : Option String
  clientReferenceID : String := ""
  subscription : Option String
  metadata : Metadata := []
  deriving DecidableEq

/- `subscription` is `parent.subscription_details.subscription`, absent when any
pointer on that path is. -/
structure Invoice where
  id : String
  subscription : Option String
  deriving DecidableEq

/- The type of an event with the object its `data.raw` parses to, `none` where
it does not parse. -/
inductive EventData
  | checkoutSessionCompleted (cs : Option CheckoutSession)
  | customerSubscriptionCreated (sub : Option Subscription)
  | customerSubscriptionUpdated (sub : Option Subscription)
  | customerSubscriptionDeleted (sub : Option Subscription)
  | invoicePaymentFailed (inv : Option Invoice)
  | invoicePaid (inv : Option Invoice)
  | other (type : String)
  deriving DecidableEq

def EventData.type : EventData → String
  | checkoutSessionCompleted _ => "checkout.session.completed"
  | customerSubscriptionCreated _ => "customer.subscription.created"
  | customerSubscriptionUpdated _ => "customer.subscription.updated"
  | customerSubscriptionDeleted _ => "customer.subscription.deleted"
  | invoicePaymentFailed _ => "invoice.payment_failed"
  | invoicePaid _ => "invoice.paid"
  | other type => type

structure Event where
  id : String
  data : EventData
  deriving DecidableEq

def customerIDOf (c : Option String) : String := c.getD ""

def subscriptionIDOf (s : Option String) : String := s.getD ""

/- `license.MaxPairs`. -/
def maxPairs (metadata : Metadata) : ℕ :=
  match metadata.lookup "max_pairs" with
  | some v =>
    match GoStrings.atoi (GoStrings.trimSpace v) with
    | some n => if 1≤n then n.toNat else 1
    | none => 1
  | none => 1

theorem one_le_maxPairs (metadata : Metadata) : 1 ≤ maxPairs metadata := by
  simp only [maxPairs]
  split
  · split
    · split
      · omega
      · exact Nat.le_refl 1
    · exact Nat.le_refl 1
  · exact Nat.le_refl 1

def pricedMaxPairs (it : Option SubscriptionItem) : Option Metadata :=
  it.bind fun it => it.price.bind fun m => if (m.lookup "max_pairs").isSome then some m else none

def maxPairsFor (sub : Subscription) : ℕ :=
  match sub.items.findSome? pricedMaxPairs with
  | some m => maxPairs m
  | none => maxPairs sub.metadata

theorem one_le_maxPairsFor (sub : Subscription) : 1 ≤ maxPairsFor sub := by
  simp only [maxPairsFor]
  split <;> exact one_le_maxPairs _

def currentPeriodEnd (sub : Subscription) : Time :=
  match sub.items.findSome? fun it =>
      it.bind fun it => if 0 < it.currentPeriodEnd then some it.currentPeriodEnd else none with
  | some sec => Time.unix sec
  | none => 0

def firstItemID (sub : Subscription) : String :=
  (sub.items.findSome? fun it => it.bind fun it => if it.id ≠ "" then some it.id else none).getD ""

end Stripe
end SecureGateway
