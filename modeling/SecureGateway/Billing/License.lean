import SecureGateway.Auth.Store

/-!
# License rules

`internal/license/license.go`: the behavior of a license derived from its
mirrored subscription, and which behaviors issue tokens or cut sessions.
-/

namespace SecureGateway.License
open Authstore

inductive Behavior
  | valid
  | grace
  | revoked
  | suspended
  deriving DecidableEq

/- Unknown statuses fail closed. -/
def evaluate (sub : Subscription) (now : Time) : Behavior :=
  match sub.status with
  | .trialing | .active => .valid
  | .pastDue => if sub.graceUntil=0 ∨ now<sub.graceUntil then .grace else .revoked
  | .paused => .suspended
  | .canceled | .unpaid | .incompleteExpired => .revoked
  | .other _ => .revoked

def issuable (b : Behavior) : Bool := b == .valid || b == .grace

def enforced (b : Behavior) : Bool := b == .revoked || b == .suspended

/-- The statuses under which no license is honoured at any time. -/
def lapsed : SubStatus → Bool
  | .trialing | .active | .pastDue => false
  | .canceled | .unpaid | .incompleteExpired | .paused | .other _ => true

theorem not_issuable_of_lapsed (sub : Subscription) (now : Time) (h : lapsed sub.status=true) :
    issuable (evaluate sub now)=false := by
  cases hs : sub.status <;> simp_all [lapsed,evaluate,issuable]

theorem not_issuable_of_past_deadline (sub : Subscription) (now : Time) (hs : sub.status=.pastDue)
    (hset : sub.graceUntil≠0) (hpast : sub.graceUntil≤now) : issuable (evaluate sub now)=false := by
  have hout : ¬ (sub.graceUntil=0 ∨ now<sub.graceUntil) := not_or.2 ⟨hset,Int.not_lt.2 hpast⟩
  simp [evaluate,hs,hout,issuable]

end SecureGateway.License
