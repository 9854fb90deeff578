import Mathlib.Logic.Basic

/-!
# Device roles

The two ends of a pair (`token.Role` of the relay and the auth service, `Role`
of the SDK). A pair has one slot for each role.
-/

namespace SecureGateway

inductive Role
  | mobile
  | desktop
  deriving DecidableEq, Repr

namespace Role

/- The string in tokens, slot keys and JSON bodies. -/
def wire : Role → String
  | mobile => "mobile"
  | desktop => "desktop"

/- `token.Role(r)` where it is `Valid`. -/
def valid (r : String) : Option Role :=
  if r = "mobile" then some .mobile else if r = "desktop" then some .desktop else none

/- `Key.Peer`: the other slot of the pair. -/
def peer : Role → Role
  | mobile => desktop
  | desktop => mobile

@[simp] theorem peer_peer (r : Role) : r.peer.peer=r := by cases r <;> rfl

@[simp] theorem peer_ne (r : Role) : r.peer≠r := by cases r <;> simp [peer]

theorem eq_or_eq_peer (r r' : Role) : r'=r ∨ r'=r.peer := by cases r <;> cases r' <;> simp [peer]

end Role
end SecureGateway
