import SecureGateway.Role
import Mathlib.Data.Nat.Notation

/-!
# Verification of connection tokens (`token/verify.go`)

`Verify` hands the token to the JWT library, a parameter, and checks the claims of its own
afterwards. What the library parses may depend on the clock and the keys, and what it accepts
has an expiry. A token that passes is a `Claims`, which carries what `validateCustomClaims`
has checked.
-/

namespace SecureGateway.Relay.Token

inductive Reason
  | missingToken
  | malformed
  | badSignature
  | expired
  | notYetValid
  | wrongAudience
  | wrongIssuer
  | missingClaim
  | badRole
  | unknownKey
  deriving DecidableEq, Repr

def Reason.string : Reason → String
  | missingToken => "missing_token"
  | malformed => "malformed_token"
  | badSignature => "bad_signature"
  | expired => "expired"
  | notYetValid => "not_yet_valid"
  | wrongAudience => "wrong_audience"
  | wrongIssuer => "wrong_issuer"
  | missingClaim => "missing_claim"
  | badRole => "bad_role"
  | unknownKey => "unknown_key"

structure AuthError where
  reason : Reason
  httpStatus : ℕ
  deriving DecidableEq, Repr

def unauthorized (reason : Reason) : AuthError := ⟨reason,401⟩

def forbidden (reason : Reason) : AuthError := ⟨reason,403⟩

inductive JwtError
  | expired
  | notValidYet
  | invalidAudience
  | invalidIssuer
  | signatureInvalid
  | unknownKey
  | malformed
  | unverifiable
  deriving DecidableEq, Repr

/- An error of the library may join several, so the order of the cases matters. -/
def classify (err : List JwtError) : AuthError :=
  if .expired ∈ err then unauthorized .expired
  else if .notValidYet ∈ err then unauthorized .notYetValid
  else if .invalidAudience ∈ err then forbidden .wrongAudience
  else if .invalidIssuer ∈ err then forbidden .wrongIssuer
  else if .signatureInvalid ∈ err then unauthorized .badSignature
  else if .unknownKey ∈ err then unauthorized .unknownKey
  else unauthorized .malformed

/- The claims as they are parsed; `expiresAt` in seconds. -/
structure Parsed where
  expiresAt : Option Int
  accountID : String
  pairID : String
  deviceID : String
  role : String
  licenseID : String
  deriving DecidableEq, Repr

structure Claims where
  expiresAt : Option Int
  accountID : String
  pairID : String
  deviceID : String
  role : Role
  licenseID : String
  named : accountID ≠ "" ∧ pairID ≠ "" ∧ deviceID ≠ "" ∧ licenseID ≠ ""

def validateCustomClaims (c : Parsed) : Except AuthError Claims :=
  if ha : c.accountID = "" then .error (forbidden .missingClaim)
  else if hp : c.pairID = "" then .error (forbidden .missingClaim)
  else if hd : c.deviceID = "" then .error (forbidden .missingClaim)
  else if hl : c.licenseID = "" then .error (forbidden .missingClaim)
  else
    match Role.valid c.role with
    | none => .error (forbidden .badRole)
    | some role =>
      .ok
        { expiresAt := c.expiresAt, accountID := c.accountID, pairID := c.pairID
          deviceID := c.deviceID, role, licenseID := c.licenseID, named := ⟨ha,hp,hd,hl⟩ }

/-- `jwt.Parser` with the key source: the claims and `tok.Valid`, or an error. `Env` is
what the answer depends on besides the token. -/
structure Verifier (Env : Type) where
  parse : Env → String → Except (List JwtError) (Parsed × Bool)
  expires : ∀ env raw c valid, parse env raw = .ok (c,valid) → c.expiresAt≠none

def Verifier.verify {Env : Type} (v : Verifier Env) (env : Env) (rawToken : String) :
    Except AuthError Claims :=
  if rawToken = "" then .error (unauthorized .missingToken)
  else
    match v.parse env rawToken with
    | .error err => .error (classify err)
    | .ok (c,valid) =>
      if !valid then .error (unauthorized .badSignature) else validateCustomClaims c

def Claims.identity (c : Claims) : String × String × String × Role :=
  (c.accountID,c.pairID,c.deviceID,c.role)

theorem validateCustomClaims_expiresAt {c : Parsed} {claims : Claims}
    (h : validateCustomClaims c = .ok claims) : claims.expiresAt=c.expiresAt := by
  unfold validateCustomClaims at h
  split at h
  · cases h
  split at h
  · cases h
  split at h
  · cases h
  split at h
  · cases h
  split at h
  · cases h
  · cases h
    rfl

theorem Verifier.expiresAt_of_verify {Env : Type} {v : Verifier Env} {env : Env}
    {rawToken : String} {claims : Claims} (h : v.verify env rawToken = .ok claims) :
    ∃ exp,claims.expiresAt=some exp := by
  unfold verify at h
  split at h
  · cases h
  split at h
  · cases h
  next c valid hparse =>
  split at h
  · cases h
  · rw [validateCustomClaims_expiresAt h]
    exact Option.ne_none_iff_exists'.1 (v.expires env rawToken c valid hparse)

end SecureGateway.Relay.Token
