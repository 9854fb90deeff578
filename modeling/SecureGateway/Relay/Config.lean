import Mathlib.Tactic.Common

/-!
# The relay's configuration (`config.go`)

`validate` collects the complaints about a configuration; the relay starts only
without any. Durations are in nanoseconds and 64 bits wide, so twice a duration
wraps. Formatting and `net.SplitHostPort` belong to the Go library and are given.
-/

namespace SecureGateway

def millisecond : Int := 1000000
def second : Int := 1000000000
def minute : Int := 60000000000

namespace Relay

/- What `validate` reads, and `PongTimeout`, which it does not. -/
structure Config where
  listenAddr : String := ":8443"
  metricsAddr : String := ""
  tlsCertFile : String := ""
  tlsKeyFile : String := ""
  tlsMinVersion : String := "1.2"
  jwtIssuer : String := ""
  jwtAlgs : List String := ["ES256","EdDSA"]
  jwksURL : String := ""
  jwtPublicKeyFile : String := ""
  maxMessageBytes : Int64 := 262144
  pingInterval : Int64 := 25000000000
  pongTimeout : Int64 := 25000000000
  outQueueSize : Int64 := 64
  slotTTL : Int64 := 60000000000
  backplane : String := "memory"
  redisAddr : String := ""
  rateLimitEnabled : Bool := true
  rateLimitIPPerMin : Int64 := 120
  rateLimitIPBurst : Int64 := 60
  logLevel : String := "info"
  logFormat : String := "json"

/- `%q`, `%s` of a duration, and the error of `net.SplitHostPort` if it fails. -/
structure GoLibrary where
  quoted : String → String
  durationString : Int64 → String
  splitHostPort : String → Option String

namespace Config

def complaint (wrong : Bool) (text : String) : List String := if wrong then [text] else []

def validateJWT (go : GoLibrary) (c : Config) : List String :=
  complaint (c.jwtIssuer == "") "RELAY_JWT_ISSUER is required" ++
  complaint (c.jwksURL == "" && c.jwtPublicKeyFile == "")
    "one of RELAY_JWKS_URL or RELAY_JWT_PUBLIC_KEY_FILE is required" ++
  complaint (c.jwksURL != "" && c.jwtPublicKeyFile != "")
    "RELAY_JWKS_URL and RELAY_JWT_PUBLIC_KEY_FILE are mutually exclusive" ++
  complaint c.jwtAlgs.isEmpty "RELAY_JWT_ALGS must list at least one algorithm" ++
  c.jwtAlgs.flatMap fun a =>
    complaint (!(["ES256","ES384","ES512","EdDSA"].contains a))
      ("RELAY_JWT_ALGS: unsupported or insecure algorithm " ++ go.quoted a ++ " (asymmetric only)")

def validateTLS (go : GoLibrary) (c : Config) : List String :=
  complaint ((c.tlsCertFile == "") != (c.tlsKeyFile == ""))
    "RELAY_TLS_CERT_FILE and RELAY_TLS_KEY_FILE must be set together" ++
  complaint (!(["1.2","1.3"].contains c.tlsMinVersion))
    ("RELAY_TLS_MIN_VERSION must be 1.2 or 1.3, got " ++ go.quoted c.tlsMinVersion)

def validateBackplane (go : GoLibrary) (c : Config) : List String :=
  if c.backplane = "memory" then []
  else if c.backplane = "redis" then
    complaint (c.redisAddr == "") "RELAY_REDIS_ADDR is required when RELAY_BACKPLANE=redis"
  else ["RELAY_BACKPLANE must be memory or redis, got " ++ go.quoted c.backplane]

/- The slot has to outlive a missed heartbeat. -/
def validateSession (go : GoLibrary) (c : Config) : List String :=
  complaint (c.maxMessageBytes≤0) "RELAY_MAX_MESSAGE_BYTES must be positive" ++
  complaint (c.outQueueSize≤0) "RELAY_OUT_QUEUE_SIZE must be positive" ++
  complaint (c.pingInterval≤0) "RELAY_PING_INTERVAL must be positive" ++
  complaint (c.slotTTL ≤ 2 * c.pingInterval)
    ("RELAY_SLOT_TTL (" ++ go.durationString c.slotTTL ++ ") must exceed 2x RELAY_PING_INTERVAL (" ++
      go.durationString c.pingInterval ++ ")")

def validateRateLimit (c : Config) : List String :=
  complaint (c.rateLimitEnabled && (c.rateLimitIPPerMin ≤ 0 || c.rateLimitIPBurst ≤ 0))
    ("RELAY_RATELIMIT_IP_PER_MIN and RELAY_RATELIMIT_IP_BURST must be positive " ++
      "when RELAY_RATELIMIT_ENABLED=true")

def validateMetrics (go : GoLibrary) (c : Config) : List String :=
  if c.metricsAddr = "" then []
  else
    (match go.splitHostPort c.metricsAddr with
      | some err =>
        ["RELAY_METRICS_ADDR " ++ go.quoted c.metricsAddr ++ " is not a valid host:port: " ++ err]
      | none => []) ++
    complaint (c.metricsAddr == c.listenAddr) "RELAY_METRICS_ADDR must differ from RELAY_LISTEN_ADDR"

def validateLog (go : GoLibrary) (c : Config) : List String :=
  complaint (!(["debug","info","warn","error"].contains c.logLevel))
    ("RELAY_LOG_LEVEL must be debug|info|warn|error, got " ++ go.quoted c.logLevel) ++
  complaint (!(["json","text"].contains c.logFormat))
    ("RELAY_LOG_FORMAT must be json|text, got " ++ go.quoted c.logFormat)

/- The joined errors; none of them is nil in the source. -/
def validate (go : GoLibrary) (c : Config) : List String :=
  c.validateJWT go ++ c.validateTLS go ++ c.validateBackplane go ++ c.validateSession go ++
    c.validateRateLimit ++ c.validateMetrics go ++ c.validateLog go

theorem complaint_eq_nil {wrong : Bool} {text : String} :
    complaint wrong text = [] ↔ wrong=false := by
  cases wrong <;> simp [complaint]

theorem pingInterval_of_validate {go : GoLibrary} {c : Config} (h : c.validate go = []) :
    0<c.pingInterval := by
  simp only [validate,validateSession,List.append_eq_nil_iff,complaint_eq_nil,
    decide_eq_false_iff_not] at h
  obtain ⟨⟨⟨⟨-,⟨⟨-,-⟩,hping⟩,-⟩,-⟩,-⟩,-⟩:=h
  exact Int64.not_le.1 hping

theorem rateLimit_of_validate {go : GoLibrary} {c : Config} (h : c.validate go = [])
    (henabled : c.rateLimitEnabled=true) : 0<c.rateLimitIPPerMin ∧ 0<c.rateLimitIPBurst := by
  simp only [validate,validateRateLimit,List.append_eq_nil_iff,complaint_eq_nil,henabled,
    Bool.true_and,Bool.or_eq_false_iff,decide_eq_false_iff_not,Int64.not_le] at h
  exact h.1.1.2

end Config
end SecureGateway.Relay
