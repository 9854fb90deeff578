import SecureGateway.Lib.GoStrings
import SecureGateway.Relay.Token
import SecureGateway.Relay.Traffic

/-!
# Refreshing the token of a live session (`refresh.go`, `session.go`, `connect.go`)

An `auth_refresh` frame brings another token, which `Refresh` verifies and compares with the
claims of the session; only the expiry is taken over. Frames may arrive at a session that is
closed already. `presented` is history: the tokens that were handed to `Verify` or to
`Refresh`, with what their verification depended on.
-/

namespace SecureGateway.Relay.Refresh
open E2ee (Bytes)
open Token

/- What the server is built from. `unmarshalToken` reads the `token` field of a body. -/
structure Server (Env : Type) where
  verifier : Verifier Env
  /- `SetRefresher` was called -/
  refresher : Bool
  unmarshalEnvelope : Bytes → Option (Protocol.Envelope Bytes)
  unmarshalToken : Bytes → Option String
  maxMessageBytes : Int

structure Session (Env : Type) where
  claims : Claims
  expiry : Int
  /- the signal to the monitor -/
  refreshed : Bool
  /- the code and the reason of the first `CloseWith` -/
  closed : Option (CloseCode × String)
  /- the read pump runs -/
  reading : Bool
  /- the code and the detail of every `SendError`, newest first -/
  errors : List (String × String)
  presented : List (Env × String)

variable {Env : Type}

namespace Session

def slotKey (s : Session Env) : SlotKey := ⟨s.claims.pairID,s.claims.role⟩

def peerKey (s : Session Env) : SlotKey := ⟨s.claims.pairID,s.claims.role.peer⟩

def new (claims : Claims) (presented : Env × String) : Session Env where
  claims := claims
  expiry := claims.expiresAt.getD 0
  refreshed := false
  closed := none
  reading := true
  errors := []
  presented := [presented]

def closeWith (s : Session Env) (code : CloseCode) (reason : String) : Session Env :=
  { s with closed := some (s.closed.getD (code,reason)) }

def sendError (s : Session Env) (code detail : String) : Session Env :=
  { s with errors := (code,detail) :: s.errors }

def setExpiry (s : Session Env) (unix : Int) : Session Env :=
  { s with expiry := unix, refreshed := true }

end Session

/- The query has a `token` or an `access_token`, and the `Authorization` header. -/
structure ConnectReq where
  queryToken : Bool
  authorization : String

def bearerToken (r : ConnectReq) : Except Reason String :=
  if r.queryToken then .error .malformed
  else if r.authorization = "" then .error .missingToken
  else if !"Bearer ".toList.isPrefixOf r.authorization.toList then .error .malformed
  else
    let tok := GoStrings.trimSpace (String.ofList (r.authorization.toList.drop 7))
    if tok = "" then .error .missingToken else .ok tok

/- `handleConnect`, where the upgrade and the registration succeed. -/
def connect (srv : Server Env) (env : Env) (r : ConnectReq) : Except AuthError (Session Env) :=
  match bearerToken r with
  | .error reason => .error (unauthorized reason)
  | .ok raw =>
    match srv.verifier.verify env raw with
    | .error ae => .error ae
    | .ok claims => .ok (Session.new claims (env,raw))

def refreshToken (srv : Server Env) (env : Protocol.Envelope Bytes) : String :=
  if env.payload=[] then "" else (srv.unmarshalToken env.payload).getD ""

/-- `refresher.Refresh`. -/
def refresh (srv : Server Env) (env : Env) (s : Session Env) (rawToken : String) : Session Env :=
  let s := { s with presented := (env,rawToken) :: s.presented }
  if rawToken = "" then s.sendError "unauthorized" "empty refresh token"
  else
    match srv.verifier.verify env rawToken with
    | .error ae => s.sendError "unauthorized" ae.reason.string
    | .ok claims =>
      if claims.pairID≠s.claims.pairID ∨ claims.role≠s.claims.role ∨
          claims.accountID ≠ s.claims.accountID ∨ claims.deviceID≠s.claims.deviceID then
        s.closeWith .protocol "refresh identity mismatch"
      else
        match claims.expiresAt with
        | some exp => s.setExpiry exp
        | none => s

/- `OnFrame`. What `Route` may do to the sender is to tell it that the peer is `offline`. -/
def onFrame (srv : Server Env) (env : Env) (offline : Bool) (s : Session Env)
    (frame : Protocol.Envelope Bytes) : Session Env :=
  if frame.type=Protocol.typeMsg ∨ frame.type=Protocol.typeAck then
    if offline then s.sendError "peer_offline" "" else s
  else if frame.type=Protocol.typeAuthRefresh then
    if srv.refresher then refresh srv env s (refreshToken srv frame) else s
  else s

/- One turn of `readPump` after `conn.Read` has returned `data`. -/
def receive (srv : Server Env) (env : Env) (offline : Bool) (s : Session Env) (data : Bytes) :
    Session Env :=
  match Protocol.decode srv.unmarshalEnvelope srv.maxMessageBytes data with
  | .error _ => { s.closeWith .protocol "protocol error" with reading := false }
  | .ok frame => onFrame srv env offline s frame

inductive Step (Env : Type)
  | receive (env : Env) (offline : Bool) (data : Bytes)
  | readFails
  /- the monitor takes the signal and resets its timer -/
  | rearm
  /- the timer of the monitor fires -/
  | expire (now : Int)
  /- every other caller of `CloseWith` -/
  | close (code : CloseCode) (reason : String)

def next (srv : Server Env) (s : Session Env) : Step Env → Session Env
  | .receive env offline data => if s.reading then receive srv env offline s data else s
  | .readFails => { s with reading := false }
  | .rearm => { s with refreshed := false }
  | .expire now =>
    if s.expiry≤now ∧ 0<s.expiry then s.closeWith .tokenExpired "token expired" else s
  | .close code reason => s.closeWith code reason

def refreshOf (srv : Server Env) (data : Bytes) : Option String :=
  match Protocol.decode srv.unmarshalEnvelope srv.maxMessageBytes data with
  | .error _ => none
  | .ok frame =>
    if frame.type=Protocol.typeAuthRefresh ∧ srv.refresher then some (refreshToken srv frame)
    else none

section Tokens
variable {srv : Server Env} {env : Env} {s : Session Env} {raw : String}

theorem identity_eq_iff (c c' : Claims) :
    c.identity=c'.identity ↔ ¬ (c.pairID≠c'.pairID ∨ c.role≠c'.role ∨
      c.accountID≠c'.accountID ∨ c.deviceID≠c'.deviceID) := by
  simp only [Claims.identity,Prod.mk.injEq,not_or,not_not]
  constructor
  · rintro ⟨ha,hp,hd,hr⟩
    exact ⟨hp,hr,ha,hd⟩
  · rintro ⟨hp,hr,ha,hd⟩
    exact ⟨ha,hp,hd,hr⟩

theorem refresh_of_error {ae : AuthError} (h : srv.verifier.verify env raw = .error ae) :
    ∃ detail,refresh srv env s raw =
      { s with presented := (env,raw)::s.presented }.sendError "unauthorized" detail := by
  unfold refresh
  by_cases hempty : raw = ""
  · exact ⟨_,if_pos hempty⟩
  · refine ⟨ae.reason.string,?_⟩
    simp only [if_neg hempty,h]

theorem ne_empty_of_verify {c : Claims} (h : srv.verifier.verify env raw = .ok c) : raw ≠ "" := by
  rintro rfl
  cases h

theorem refresh_of_other {c : Claims} (h : srv.verifier.verify env raw = .ok c)
    (hid : c.identity≠s.claims.identity) :
    refresh srv env s raw = { s with presented := (env,raw)::s.presented }.closeWith .protocol
      "refresh identity mismatch" := by
  have hother:=not_not.1 (mt (identity_eq_iff c s.claims).2 hid)
  simp only [refresh,if_neg (ne_empty_of_verify h),h]
  exact if_pos hother

theorem refresh_of_same {c : Claims} (h : srv.verifier.verify env raw = .ok c)
    (hid : c.identity=s.claims.identity) :
    ∃ exp,c.expiresAt=some exp ∧
      refresh srv env s raw = { s with presented := (env,raw)::s.presented }.setExpiry exp := by
  obtain ⟨exp,hexp⟩:=Verifier.expiresAt_of_verify h
  refine ⟨exp,hexp,?_⟩
  have hsame:=(identity_eq_iff c s.claims).1 hid
  simp only [refresh,if_neg (ne_empty_of_verify h),h]
  rw [if_neg hsame,hexp]

end Tokens

/-- The session has the claims it was opened with, and its expiry is that of a token
presented on the connection which was verified and names the same identity. -/
structure Vouched (srv : Server Env) (claims : Claims) (s : Session Env) : Prop where
  claims_eq : s.claims=claims
  expiry : ∃ x ∈ s.presented, ∃ c, srv.verifier.verify x.1 x.2 = .ok c ∧
    c.identity = s.claims.identity ∧ c.expiresAt = some s.expiry

section Run
variable {srv : Server Env} {claims : Claims} {s s' : Session Env}

theorem Vouched.keep (h : Vouched srv claims s) (hclaims : s'.claims=s.claims)
    (hexpiry : s'.expiry=s.expiry) (hpresented : s.presented ⊆ s'.presented) :
    Vouched srv claims s' where
  claims_eq := hclaims.trans h.claims_eq
  expiry := by
    obtain ⟨x,hx,c,hverified,hid,hexp⟩:=h.expiry
    exact ⟨x,hpresented hx,c,hverified,by rw [hclaims,hid],by rw [hexpiry,hexp]⟩

theorem Vouched.refresh (h : Vouched srv claims s) (env : Env) (raw : String) :
    Vouched srv claims (Refresh.refresh srv env s raw) := by
  have hgrows : s.presented ⊆ (env,raw)::s.presented := List.subset_cons_self _ _
  cases hverify : srv.verifier.verify env raw with
  | error ae =>
    obtain ⟨detail,heq⟩:=refresh_of_error (s := s) hverify
    rw [heq]
    exact h.keep rfl rfl hgrows
  | ok c =>
    by_cases hid : c.identity=s.claims.identity
    · obtain ⟨exp,hexp,heq⟩:=refresh_of_same hverify hid
      rw [heq]
      exact ⟨h.claims_eq,(env,raw),List.mem_cons_self,c,hverify,hid,hexp⟩
    · rw [refresh_of_other hverify hid]
      exact h.keep rfl rfl hgrows

theorem Vouched.onFrame (h : Vouched srv claims s) (env : Env) (offline : Bool)
    (frame : Protocol.Envelope Bytes) : Vouched srv claims (Refresh.onFrame srv env offline s frame) := by
  unfold Refresh.onFrame
  split
  · split
    · exact h.keep rfl rfl (List.Subset.refl _)
    · exact h
  split
  · split
    · exact h.refresh env _
    · exact h
  · exact h

theorem Vouched.next (h : Vouched srv claims s) (x : Step Env) :
    Vouched srv claims (Refresh.next srv s x) := by
  cases x with
  | receive env offline data =>
    unfold Refresh.next
    dsimp only
    split
    · unfold Refresh.receive
      split
      · exact h.keep rfl rfl (List.Subset.refl _)
      · exact h.onFrame env offline _
    · exact h
  | readFails => exact h.keep rfl rfl (List.Subset.refl _)
  | rearm => exact h.keep rfl rfl (List.Subset.refl _)
  | expire now =>
    unfold Refresh.next
    dsimp only
    split
    · exact h.keep rfl rfl (List.Subset.refl _)
    · exact h
  | close code reason => exact h.keep rfl rfl (List.Subset.refl _)

theorem vouched_connect {env : Env} {r : ConnectReq} (h : connect srv env r = .ok s) :
    Vouched srv s.claims s := by
  unfold connect at h
  split at h
  · cases h
  next raw hraw =>
  split at h
  · cases h
  next c hverify =>
  cases h
  obtain ⟨exp,hexp⟩:=Verifier.expiresAt_of_verify hverify
  refine ⟨rfl,(env,raw),List.mem_cons_self,c,hverify,rfl,?_⟩
  simp [Session.new,hexp]

theorem next_of_refreshOf {env : Env} {offline : Bool} {data : Bytes} {raw : String}
    (hreading : s.reading=true) (hraw : refreshOf srv data=some raw) :
    Refresh.next srv s (.receive env offline data)=Refresh.refresh srv env s raw := by
  unfold refreshOf at hraw
  split at hraw
  · cases hraw
  next frame hframe =>
  split at hraw
  · next htype =>
    cases hraw
    simp [Refresh.next,hreading,Refresh.receive,hframe,Refresh.onFrame,htype.1,htype.2,
      Protocol.typeAuthRefresh,Protocol.typeMsg,Protocol.typeAck]
  · cases hraw

end Run

/-- Whatever frames a session receives, and whatever else happens to it: it keeps its
slot key, peer key and account; its expiry is always that of a token which was
presented on the connection, was verified and names the session's identity; a token
that is rejected changes nothing, and one of another identity closes the session. -/
theorem refresh_keeps_identity (srv : Server Env) (env₀ : Env) (r : ConnectReq)
    (s₀ : Session Env) (hconnect : connect srv env₀ r = .ok s₀) (steps : List (Step Env))
    (s : Session Env) (hs : Machine.run (next srv) s₀ steps = s) :
    (s.slotKey=s₀.slotKey ∧ s.peerKey=s₀.peerKey ∧
        s.claims.accountID = s₀.claims.accountID) ∧
      (∃ x ∈ s.presented, ∃ c, srv.verifier.verify x.1 x.2 = .ok c ∧
        c.identity = s.claims.identity ∧ c.expiresAt = some s.expiry) ∧
      ∀ env offline data raw, s.reading=true → refreshOf srv data = some raw →
        (∀ ae, srv.verifier.verify env raw = .error ae →
          (next srv s (.receive env offline data)).expiry = s.expiry ∧
            (next srv s (.receive env offline data)).closed = s.closed) ∧
        ∀ c, srv.verifier.verify env raw = .ok c → c.identity≠s.claims.identity →
          (next srv s (.receive env offline data)).expiry = s.expiry ∧
            (next srv s (.receive env offline data)).closed =
              some (s.closed.getD (.protocol,"refresh identity mismatch")) := by
  have hvouched : Vouched srv s₀.claims s := by
    rw [← hs]
    exact Machine.run_invariant (next srv) (Vouched srv s₀.claims) (fun s x h => h.next x) s₀ steps
      (vouched_connect hconnect)
  refine ⟨?_,hvouched.expiry,?_⟩
  · simp only [Session.slotKey,Session.peerKey,hvouched.claims_eq,and_self]
  intro env offline data raw hreading hraw
  rw [next_of_refreshOf hreading hraw]
  constructor
  · intro ae hverify
    obtain ⟨detail,heq⟩ := refresh_of_error (s := s) hverify
    rw [heq]
    exact ⟨rfl,rfl⟩
  · intro c hverify hid
    rw [refresh_of_other hverify hid]
    exact ⟨rfl,rfl⟩


def sampleParsed (deviceID : String) (exp : Int) : Parsed where
  expiresAt := some exp
  accountID := "acct"
  pairID := "pair"
  deviceID := deviceID
  role := "mobile"
  licenseID := "lic"

def sampleTokens (raw : String) : Option Parsed :=
  if raw = "a" then some (sampleParsed "dev_1" 100)
  else if raw = "b" then some (sampleParsed "dev_1" 200)
  else if raw = "c" then some (sampleParsed "dev_2" 300)
  else none

def sampleVerifier : Verifier Int where
  parse now raw :=
    match sampleTokens raw with
    | some c => if c.expiresAt.any (· ≤ now) then .error [.expired] else .ok (c,true)
    | none => .error [.malformed]
  expires now raw c valid h := by
    unfold sampleTokens at h
    split at h
    · split at h
      · cases h
      next c' hc' _ =>
      cases h
      split at hc'
      · cases hc'
        simp [sampleParsed]
      split at hc'
      · cases hc'
        simp [sampleParsed]
      split at hc'
      · cases hc'
        simp [sampleParsed]
      · cases hc'
    · cases h

def sampleServer : Server Int where
  verifier := sampleVerifier
  refresher := true
  unmarshalEnvelope data := some ⟨1,Protocol.typeAuthRefresh,"id",0,data⟩
  unmarshalToken payload := some (String.ofList (payload.map fun b => Char.ofNat b.toNat))
  maxMessageBytes := 0

def sampleSession : Session Int :=
  Session.new ⟨some 100,"acct","pair","dev_1",.mobile,"lic",by decide⟩ (0,"a")

def refreshedSession : Session Int :=
  Machine.run (next sampleServer) sampleSession
    [.receive 50 false [98],.rearm,.receive 60 false [120],.expire 150]

theorem refresh_keeps_identity_refreshed :
    refreshedSession.expiry = 200 ∧ refreshedSession.closed=none ∧
      refreshedSession.slotKey = ⟨"pair",.mobile⟩ ∧
      (next sampleServer refreshedSession (.receive 160 false [99])).expiry = 200 ∧
      (next sampleServer refreshedSession (.receive 160 false [99])).closed =
        some (.protocol,"refresh identity mismatch") := by
  have hkept := refresh_keeps_identity sampleServer 0 ⟨false,"Bearer a"⟩ sampleSession rfl
    [.receive 50 false [98],.rearm,.receive 60 false [120],.expire 150] refreshedSession rfl
  have hexpiry : refreshedSession.expiry=200 := by decide +kernel
  have hclosed : refreshedSession.closed=none := by decide +kernel
  have hother := (hkept.2.2 160 false [99] "c" (by decide +kernel) (by decide +kernel)).2
    ⟨some 300,"acct","pair","dev_2",.mobile,"lic",by decide⟩ rfl (by decide +kernel)
  rw [hclosed] at hother
  exact ⟨hexpiry,hclosed,hkept.1.1,hother.1.trans hexpiry,hother.2⟩

end SecureGateway.Relay.Refresh
