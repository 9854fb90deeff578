import SecureGateway.Lib.Machine
import SecureGateway.Sdk.ConnectionManager

/-!
# The relay client engine (`ConnectionManager.java`)

A task of the scheduler thread is a function from the manager to the manager and its effects,
in order; what it reads from outside is in `Inputs`. Tasks come in any order; a timer task
runs only if it is scheduled, a callback only if its transport was passed to `connect`. Both
transports swallow the failures of `send`, `sendPing` and `close`; `connect` and the factory
may throw.
-/

namespace SecureGateway.Sdk
open E2ee

inductive ConnectionState
  | connected
  | reconnecting
  | peerOffline
  | revoked
  | superseded
  deriving DecidableEq, Repr

namespace ConnectionState

def name : ConnectionState → String
  | connected => "CONNECTED"
  | reconnecting => "RECONNECTING"
  | peerOffline => "PEER_OFFLINE"
  | revoked => "REVOKED"
  | superseded => "SUPERSEDED"

/- "`SUPERSEDED` and `REVOKED` are terminal." -/
def isTerminal : ConnectionState → Bool
  | revoked | superseded => true
  | connected | reconnecting | peerOffline => false

end ConnectionState

def closeNormal : Int32 := 1000
def closeSuperseded : Int32 := 4001
def closeTokenExpired : Int32 := 4003
def closeRevoked : Int32 := 4004

inductive Notice
  | peerOnline
  | peerOffline
  | shutdown
  deriving DecidableEq, Repr

/-- A frame between client and relay, as `Protocol.decode` and the parser of its payload
read it. `errorPeerOffline` is the one error code the manager knows. `unread` is any frame
it drops: not an envelope, a type that is null or none of these, another `sys` kind or
error code, or a payload that does not parse. -/
inductive WireFrame (Id : Type)
  | msg (payload : Bytes) (id : Id) (ts : Int64)
  | ack (id : Id) (ts : Int64)
  | sys (kind : Notice)
  | errorPeerOffline
  | authRefresh (id : Id) (ts : Int64) (token : String)
  | unread
  deriving DecidableEq

abbrev TransportID := ℕ

inductive Cause
  | thrown (e : Thrown)
  | peerOffline
  deriving DecidableEq, Repr

/-- What a task does to the outside. `message` is the host's `onMessage`, with the id of
the envelope the plaintext came in; `settle` completes the future of a `send`, with `none`
for success. -/
inductive Effect
  | connect (t : TransportID) (wsUrl bearerToken : String)
  | dialFailed (t : TransportID)
  | send (t : TransportID) (frame : WireFrame JavaString)
  | ping (t : TransportID)
  | close (t : TransportID) (code : Int32) (reason : String)
  | report (s : ConnectionState)
  | message (id : JavaString) (plaintext : Bytes)
  | settle (id : JavaString) (failure : Option Cause)
  deriving DecidableEq

structure PendingSend where
  id : JavaString
  plaintext : Bytes
  deriving DecidableEq

structure TokenResult where
  token : String
  refreshToken : String
  expiresIn : ℤ

/- Instants are in seconds. -/
structure TokenStore where
  token : String := ""
  refreshToken : String := ""
  expiresAt : ℤ := 0

def TokenStore.update (r : TokenResult) (instant : ℤ) : TokenStore where
  token := r.token
  refreshToken := r.refreshToken
  expiresAt := instant + max 0 r.expiresIn

namespace ReconnectPolicy

def baseMillis : Int64 := 1000
def capMillis : Int64 := 60000

/- `Math.floorMod` on longs. -/
def floorMod (x y : Int64) : Int64 := .ofInt (x.toInt.fmod y.toInt)

/- The shift takes the low six bits of its right operand, also when `attempt` has
wrapped around to a negative number. -/
def nextDelayMillis (attempt : Int32) (random : Int64) : Int64 :=
  let exp :=
    if attempt<32 then
      let shifted := baseMillis <<< attempt.toInt64
      if shifted≤0 then capMillis else min capMillis shifted
    else capMillis
  floorMod random (exp + 1)

end ReconnectPolicy

def livenessTimeoutMs : Int64 := 2 * 25000
def refreshSkewSeconds : ℤ := 120

/- The fixed surroundings of a manager. `hasAuth` is `cred.auth != null`. -/
structure Setup where
  cred : Credentials
  wsUrl : String := ""
  hasAuth : Bool := false
  selfManagesLiveness : Bool := false

/-- What one task reads from outside: `now` is its clock, `ts` the clock when it stamps an
envelope, `uuid` the id of an envelope of its own, `seals` the time and nonce with which
it seals the message of an id, `refreshed` the reply of the auth service. -/
structure Inputs where
  now : Int64 := 0
  ts : Int64 := 0
  instant : ℤ := 0
  uuid : JavaString := []
  ephPriv : Bytes := []
  random : Int64 := 0
  seals : JavaString → Int64 × Bytes := fun _ => (0,[])
  refreshed : Option TokenResult := none

/-- The fields of the class. Of the executor, `scheduled` holds the delays of the
`attemptConnect` tasks that have not run, `posted` the `send` tasks; a future in
`pendingAcks` is known by its id. -/
structure Manager where
  tokens : TokenStore := {}
  pendingAcks : List JavaString := []
  sendQueue : List PendingSend := []
  bufferedData : List (Bytes × JavaString × Int64) := []
  running : Bool := false
  terminal : Bool := false
  attempt : Int32 := 0
  active : Option TransportID := none
  handshake : Option HandshakeCoordinator := none
  state : Option ConnectionState := none
  watchdog : Bool := false
  refreshTask : Option ℤ := none
  lastActivityMs : Int64 := 0
  scheduled : List Int64 := []
  posted : List PendingSend := []
  isShutdown : Bool := false

namespace Manager

abbrev Ran := Manager × List Effect

def Ran.andThen (r : Ran) (f : Manager → Ran) : Ran := ((f r.1).1,r.2 ++ (f r.1).2)

variable (N : Native) (S : Setup)

/-! ### State and cleanup -/

def setState (m : Manager) (s : ConnectionState) : Ran :=
  if m.state = some s then (m,[]) else ({ m with state := some s },[.report s])

def cancelWatchdog (m : Manager) : Manager := { m with watchdog := false }

def cancelRefresh (m : Manager) : Manager := { m with refreshTask := none }

def cancelTimers (m : Manager) : Manager := m.cancelWatchdog.cancelRefresh

def failPendingAcks (m : Manager) (cause : Cause) : Ran :=
  ({ m with pendingAcks := [] },m.pendingAcks.map fun id => .settle id (some cause))

def failAllPending (m : Manager) (cause : Cause) : Ran :=
  (m.failPendingAcks cause).andThen fun m =>
    ({ m with sendQueue := [] },m.sendQueue.map fun ps => .settle ps.id (some cause))

def terminate (m : Manager) (terminalState : ConnectionState) : Ran :=
  let m := { m with terminal := true, running := false }
  (m.cancelTimers.failAllPending (.thrown (.illegalState
    ("session terminated: " ++ terminalState.name)))).andThen (·.setState terminalState)

def closeActive (m : Manager) (reason : String) : Ran :=
  match m.active with
  | some t => ({ m with active := none },[.close t closeNormal reason])
  | none => (m,[])

/-! ### The connect loop -/

def scheduleConnect (m : Manager) (delayMs : Int64) : Manager :=
  if !m.running || m.terminal then m
  else if m.isShutdown then m
  else { m with scheduled := m.scheduled ++ [delayMs] }

def teardownActive (m : Manager) : Ran :=
  (m.cancelWatchdog.closeActive "reconnecting").andThen fun m =>
    failPendingAcks { m with handshake := none, bufferedData := [] }
      (.thrown (.illegalState "connection lost"))

def scheduleReconnect (m : Manager) (i : Inputs) : Ran :=
  if !m.running || m.terminal then (m,[])
  else m.teardownActive.andThen fun m => (m.setState .reconnecting).andThen fun m =>
    (scheduleConnect { m with attempt := m.attempt + 1 }
      (ReconnectPolicy.nextDelayMillis m.attempt i.random),[])

/- How a dial ends: `connect` returns or throws, or the factory throws before it. -/
inductive Dial
  | returns
  | throws
  | noTransport
  deriving DecidableEq, Repr

def attemptConnect (m : Manager) (t : TransportID) (dial : Dial) (i : Inputs) : Ran :=
  if !m.running || m.terminal then (m,[])
  else
    match dial with
    | .noTransport => (m,[])
    | .returns => (m,[.connect t S.wsUrl m.tokens.token])
    | .throws =>
      Ran.andThen (m,[.connect t S.wsUrl m.tokens.token,.dialFailed t]) (·.scheduleReconnect i)

/-! ### Outbound helpers -/

def sendFrame (m : Manager) (frame : WireFrame JavaString) : List Effect :=
  match m.active with
  | some t => [.send t frame]
  | none => []

def isLiveForData (m : Manager) : Bool :=
  m.active.isSome && m.handshake.any (·.isComplete)

def settle (m : Manager) (id : JavaString) (failure : Option Cause) : Ran :=
  if id ∈ m.pendingAcks then
    ({ m with pendingAcks := m.pendingAcks.erase id },[.settle id failure])
  else (m,[])

def writeData (m : Manager) (c : HandshakeCoordinator) (ps : PendingSend) (i : Inputs) : Ran :=
  match c.sealFrame N (i.seals ps.id).2 ps.id (i.seals ps.id).1 ps.plaintext with
  | .ok frame => (m,m.sendFrame (.msg frame ps.id (i.seals ps.id).1))
  | .error e => m.settle ps.id (some (.thrown e))

/- The loop of `flushSendQueue`; a future that is no longer pending is not written. -/
def writeDrained (c : HandshakeCoordinator) (i : Inputs) (m : Manager) : List PendingSend → Ran
  | [] => (m,[])
  | ps :: rest =>
    (if ps.id ∈ m.pendingAcks then m.writeData N c ps i else (m,[])).andThen
      fun m => writeDrained c i m rest

def flushSendQueue (m : Manager) (c : HandshakeCoordinator) (i : Inputs) : Ran :=
  writeDrained N c i { m with sendQueue := [] } m.sendQueue

def completeAck (m : Manager) (id : JavaString) : Ran := m.settle id none

/-! ### Token refresh -/

def scheduleRefresh (m : Manager) (i : Inputs) : Manager :=
  if !S.hasAuth then m
  else if m.isShutdown then m.cancelRefresh
  else { m.cancelRefresh with
    refreshTask := some (max 1 (m.tokens.expiresAt - refreshSkewSeconds - i.instant)) }

def refreshNow (m : Manager) (i : Inputs) : Ran :=
  if !S.hasAuth then (m,[])
  else
    match i.refreshed with
    | none => (m,[])
    | some r =>
      ({ m with tokens := .update r i.instant },m.sendFrame (.authRefresh i.uuid i.ts r.token))

/-! ### Inbound handling -/

def startWatchdog (m : Manager) : Manager :=
  let m := m.cancelWatchdog
  if m.active.isSome && S.selfManagesLiveness then m
  else if m.isShutdown then m
  else { m with watchdog := true }

/- The end of `handleOpen`, once there is a coordinator. -/
def greet (m : Manager) (c : HandshakeCoordinator) (i : Inputs) : Ran :=
  Ran.andThen (m,m.sendFrame (.msg c.handshakeFrame i.uuid i.ts)) fun m =>
    (m.setState .connected).andThen fun m => (m.startWatchdog S,[])

/- The constructor of the coordinator draws a key pair, and may throw. -/
def handleOpen (m : Manager) (t : TransportID) (i : Inputs) : Ran :=
  let m := { m with active := some t, attempt := 0, lastActivityMs := i.now }
  match HandshakeCoordinator.new N S.cred.myPrivateKey S.cred.peerPublicKey S.cred.role i.ephPriv
    with
  | .error _ => (m,[])
  | .ok c => greet S { m with handshake := some c } c i

def deliverData (m : Manager) (payload : Bytes) (id : JavaString) (ts : Int64) (i : Inputs) : Ran :=
  match m.handshake with
  | none => (m,[])
  | some c =>
    match c.onFrame N payload id ts with
    | (c,.ok (some plaintext)) =>
      ({ m with handshake := some c },m.sendFrame (.ack id i.ts) ++ [.message id plaintext])
    | (c,_) => ({ m with handshake := some c },[])

/- The loop of `drainBufferedData`. -/
def deliverBuffered (i : Inputs) (m : Manager) : List (Bytes × JavaString × Int64) → Ran
  | [] => (m,[])
  | (payload,id,ts) :: rest =>
    (m.deliverData N payload id ts i).andThen fun m => deliverBuffered i m rest

def drainBufferedData (m : Manager) (i : Inputs) : Ran :=
  deliverBuffered N i { m with bufferedData := [] } m.bufferedData

/-- `handleMsg`. Without a coordinator the call ends in a null dereference that changes
nothing. -/
def handleMsg (m : Manager) (payload : Bytes) (id : JavaString) (ts : Int64) (i : Inputs) : Ran :=
  match payload, m.handshake with
  | [], _ => (m,[])
  | _, none => (m,[])
  | tag :: body, some c =>
    if tag=tagHandshake then
      match c.onFrame N (tag::body) id ts with
      | (c,.error _) => ({ m with handshake := some c },[])
      | (c,.ok _) =>
        if c.isComplete then
          (flushSendQueue N { m with handshake := some c } c i).andThen (drainBufferedData N · i)
        else ({ m with handshake := some c },[])
    else if !c.isComplete then
      ({ m with bufferedData := m.bufferedData ++ [(tag::body,id,ts)] },[])
    else m.deliverData N (tag::body) id ts i

def handleSys (m : Manager) (kind : Notice) (i : Inputs) : Ran :=
  match kind with
  | .peerOnline =>
    (m.setState .connected).andThen fun m =>
      match m.handshake with
      | some c => (m,m.sendFrame (.msg c.handshakeFrame i.uuid i.ts))
      | none => (m,[])
  | .peerOffline => m.setState .peerOffline
  | .shutdown => m.scheduleReconnect i

def handleErrorPeerOffline (m : Manager) : Ran :=
  (m.setState .peerOffline).andThen (·.failPendingAcks .peerOffline)

/- `handleMessage`: the transport it came from is not looked at. -/
def handleMessage (m : Manager) (frame : WireFrame JavaString) (i : Inputs) : Ran :=
  let m := { m with lastActivityMs := i.now }
  match frame with
  | .msg payload id ts => m.handleMsg N payload id ts i
  | .ack id _ => m.completeAck id
  | .sys kind => m.handleSys kind i
  | .errorPeerOffline => m.handleErrorPeerOffline
  | .authRefresh _ _ _ | .unread => (m,[])

def handleClosed (m : Manager) (code : Int32) (i : Inputs) : Ran :=
  let m := { m.cancelWatchdog with active := none, handshake := none }
  (m.failPendingAcks (.thrown (.illegalState
    ("connection closed: " ++ toString code.toInt)))).andThen fun m =>
    if code=closeSuperseded then m.terminate .superseded
    else if code=closeRevoked then m.terminate .revoked
    else if code=closeTokenExpired then (m.refreshNow S i).andThen (·.scheduleReconnect i)
    else m.scheduleReconnect i

/-! ### Tasks -/

def start (m : Manager) (i : Inputs) : Manager :=
  if m.running then m
  else (scheduleConnect { m with running := true } 0).scheduleRefresh S i

/- The part of `send` on the caller's thread. With `cleared`, a `failPendingAcks` that is
running meanwhile has passed the new entry by and now clears it. -/
def call (m : Manager) (ps : PendingSend) (cleared : Bool) : Ran :=
  if m.isShutdown then
    ({ m with pendingAcks := m.pendingAcks.erase ps.id },
      [.settle ps.id (some (.thrown (.illegalState "session is not active")))])
  else
    ({ m with
        pendingAcks := if cleared then m.pendingAcks else m.pendingAcks.insert ps.id
        posted := m.posted ++ [ps] },[])

def sendTask (m : Manager) (ps : PendingSend) (i : Inputs) : Ran :=
  if m.terminal || !m.running then
    ({ m with pendingAcks := m.pendingAcks.erase ps.id },
      [.settle ps.id (some (.thrown (.illegalState "session is not active")))])
  else
    match m.isLiveForData, m.handshake with
    | true, some c => m.writeData N c ps i
    | _, _ => ({ m with sendQueue := m.sendQueue ++ [ps] },[])

/- The task `close` posts; `shutdown` follows on the caller's thread. -/
def closeTask (m : Manager) : Ran :=
  (({ m with running := false }.cancelTimers).closeActive "client closing").andThen
    (·.failAllPending (.thrown (.illegalState "connection closed")))

/- The executor takes no new tasks, and periodic ones do not run again. -/
def shutdown (m : Manager) : Manager := { m with isShutdown := true, watchdog := false }

def watchdogTask (m : Manager) (i : Inputs) : Ran :=
  match m.active with
  | none => (m,[])
  | some t =>
    Ran.andThen (m,[.ping t]) fun m =>
      if i.now - m.lastActivityMs > livenessTimeoutMs then m.scheduleReconnect i else (m,[])

def refreshTaskRun (m : Manager) (i : Inputs) : Ran :=
  (m.refreshNow S i).andThen fun m => (m.scheduleRefresh S i,[])

/- The test of `onClosed` and `onError` of the listener of `owner`. -/
def heeds (m : Manager) (owner : TransportID) : Bool :=
  m.active == some owner || m.active == none

def onClosed (m : Manager) (owner : TransportID) (code : Int32) (i : Inputs) : Ran :=
  if m.heeds owner then m.handleClosed S code i else (m,[])

def onError (m : Manager) (owner : TransportID) (i : Inputs) : Ran :=
  if m.heeds owner then m.scheduleReconnect i else (m,[])

end Manager

/-- What the scheduler can run next, and the two things that happen on other threads:
`activity` of a transport and the caller's part of `send`. -/
inductive Task
  | start
  | attemptConnect (delayMs : Int64) (dial : Manager.Dial)
  | opened (t : TransportID)
  | message (t : TransportID) (frame : WireFrame JavaString)
  | activity (t : TransportID)
  | closed (t : TransportID) (code : Int32)
  | failed (t : TransportID)
  | watchdog
  | refresh
  | call (ps : PendingSend) (cleared : Bool)
  | send (id : JavaString)
  | close
  | shutdown

structure Occurrence where
  task : Task
  inputs : Inputs := {}

/-- `transports` counts the transports passed to `connect`; `live` are those that have
neither reported a close or an error, nor failed to connect, nor been closed by the
manager. `log` is everything the manager did. -/
structure World where
  manager : Manager
  transports : ℕ := 0
  live : List TransportID := []
  log : List Effect := []

namespace Effect

def dialled (transports : ℕ) : Effect → ℕ
  | connect _ _ _ => transports + 1
  | _ => transports

def survivors (live : List TransportID) : Effect → List TransportID
  | connect t _ _ => t :: live
  | dialFailed t | close t _ _ => live.filter (· ≠ t)
  | _ => live

end Effect

namespace World

def after (w : World) (r : Manager.Ran) : World where
  manager := r.1
  transports := r.2.foldl Effect.dialled w.transports
  live := r.2.foldl Effect.survivors w.live
  log := w.log ++ r.2

def lose (w : World) (t : TransportID) : World := { w with live := w.live.filter (· ≠ t) }

variable (N : Native) (S : Setup)

def next (w : World) (o : Occurrence) : World :=
  let m := w.manager
  let i := o.inputs
  match o.task with
  | .start => w.after (m.start S i,[])
  | .attemptConnect delayMs dial =>
    if delayMs ∈ m.scheduled then
      w.after (Manager.attemptConnect S { m with scheduled := m.scheduled.erase delayMs }
        w.transports dial i)
    else w
  | .opened t => if t<w.transports then w.after (m.handleOpen N S t i) else w
  | .message t frame => if t<w.transports then w.after (m.handleMessage N frame i) else w
  | .activity t =>
    if t<w.transports then w.after ({ m with lastActivityMs := i.now },[]) else w
  | .closed t code =>
    if t<w.transports then (w.lose t).after (m.onClosed S t code i) else w
  | .failed t => if t<w.transports then (w.lose t).after (m.onError t i) else w
  | .watchdog => if m.watchdog then w.after (m.watchdogTask i) else w
  | .refresh => if m.refreshTask.isSome then w.after (m.refreshTaskRun S i) else w
  | .call ps cleared => w.after (m.call ps cleared)
  | .send id =>
    match m.posted.find? (·.id == id) with
    | some ps =>
      w.after (Manager.sendTask N { m with posted := m.posted.erase ps } ps i)
    | none => w
  | .close => w.after m.closeTask
  | .shutdown => w.after (m.shutdown,[])

def fresh (tokens : TokenStore) : World := { manager := { tokens } }

end World
end SecureGateway.Sdk
