import SecureGateway.E2ee.Swift
import SecureGateway.Sdk.Manager

/-!
# The relay client engine of the iOS SDK (`ConnectionManager.swift`)

A block of the serial queue is a function from the manager to the manager and the effects it
had. `World` keeps what the blocks leave behind: the tasks that were created, the `receive`
calls, connects and token refreshes on their way. A completed `receive` goes on with the task
that is current then. A frame `unread` is one that `handleMessage` drops.
-/

namespace SecureGateway.Ios
open E2ee (Bytes)
open E2ee.Swift (HandshakeCoordinator Halt CryptoError Library)
open Sdk (ConnectionState Notice WireFrame)

abbrev TaskID := ℕ

def closeGoingAway : ℤ := 1001
def closeSuperseded : ℤ := 4001
def closeTokenExpired : ℤ := 4003
def closeRevoked : ℤ := 4004

structure Setup where
  role : Role
  myPriv : Bytes
  peerPub : Bytes

structure Inputs where
  ts : Int64 := 0
  uuid : String := ""
  ephPriv : Bytes := []
  ephPub : Bytes := []
  nonce : Bytes := []

/-- What a block does to the outside. `received` stands at the start of a block that a
completed `receive` has put on the queue; `retry` is a connect put on the queue with a
delay drawn from `0...bound` milliseconds, for the given value of `attempt`; `resume`
ends a `send`, with `none` for success. -/
inductive Effect
  | createTask (t : TaskID) (bearer : String)
  | receive (t : TaskID)
  | received (t : TaskID)
  | send (t : TaskID) (frame : WireFrame String)
  | cancel (t : TaskID)
  | retry (attempt bound : ℕ)
  | refresh
  | report (s : ConnectionState)
  | message (plaintext : Bytes)
  | resume (id : String) (failure : Option Halt)
  deriving DecidableEq

structure Manager where
  token : String := ""
  refresh : String := ""
  task : Option TaskID := none
  handshake : Option HandshakeCoordinator := none
  pendingAcks : List String := []
  bufferedData : List (Bytes × String × Int64) := []
  attempt : ℕ := 0
  terminal : Bool := false
  state : ConnectionState := .reconnecting
  /- A trap has ended the process. -/
  crashed : Bool := false

namespace Manager

abbrev Ran := Manager × List Effect

def Ran.andThen (r : Ran) (f : Manager → Ran) : Ran :=
  if r.1.crashed then r else ((f r.1).1,r.2 ++ (f r.1).2)

variable (L : Library) (S : Setup)

/-! ### State and cleanup -/

/- Every assignment is reported, also of the same state. -/
def setState (m : Manager) (s : ConnectionState) : Ran := ({ m with state := s },[.report s])

def failPending (m : Manager) (error : CryptoError) : Ran :=
  ({ m with pendingAcks := [] },m.pendingAcks.map fun id => .resume id (some (.thrown error)))

def terminate (m : Manager) (s : ConnectionState) : Ran :=
  (failPending { m with terminal := true } .openFailed).andThen (·.setState s)

def write (m : Manager) (frame : WireFrame String) : Ran :=
  match m.task with
  | some t => (m,[.send t frame])
  | none => (m,[])

/-! ### Connecting -/

def receiveLoop (m : Manager) : Ran :=
  match m.task with
  | some t => (m,[.receive t])
  | none => (m,[])

def connect (m : Manager) (t : TaskID) (i : Inputs) : Ran :=
  if m.terminal then (m,[])
  else
    let c := HandshakeCoordinator.new S.myPriv S.peerPub S.role i.ephPriv i.ephPub
    Ran.andThen ({ m with task := some t, handshake := some c },[.createTask t m.token]) fun m =>
      (m.write (.msg c.handshakeFrame i.uuid i.ts)).andThen fun m =>
        (setState { m with attempt := 0 } .connected).andThen receiveLoop

/- `min(cap, base * pow(2.0, Double(attempt)))`, in milliseconds. -/
def delayBound (attempt : ℕ) : ℕ := min 60000 (1000 * 2 ^ attempt)

def scheduleReconnect (m : Manager) : Ran :=
  if m.terminal then (m,[])
  else
    (m.setState .reconnecting).andThen fun m =>
      ({ m with attempt := m.attempt + 1 },[.retry m.attempt (delayBound m.attempt)])

def handleClose (m : Manager) (code : ℤ) : Ran :=
  (m.failPending .openFailed).andThen fun m =>
    let m := { m with handshake := none }
    if code=closeSuperseded then m.terminate .superseded
    else if code=closeRevoked then m.terminate .revoked
    else if code=closeTokenExpired then Ran.andThen (m,[.refresh]) scheduleReconnect
    else m.scheduleReconnect

/-! ### Frames -/

/- `hs.onFrame`: the coordinator keeps what the call made of it, also when it throws. -/
def onFrame (m : Manager) (c : HandshakeCoordinator) (payload : Bytes) (id : String) (ts : Int64) :
    Manager × Option Bytes :=
  match c.onFrame L payload id ts with
  | (c,.ok r) => ({ m with handshake := some c },r)
  | (_,.error .trap) => ({ m with crashed := true },none)
  | (c,.error _) => ({ m with handshake := some c },none)

def deliver (m : Manager) (i : Inputs) (env : Bytes × String × Int64) : Ran :=
  match m.handshake with
  | none => (m,[])
  | some c =>
    match m.onFrame L c env.1 env.2.1 env.2.2 with
    | (m,none) => (m,[])
    | (m,some plaintext) =>
      (m.write (.ack env.2.1 i.ts)).andThen fun m => (m,[.message plaintext])

def deliverAll (i : Inputs) (m : Manager) : List (Bytes × String × Int64) → Ran
  | [] => (m,[])
  | env :: rest => (m.deliver L i env).andThen fun m => deliverAll i m rest

def drainBuffered (m : Manager) (i : Inputs) : Ran :=
  deliverAll L i { m with bufferedData := [] } m.bufferedData

def handleMsg (m : Manager) (i : Inputs) (payload : Bytes) (id : String) (ts : Int64) : Ran :=
  match payload, m.handshake with
  | [], _ | _, none => (m,[])
  | first :: _, some c =>
    if first=E2ee.tagHandshake then
      Ran.andThen ((m.onFrame L c payload id ts).1,[]) fun m =>
        if m.handshake.any (·.isComplete) then m.drainBuffered L i else (m,[])
    else if !c.isComplete then
      ({ m with bufferedData := m.bufferedData ++ [(payload,id,ts)] },[])
    else m.deliver L i (payload,id,ts)

def handleSys (m : Manager) (i : Inputs) : Notice → Ran
  | .peerOnline =>
    (m.setState .connected).andThen fun m =>
      match m.handshake with
      | some c => m.write (.msg c.handshakeFrame i.uuid i.ts)
      | none => (m,[])
  | .peerOffline => m.setState .peerOffline
  | .shutdown => m.scheduleReconnect

def completeAck (m : Manager) (id : String) : Ran :=
  if id ∈ m.pendingAcks then
    ({ m with pendingAcks := m.pendingAcks.erase id },[.resume id none])
  else (m,[])

def handleMessage (m : Manager) (i : Inputs) : WireFrame String → Ran
  | .msg payload id ts => m.handleMsg L i payload id ts
  | .ack id _ => m.completeAck id
  | .sys kind => m.handleSys i kind
  | .errorPeerOffline => (m.setState .peerOffline).andThen (·.failPending .openFailed)
  | .authRefresh _ _ _ | .unread => (m,[])

/-! ### Blocks -/

def onMessage (m : Manager) (t : TaskID) (frame : WireFrame String) (i : Inputs) : Ran :=
  Ran.andThen (m,[.received t]) fun m => (m.handleMessage L i frame).andThen receiveLoop

/- Its failure: the code of the close is not looked at. -/
def onFailure (m : Manager) : Ran := m.handleClose closeGoingAway

def send (m : Manager) (id : String) (plaintext : Bytes) (i : Inputs) : Ran :=
  match m.terminal, m.handshake with
  | true, _ | _, none => (m,[.resume id (some (.thrown .sealFailed))])
  | false, some c =>
    if !c.isComplete then (m,[.resume id (some (.thrown .sealFailed))])
    else
      match c.sealFrame L i.nonce id i.ts plaintext with
      | .ok frame =>
        write { m with pendingAcks := id :: m.pendingAcks.erase id } (.msg frame id i.ts)
      | .error e => ({ m with pendingAcks := m.pendingAcks.erase id },[.resume id (some e)])

def close (m : Manager) : Ran :=
  let m := { m with terminal := true }
  match m.task with
  | some t => (m,[.cancel t])
  | none => (m,[])

/- The end of `refreshNow`, where the auth service has replied. -/
def refreshed (m : Manager) (token refresh : String) (i : Inputs) : Ran :=
  write { m with token, refresh } (.authRefresh i.uuid i.ts token)

end Manager

/-! ### Runs -/

/-- The blocks of the queue. `lost t code` is the failure of a `receive` on `t`, `code` the
close code its task then has, if a close frame came. -/
inductive Block
  | start
  | timer
  | message (t : TaskID) (frame : WireFrame String)
  | lost (t : TaskID) (code : Option ℤ)
  | send (id : String) (plaintext : Bytes)
  | close
  | refreshed (reply : Option (String × String))

structure World where
  manager : Manager := {}
  tasks : ℕ := 0
  receives : List TaskID := []
  scheduled : ℕ := 0
  refreshing : ℕ := 0
  log : List Effect := []

namespace World
variable (L : Library) (S : Setup)

def note (w : World) : Effect → World
  | .createTask _ _ => { w with tasks := w.tasks + 1 }
  | .receive t => { w with receives := w.receives ++ [t] }
  | .retry _ _ => { w with scheduled := w.scheduled + 1 }
  | .refresh => { w with refreshing := w.refreshing + 1 }
  | _ => w

def after (w : World) (r : Manager.Ran) : World :=
  let w := r.2.foldl note w
  { w with manager := r.1, log := w.log ++ r.2 }

def enabled (w : World) : Block → Bool
  | .timer => 0 < w.scheduled
  | .message t _ | .lost t _ => t ∈ w.receives
  | .refreshed _ => 0 < w.refreshing
  | .start | .send _ _ | .close => true

def next (w : World) (b : Block × Inputs) : World :=
  if w.manager.crashed || !w.enabled b.1 then w
  else
    match b.1 with
    | .start => w.after (w.manager.connect S w.tasks b.2)
    | .timer =>
      let w := { w with scheduled := w.scheduled - 1 }
      w.after (w.manager.connect S w.tasks b.2)
    | .message t frame =>
      let w := { w with receives := w.receives.erase t }
      w.after (w.manager.onMessage L t frame b.2)
    | .lost t _ =>
      let w := { w with receives := w.receives.erase t }
      w.after w.manager.onFailure
    | .send id plaintext => w.after (w.manager.send L id plaintext b.2)
    | .close => w.after w.manager.close
    | .refreshed reply =>
      let w := { w with refreshing := w.refreshing - 1 }
      match reply with
      | some (token,refresh) => w.after (w.manager.refreshed token refresh b.2)
      | none => w

def fresh (token refresh : String) : World := { manager := { token, refresh } }

end World
end SecureGateway.Ios
