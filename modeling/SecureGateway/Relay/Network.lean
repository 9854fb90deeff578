import SecureGateway.Lib.Machine
import SecureGateway.Relay.Backplane
import SecureGateway.Sdk.ConnectionManager

/-!
# Two clients and the relay between them

The frames of the two managers of a pair are on their way from a client to its relay session
(`inq`), from the session to the client (`outq`), and between instances (`fabric`).
`Register`, `Deregister`, `Route` and `deliverLocal` are one step each. Queues do not overflow,
publishing does not fail, and the clock stands still at 0 while a lease lasts until 1.
-/

namespace SecureGateway.Relay
open E2ee Sdk

/-- What the pairing exchanged: a pair id and the identity keys of both devices. -/
structure Pairing (N : Native) where
  pairID : String
  mobile : HonestKey N
  desktop : HonestKey N

namespace Pairing
variable {N : Native} (P : Pairing N)

def identity : Role → HonestKey N
  | .mobile => P.mobile
  | .desktop => P.desktop

def key (r : Role) : SlotKey := ⟨P.pairID,r⟩

def cred (r : Role) : Credentials where
  myPrivateKey := (P.identity r).priv
  peerPublicKey := (P.identity r.peer).pub
  role := r

@[simp] theorem key_inj (r r' : Role) : P.key r=P.key r' ↔ r=r' := by simp [key]

end Pairing

structure Endpoint where
  role : Role
  inst : InstanceID
  deriving DecidableEq

inductive Stage
  | accepted
  | registered
  | gone
  deriving DecidableEq

structure RoutedFrame where
  toRole : Role
  fromConn : ConnID
  data : Envelope
  deriving DecidableEq

structure Network where
  conns : ConnID → Option Endpoint
  stage : ConnID → Stage
  /- the ephemeral public key the client drew for the connection, once it is open -/
  eph : ConnID → Option Bytes
  inq : ConnID → List Envelope
  outq : ConnID → List Envelope
  slots : Slots
  localIndex : InstanceID → SlotKey → Option ConnID
  fabric : InstanceID → List RoutedFrame
  managers : Role → ConnectionManager ConnID

namespace Network

def empty : Network where
  conns _ := none
  stage _ := .accepted
  eph _ := none
  inq _ := []
  outq _ := []
  slots _ := none
  localIndex _ _ := none
  fabric _ := []
  managers _ := .idle

def enqueue (net : Network) (id : ConnID) (env : Envelope) : Network :=
  { net with outq := Function.update net.outq id (net.outq id ++ [env]) }

def send (net : Network) (t : Option ConnID) (envs : List Envelope) : Network :=
  match t with
  | some id => { net with inq := Function.update net.inq id (net.inq id ++ envs) }
  | none => net

def setIndex (net : Network) (inst : InstanceID) (key : SlotKey) (v : Option ConnID) : Network :=
  { net with localIndex :=
      Function.update net.localIndex inst (Function.update (net.localIndex inst) key v) }

variable {N : Native} (P : Pairing N)

def announcePresence (net : Network) (id : ConnID) (e : Endpoint) : Network :=
  match net.localIndex e.inst (P.key e.role.peer) with
  | some peer => (net.enqueue id (.sys .peerOnline)).enqueue peer (.sys .peerOnline)
  | none =>
    match net.slots.lookupInstance 0 (P.key e.role.peer) with
    | some inst => if inst≠e.inst then net.enqueue id (.sys .peerOnline) else net
    | none => net

/- `Register`. A displaced session goes through `Deregister` in a step of its own. -/
def register (net : Network) (id : ConnID) (e : Endpoint) : Network :=
  let slots := (net.slots.claimSlot 1 0 (P.key e.role) id e.inst).2.2
  let net := { net with slots, stage := Function.update net.stage id .registered }
  (net.setIndex e.inst (P.key e.role) (some id)).announcePresence P id e

def deregister (net : Network) (id : ConnID) (e : Endpoint) : Network :=
  let wasHolder : Bool := net.localIndex e.inst (P.key e.role) = some id
  let net := if wasHolder then net.setIndex e.inst (P.key e.role) none else net
  let net := { net with
    slots := net.slots.releaseSlot (P.key e.role) id
    stage := Function.update net.stage id .gone }
  match net.localIndex e.inst (P.key e.role.peer) with
  | some peer => if wasHolder then net.enqueue peer (.sys .peerOffline) else net
  | none => net

/- `Route`: the local peer, else the peer's instance, else an error to the sender. -/
def route (net : Network) (id : ConnID) (e : Endpoint) (env : Envelope) : Network :=
  match net.localIndex e.inst (P.key e.role.peer) with
  | some peer => net.enqueue peer env
  | none =>
    match net.slots.lookupInstance 0 (P.key e.role.peer) with
    | some inst =>
      if inst≠e.inst then
        { net with fabric :=
            Function.update net.fabric inst (net.fabric inst ++ [⟨e.role.peer,id,env⟩]) }
      else net.enqueue id .errorPeerOffline
    | none => net.enqueue id .errorPeerOffline

def deliverLocal (net : Network) (inst : InstanceID) (f : RoutedFrame) : Network :=
  match net.localIndex inst (P.key f.toRole) with
  | some id => net.enqueue id f.data
  | none => net

def setManager (net : Network) (r : Role) (m : ConnectionManager ConnID) : Network :=
  { net with managers := Function.update net.managers r m }

inductive Step (N : Native)
  | accept (id : ConnID) (role : Role) (inst : InstanceID)
  | onOpen (id : ConnID) (eph : HonestKey N) (mid : JavaString) (mts : Int64)
  | register (id : ConnID)
  | deregister (id : ConnID)
  | route (id : ConnID)
  | deliverLocal (inst : InstanceID)
  | onMessage (id : ConnID) (mid : JavaString) (mts : Int64)
  /- the application's data, and acks: any payload but a handshake -/
  | write (role : Role) (payload : Bytes) (mid : JavaString) (mts : Int64)
  | teardown (role : Role)

def next (net : Network) : Step N → Network
  | .accept id role inst =>
    if net.conns id = none then
      { net with conns := Function.update net.conns id (some ⟨role,inst⟩) }
    else net
  | .onOpen id eph mid mts =>
    match net.conns id with
    | some e =>
      if net.eph id = none then
        let r := (net.managers e.role).handleOpen N (P.cred e.role) id eph.priv mid mts
        ({ net with eph := Function.update net.eph id (some eph.pub) }.setManager e.role r.1).send
          r.1.active r.2
      else net
    | none => net
  | .register id =>
    match net.conns id with
    | some e => if net.stage id = .accepted then net.register P id e else net
    | none => net
  | .deregister id =>
    match net.conns id with
    | some e => if net.stage id = .registered then net.deregister P id e else net
    | none => net
  | .route id =>
    match net.conns id, net.inq id with
    | some e, env :: rest =>
      if net.stage id = .registered then
        { net with inq := Function.update net.inq id rest }.route P id e env
      else net
    | _, _ => net
  | .deliverLocal inst =>
    match net.fabric inst with
    | f :: rest =>
      { net with fabric := Function.update net.fabric inst rest }.deliverLocal P inst f
    | [] => net
  | .onMessage id mid mts =>
    match net.conns id, net.outq id with
    | some e, env :: rest =>
      if net.eph id ≠ none then
        let r := (net.managers e.role).handleMessage N env mid mts
        ({ net with outq := Function.update net.outq id rest }.setManager e.role r.1).send
          r.1.active r.2
      else net
    | _, _ => net
  | .write role payload mid mts =>
    if E2ee.offered payload = none then
      net.send (net.managers role).active [.msg payload mid mts]
    else net
  | .teardown role => net.setManager role (net.managers role).teardownActive

end Network
end SecureGateway.Relay
