import SecureGateway.Relay.IndexCompleteness

/-!
# Presence notices (`hub.go`: `announcePresence`, `Deregister`)

After its `Store`, `Register` tells both ends that the other is online; after a
`CompareAndDelete` that deleted, `Deregister` tells the peer that it has left. Each load, each
`LookupInstance` and each enqueue is a step of its own. Queues have room.
-/

namespace SecureGateway.Relay

inductive Notice
  | peerOnline
  | peerOffline
  deriving DecidableEq, Repr

/-- Where a call stands: `announcePresence` up to `tellSelfRemote`, then `Deregister`
after its `CompareAndDelete` has deleted the session's own entry. -/
inductive TalkStage
  | loadPeer
  | tellSelf (peer : ConnID)
  | tellPeer (peer : ConnID)
  | lookUp
  | tellSelfRemote
  | release
  | loadLeft
  | tellLeft (peer : ConnID)
  deriving DecidableEq, Repr

def TalkStage.announcing : TalkStage → Bool
  | .loadPeer | .tellSelf _ | .tellPeer _ => true
  | _ => false

def TalkStage.leaving : TalkStage → Bool
  | .release | .loadLeft | .tellLeft _ => true
  | _ => false

def TalkStage.tellsSelf : TalkStage → Bool
  | .tellSelf _ => true
  | _ => false

structure Talk where
  id : ConnID
  key : SlotKey
  inst : InstanceID
  stage : TalkStage
  deriving DecidableEq, Repr

def Talk.target (t : Talk) : Option ConnID :=
  match t.stage with
  | .tellSelf _ | .tellSelfRemote => some t.id
  | .tellPeer peer | .tellLeft peer => some peer
  | .loadPeer | .lookUp | .release | .loadLeft => none

/- `sent` has the newest notice first. -/
structure Presence where
  hub : State
  talks : List Talk
  cancelled : ConnID → Bool
  sent : ConnID → List Notice

namespace Presence

inductive Step
  | hub (a : Relay.Step)
  /- `readPump` has returned or the server's context has ended -/
  | cancel (id : ConnID)
  /- the next step of the `n`-th call -/
  | talk (n : ℕ) (now : Int) (fails pick : Bool)
  deriving DecidableEq

def empty : Presence where
  hub := .empty
  talks := []
  cancelled _ := false
  sent _ := []

def done (p : Presence) (id : ConnID) : Bool := (p.hub.closed id).isSome || p.cancelled id

/- `SendSys`. Once the context is done both cases of `Enqueue`'s select are ready and
`pick` is the choice. -/
def sendSys (p : Presence) (dest : ConnID) (n : Notice) (pick : Bool) : Presence :=
  if !p.done dest || pick then
    { p with sent := Function.update p.sent dest (n :: p.sent dest) }
  else p

def goOn (p : Presence) (n : ℕ) (t : Talk) (stage : TalkStage) : Presence :=
  { p with talks := p.talks.set n { t with stage } }

def finish (p : Presence) (n : ℕ) : Presence := { p with talks := p.talks.eraseIdx n }

/- `inst, _ := h.bp.LookupInstance(ctx, pk)`: a failed lookup names no instance. -/
def peerElsewhere (p : Presence) (t : Talk) (now : Int) (fails : Bool) : Bool :=
  match p.hub.slots.lookupInstance now t.key.peer with
  | some inst => !fails && inst != "" && inst != t.inst
  | none => false

def talkStep (p : Presence) (n : ℕ) (t : Talk) (now : Int) (fails pick : Bool) : Presence :=
  match t.stage with
  | .loadPeer =>
    match p.hub.localIndex t.inst t.key.peer with
    | some peer => p.goOn n t (.tellSelf peer)
    | none => p.goOn n t .lookUp
  | .tellSelf peer => (p.sendSys t.id .peerOnline pick).goOn n t (.tellPeer peer)
  | .tellPeer peer => (p.sendSys peer .peerOnline pick).finish n
  | .lookUp => if p.peerElsewhere t now fails then p.goOn n t .tellSelfRemote else p.finish n
  | .tellSelfRemote => (p.sendSys t.id .peerOnline pick).finish n
  -- `ReleaseSlot` is the hub's step
  | .release => p
  | .loadLeft =>
    match p.hub.localIndex t.inst t.key.peer with
    | some peer => p.goOn n t (.tellLeft peer)
    | none => p.finish n
  | .tellLeft peer => (p.sendSys peer .peerOffline pick).finish n

def stored (st : State) (id : ConnID) : List Talk :=
  match st.sessions id with
  | some c => if c.phase=.indexing then [⟨id,c.key,c.inst,.loadPeer⟩] else []
  | none => []

def wasHolder (st : State) (id : ConnID) : List Talk :=
  match st.sessions id with
  | some c =>
    if c.phase=.deregistering ∧ st.localIndex c.inst c.key = some id then
      [⟨id,c.key,c.inst,.release⟩]
    else []
  | none => []

def afterRelease (id : ConnID) (t : Talk) : Talk :=
  if t.id=id ∧ t.stage=.release then { t with stage := .loadLeft } else t

variable (ttl : Int)

def hubStep (p : Presence) (a : Relay.Step) : Presence :=
  match a with
  | .store id => { p with hub := p.hub.next ttl a, talks := p.talks ++ stored p.hub id }
  | .compareAndDelete id =>
    { p with hub := p.hub.next ttl a, talks := p.talks ++ wasHolder p.hub id }
  | .releaseSlot id _ =>
    { p with hub := p.hub.next ttl a, talks := p.talks.map (afterRelease id) }
  -- `Serve` begins when `Register` has returned, and cancels the context at its end
  | .unwind id =>
    if p.talks.any (·.id == id) then p
    else { p with hub := p.hub.next ttl a, cancelled := Function.update p.cancelled id true }
  | _ => { p with hub := p.hub.next ttl a }

def next (p : Presence) : Step → Presence
  | .hub a => p.hubStep ttl a
  | .cancel id => { p with cancelled := Function.update p.cancelled id true }
  | .talk n now fails pick =>
    match p.talks[n]? with
    | some t => p.talkStep n t now fails pick
    | none => p

def AtRest (p : Presence) : Prop := p.hub.Quiet ∧ p.talks=[]

def truth (idx : SlotKey → Option ConnID) (key : SlotKey) : Notice :=
  if (idx key.peer).isSome then .peerOnline else .peerOffline

def onInstance (inst : InstanceID) : Step → Bool
  | .hub (.accept _ _ _ i) => i == inst
  | _ => true

/-- No session is stored while a `Deregister` of its slot still has a notice to send;
no entry is deleted while a `Register` of the slot is announcing, or one of the peer's
slot has loaded the entry and not told itself; and no session that is still in the
index loses a notice to its cancelled context. -/
def orderly (inst : InstanceID) (p : Presence) : Step → Bool
  | .hub (.store id) =>
    match p.hub.sessions id with
    | some c => !p.talks.any fun t => t.key == c.key && t.stage.leaving
    | none => true
  | .hub (.compareAndDelete id) =>
    match p.hub.sessions id with
    | some c =>
      p.hub.localIndex c.inst c.key != some id ||
        !p.talks.any fun t => (t.key == c.key && t.stage.announcing) ||
          (t.key == c.key.peer && t.stage.tellsSelf)
    | none => true
  | .talk n _ _ pick =>
    match p.talks[n]? with
    | some t =>
      match t.target with
      | some dest =>
        !p.done dest || pick ||
          match p.hub.sessions dest with
          | some c => p.hub.localIndex inst c.key != some dest
          | none => true
      | none => true
    | none => true
  | _ => true

end Presence
end SecureGateway.Relay
