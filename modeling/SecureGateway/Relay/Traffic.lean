import SecureGateway.Relay.Hub
import SecureGateway.Relay.Protocol

/-!
# Frames through the relay (`session.go`, `hub.go`, `protocol.go`, `redis.go`)

A read pump reads a frame, decodes it and calls `OnFrame`. The load from the `local` map, the
`Enqueue` at the peer, `LookupInstance` and `Publish` are steps of their own. Between instances
a frame is JSON in a pub/sub channel, FIFO for each publishing session, which may lose frames;
`encoding/json` is a parameter. `seq`, `reads` and `received` are history.
-/

namespace SecureGateway.Relay
open E2ee (Bytes)

/-! ### The state -/

namespace Traffic

structure RoutedFrame where
  pairID : String
  toRole : Role
  fromConn : ConnID
  data : Bytes
  deriving DecidableEq, Repr

/-- `encoding/json`, for the two types the relay uses it with. -/
structure Json (Text : Type) where
  marshal : RoutedFrame → Text
  unmarshal : Text → Option RoutedFrame
  unmarshalEnvelope : Bytes → Option (Protocol.Envelope Bytes)
  unmarshal_marshal : ∀ f, unmarshal (marshal f) = some f

/- `lookupInstance` is that of the backplane the relay is wired with. -/
structure Config (Text : Type) where
  json : Json Text
  ttl : Int
  lookupInstance : Slots → Int → SlotKey → Option InstanceID
  maxMessageBytes : Int
  outQueueSize : ℕ

/- A frame as it is read; `late` if `CloseWith` has taken effect before. -/
structure Read where
  data : Bytes
  late : Bool
  deriving DecidableEq, Repr

structure Frame where
  seq : ℕ
  data : Bytes
  deriving DecidableEq, Repr

/-- Where a read pump stands. -/
inductive Pump
  | reading
  /- `Route` has been called -/
  | routing (f : Frame)
  /- the load has found the session `peer`, whose `Enqueue` is next -/
  | enqueueing (f : Frame) (peer : ConnID)
  /- the load has found nothing -/
  | lookingUp (f : Frame)
  | publishing (f : Frame) (inst : InstanceID)
  /- `readPump` has returned -/
  | stopped
  deriving DecidableEq, Repr

def Pump.frame : Pump → Option Frame
  | .routing f | .enqueueing f _ | .lookingUp f | .publishing f _ => some f
  | .reading | .stopped => none

structure Packet (Text : Type) where
  seq : ℕ
  text : Text
  deriving DecidableEq

/- `deliverLocal` has loaded the session `dest`, whose `Enqueue` is next. -/
structure Handling where
  src : ConnID
  dest : ConnID
  frame : Frame
  deriving DecidableEq, Repr

structure Delivery where
  src : ConnID
  frame : Frame
  deriving DecidableEq, Repr

end Traffic

structure Traffic (Text : Type) where
  hub : State
  pump : ConnID → Traffic.Pump
  reads : ConnID → List Traffic.Read
  fabric : ConnID → InstanceID → List (Traffic.Packet Text)
  handling : InstanceID → Option Traffic.Handling
  /- the frames in the channel `out` of a session, also those of the relay itself -/
  queued : ConnID → ℕ
  received : ConnID → List Traffic.Delivery

namespace Traffic
variable {Text : Type} (cfg : Config Text)

def empty : Traffic Text where
  hub := .empty
  pump _ := .reading
  reads _ := []
  fabric _ _ := []
  handling _ := none
  queued _ := 0
  received _ := []

def setPump (w : Traffic Text) (id : ConnID) (p : Pump) : Traffic Text :=
  { w with pump := Function.update w.pump id p }

def setFabric (w : Traffic Text) (id : ConnID) (inst : InstanceID) (ps : List (Packet Text)) :
    Traffic Text :=
  { w with fabric := Function.update w.fabric id (Function.update (w.fabric id) inst ps) }

def setHandling (w : Traffic Text) (inst : InstanceID) (h : Option Handling) : Traffic Text :=
  { w with handling := Function.update w.handling inst h }

/- The context of a session is cancelled by `CloseWith` and when `readPump` has returned. -/
def cancelled (w : Traffic Text) (id : ConnID) : Bool :=
  (w.hub.closed id).isSome || w.pump id == .stopped

/- Whether `Enqueue` takes the frame. With room in the queue and a cancelled context both
cases of its `select` are ready, and `pick` is the choice. -/
def takes (w : Traffic Text) (id : ConnID) (pick : Bool) : Bool :=
  w.queued id < cfg.outQueueSize && (!w.cancelled id || pick)

/- `SendSys`, `SendError`: the relay's own messages share the queue. -/
def send (w : Traffic Text) (id : ConnID) (pick : Bool) : Traffic Text :=
  { w with queued :=
      if w.takes cfg id pick then Function.update w.queued id (w.queued id + 1) else w.queued }

def closeWith (w : Traffic Text) (id : ConnID) (code : CloseCode) : Traffic Text :=
  { w with hub := w.hub.next cfg.ttl (.close id code) }

def deliver (w : Traffic Text) (id : ConnID) (d : Delivery) : Traffic Text :=
  { w with
    queued := Function.update w.queued id (w.queued id + 1)
    received := Function.update w.received id (w.received id ++ [d]) }

/-! ### The read pump -/

def record (w : Traffic Text) (id : ConnID) (data : Bytes) : Traffic Text :=
  { w with reads :=
      Function.update w.reads id (w.reads id ++ [⟨data,(w.hub.closed id).isSome⟩]) }

/- `OnFrame`. What an `auth_refresh` does to the session is a close or nothing that
concerns frames; `sys` and `error` are ignored. -/
def onFrame (env : Protocol.Envelope Bytes) (f : Frame) : Pump :=
  if env.type=Protocol.typeMsg ∨ env.type=Protocol.typeAck then .routing f else .reading

def readPump (w : Traffic Text) (id : ConnID) (data : Bytes) : Traffic Text :=
  let f : Frame := ⟨(w.reads id).length,data⟩
  match Protocol.decode cfg.json.unmarshalEnvelope cfg.maxMessageBytes data with
  | .ok env => (w.record id data).setPump id (onFrame env f)
  | .error _ => ((w.record id data).closeWith cfg id .protocol).setPump id .stopped

/-! ### `Route` -/

def afterLoad (w : Traffic Text) (c : Session) (f : Frame) : Pump :=
  match w.hub.localIndex c.inst c.key.peer with
  | some peer => .enqueueing f peer
  | none => .lookingUp f

def enqueue (w : Traffic Text) (id : ConnID) (f : Frame) (peer : ConnID) (pick pick' : Bool) :
    Traffic Text :=
  if w.takes cfg peer pick then (w.deliver peer ⟨id,f⟩).setPump id .reading
  else ((w.closeWith cfg peer .protocol).send cfg id pick').setPump id .reading

/- The instance the frame is published to: `inst != "" && inst != h.instanceID`. -/
def route (w : Traffic Text) (c : Session) (now : Int) : Option InstanceID :=
  (cfg.lookupInstance w.hub.slots now c.key.peer).filter fun inst => inst != "" && inst != c.inst

def lookup (w : Traffic Text) (id : ConnID) (c : Session) (f : Frame) (now : Int)
    (fails pick : Bool) : Traffic Text :=
  match if fails then none else w.route cfg c now with
  | some inst => w.setPump id (.publishing f inst)
  | none => (w.send cfg id pick).setPump id .reading

def routed (id : ConnID) (c : Session) (f : Frame) : RoutedFrame :=
  ⟨c.key.pairID,c.key.role.peer,id,f.data⟩

def publish (w : Traffic Text) (id : ConnID) (c : Session) (f : Frame) (inst : InstanceID)
    (fails pick : Bool) : Traffic Text :=
  if fails then (w.send cfg id pick).setPump id .reading
  else
    (w.setFabric id inst
      (w.fabric id inst ++ [⟨f.seq,cfg.json.marshal (routed id c f)⟩])).setPump id .reading

/-! ### `deliverLocal` -/

def loaded (w : Traffic Text) (inst : InstanceID) (id : ConnID) (p : Packet Text) :
    Option Handling :=
  match cfg.json.unmarshal p.text with
  | some f =>
    (w.hub.localIndex inst ⟨f.pairID,f.toRole⟩).map fun dest => ⟨id,dest,⟨p.seq,f.data⟩⟩
  | none => none

def hand (w : Traffic Text) (inst : InstanceID) (h : Handling) (pick : Bool) : Traffic Text :=
  let w := w.setHandling inst none
  if w.takes cfg h.dest pick then w.deliver h.dest ⟨h.src,h.frame⟩ else w

/-! ### Steps -/

inductive Step
  /- `Register`, `Deregister`, renewals, evictions, revocations and closes -/
  | hub (a : Relay.Step)
  | read (id : ConnID) (data : Bytes)
  | readFails (id : ConnID)
  | load (id : ConnID)
  | enqueue (id : ConnID) (pick pick' : Bool)
  | lookup (id : ConnID) (now : Int) (fails pick : Bool)
  | publish (id : ConnID) (fails pick : Bool)
  | lose (id : ConnID) (inst : InstanceID) (n : ℕ)
  | receive (inst : InstanceID) (id : ConnID)
  | hand (inst : InstanceID) (pick : Bool)
  | sendSys (id : ConnID) (pick : Bool)
  | write (id : ConnID)
  deriving DecidableEq

/- `Serve` returns only after `readPump` has. -/
def serves (w : Traffic Text) : Relay.Step → Bool
  | .unwind id => w.pump id != .stopped
  | _ => false

def next (w : Traffic Text) : Step → Traffic Text
  | .hub a => if w.serves a then w else { w with hub := w.hub.next cfg.ttl a }
  | .read id data =>
    match w.hub.sessions id, w.pump id with
    | some c, .reading => if c.phase=.serving then w.readPump cfg id data else w
    | _, _ => w
  | .readFails id => if w.pump id = .reading then w.setPump id .stopped else w
  | .load id =>
    match w.hub.sessions id, w.pump id with
    | some c, .routing f => w.setPump id (w.afterLoad c f)
    | _, _ => w
  | .enqueue id pick pick' =>
    match w.pump id with
    | .enqueueing f peer => w.enqueue cfg id f peer pick pick'
    | _ => w
  | .lookup id now fails pick =>
    match w.hub.sessions id, w.pump id with
    | some c, .lookingUp f => w.lookup cfg id c f now fails pick
    | _, _ => w
  | .publish id fails pick =>
    match w.hub.sessions id, w.pump id with
    | some c, .publishing f inst => w.publish cfg id c f inst fails pick
    | _, _ => w
  | .lose id inst n => w.setFabric id inst ((w.fabric id inst).eraseIdx n)
  | .receive inst id =>
    match w.handling inst, w.fabric id inst with
    | none, p :: rest => (w.setFabric id inst rest).setHandling inst (w.loaded cfg inst id p)
    | _, _ => w
  | .hand inst pick =>
    match w.handling inst with
    | some h => w.hand cfg inst h pick
    | none => w
  | .sendSys id pick => w.send cfg id pick
  | .write id => { w with queued := Function.update w.queued id (w.queued id - 1) }

/-! ### What one step can do -/

inductive Moves (w : Traffic Text) : Step → Traffic Text → Prop
  | idle (a : Step) : Moves w a w
  | hub (a : Relay.Step) : Moves w (.hub a) { w with hub := w.hub.next cfg.ttl a }
  | read (id : ConnID) (data : Bytes) (p : Pump) (hp : w.pump id = .reading)
      (hf : p=.reading ∨ p = .routing ⟨(w.reads id).length,data⟩) :
      Moves w (.read id data) ((w.record id data).setPump id p)
  | rejected (id : ConnID) (data : Bytes) (hp : w.pump id = .reading) :
      Moves w (.read id data) (((w.record id data).closeWith cfg id .protocol).setPump id .stopped)
  | readFails (id : ConnID) : Moves w (.readFails id) (w.setPump id .stopped)
  | found (id : ConnID) (c : Session) (f : Frame) (peer : ConnID)
      (hc : w.hub.sessions id = some c) (hp : w.pump id = .routing f)
      (hl : w.hub.localIndex c.inst c.key.peer = some peer) :
      Moves w (.load id) (w.setPump id (.enqueueing f peer))
  | absent (id : ConnID) (f : Frame) (hp : w.pump id = .routing f) :
      Moves w (.load id) (w.setPump id (.lookingUp f))
  | enqueued (id : ConnID) (f : Frame) (peer : ConnID) (pick pick' : Bool)
      (hp : w.pump id = .enqueueing f peer) :
      Moves w (.enqueue id pick pick') ((w.deliver peer ⟨id,f⟩).setPump id .reading)
  | refused (id : ConnID) (peer : ConnID) (pick pick' : Bool) :
      Moves w (.enqueue id pick pick')
        (((w.closeWith cfg peer .protocol).send cfg id pick').setPump id .reading)
  | lookup (id : ConnID) (c : Session) (f : Frame) (now : Int) (pick : Bool) (inst : InstanceID)
      (hc : w.hub.sessions id = some c) (hp : w.pump id = .lookingUp f)
      (hr : w.route cfg c now = some inst) :
      Moves w (.lookup id now false pick) (w.setPump id (.publishing f inst))
  | peerOffline (a : Step) (id : ConnID) (pick : Bool) :
      Moves w a ((w.send cfg id pick).setPump id .reading)
  | publish (id : ConnID) (c : Session) (f : Frame) (inst : InstanceID) (pick : Bool)
      (hc : w.hub.sessions id = some c) (hp : w.pump id = .publishing f inst) :
      Moves w (.publish id false pick)
        ((w.setFabric id inst
          (w.fabric id inst ++ [⟨f.seq,cfg.json.marshal (routed id c f)⟩])).setPump id .reading)
  | lose (id : ConnID) (inst : InstanceID) (n : ℕ) :
      Moves w (.lose id inst n) (w.setFabric id inst ((w.fabric id inst).eraseIdx n))
  | receive (inst : InstanceID) (id : ConnID) (p : Packet Text) (rest : List (Packet Text))
      (hh : w.handling inst = none) (hf : w.fabric id inst = p :: rest) :
      Moves w (.receive inst id)
        ((w.setFabric id inst rest).setHandling inst (w.loaded cfg inst id p))
  | handed (inst : InstanceID) (h : Handling) (pick : Bool) (hh : w.handling inst = some h) :
      Moves w (.hand inst pick) ((w.setHandling inst none).deliver h.dest ⟨h.src,h.frame⟩)
  | dropped (inst : InstanceID) (pick : Bool) :
      Moves w (.hand inst pick) (w.setHandling inst none)
  | queue (a : Step) (q : ConnID → ℕ) : Moves w a { w with queued := q }

variable (w : Traffic Text)

theorem readPump_moves (id : ConnID) (data : Bytes) (hp : w.pump id = .reading) :
    Moves cfg w (.read id data) (w.readPump cfg id data) := by
  simp only [readPump]
  split
  next env henv =>
    refine .read id data _ hp ?_
    unfold onFrame
    split
    · exact Or.inr rfl
    · exact Or.inl rfl
  next => exact .rejected id data hp

theorem load_moves (id : ConnID) (c : Session) (f : Frame) (hc : w.hub.sessions id=some c)
    (hp : w.pump id = .routing f) : Moves cfg w (.load id) (w.setPump id (w.afterLoad c f)) := by
  unfold afterLoad
  split
  next peer hl => exact .found id c f peer hc hp hl
  next => exact .absent id f hp

theorem lookup_moves (id : ConnID) (c : Session) (f : Frame) (now : Int) (fails pick : Bool)
    (hc : w.hub.sessions id=some c) (hp : w.pump id = .lookingUp f) :
    Moves cfg w (.lookup id now fails pick) (w.lookup cfg id c f now fails pick) := by
  unfold lookup
  cases fails with
  | true => exact .peerOffline _ id pick
  | false =>
    simp only [Bool.false_eq_true,if_false]
    split
    next inst hr => exact .lookup id c f now pick inst hc hp hr
    next => exact .peerOffline _ id pick

theorem next_moves (a : Step) : Moves cfg w a (w.next cfg a) := by
  cases a with
  | hub a =>
    simp only [next]
    split
    next => exact .idle _
    next => exact .hub a
  | read id data =>
    simp only [next]
    split
    next c hc hp =>
      split
      next => exact readPump_moves cfg w id data hp
      next => exact .idle _
    next => exact .idle _
  | readFails id =>
    simp only [next]
    split
    next => exact .readFails id
    next => exact .idle _
  | load id =>
    simp only [next]
    split
    next c f hc hp => exact load_moves cfg w id c f hc hp
    next => exact .idle _
  | enqueue id pick pick' =>
    simp only [next]
    split
    next f peer hp =>
      unfold enqueue
      split
      next => exact .enqueued id f peer pick pick' hp
      next => exact .refused id peer pick pick'
    next => exact .idle _
  | lookup id now fails pick =>
    simp only [next]
    split
    next c f hc hp => exact lookup_moves cfg w id c f now fails pick hc hp
    next => exact .idle _
  | publish id fails pick =>
    simp only [next]
    split
    next c f inst hc hp =>
      cases fails with
      | true => exact .peerOffline _ id pick
      | false => exact .publish id c f inst pick hc hp
    next => exact .idle _
  | lose id inst n => exact .lose id inst n
  | receive inst id =>
    simp only [next]
    split
    next p rest hh hf => exact .receive inst id p rest hh hf
    next => exact .idle _
  | hand inst pick =>
    simp only [next]
    split
    next h hh =>
      simp only [hand]
      split
      next => exact .handed inst h pick hh
      next => exact .dropped inst pick
    next => exact .idle _
  | sendSys id pick => exact .queue _ _
  | write id => exact .queue _ _

end Traffic
end SecureGateway.Relay
