import SecureGateway.E2ee.Agreement

/-!
# The client connection loop (`ConnectionManager.java`)

Each handler is a function from the manager to the manager and the envelopes it sends.
`peer_online` sends the handshake again; `handleMessage` does not look at which transport a
message came from. Backoff, token refresh, the watchdog and callbacks are left out: here
transports come and go at any time.
-/

namespace SecureGateway.Sdk
open E2ee

inductive SysKind
  | peerOnline
  | peerOffline
  deriving DecidableEq, Repr

/- The v1 envelope, decoded. A client sends `msg` and `ack`; `sys` and `error` come
from the relay. -/
inductive Envelope
  | msg (payload : Bytes) (id : JavaString) (ts : Int64)
  | ack (id : JavaString)
  | sys (kind : SysKind)
  | errorPeerOffline
  deriving DecidableEq

namespace Envelope

def offered : Envelope → Option Bytes
  | msg payload _ _ => E2ee.offered payload
  | _ => none

end Envelope

structure Credentials where
  myPrivateKey : Bytes
  peerPublicKey : Bytes
  role : Role

/- `T` is what transports are known by. -/
structure ConnectionManager (T : Type) where
  active : Option T
  handshake : Option HandshakeCoordinator
  bufferedData : List (Bytes × JavaString × Int64)

namespace ConnectionManager
variable {T : Type} (N : Native)

def idle : ConnectionManager T := ⟨none,none,[]⟩

def teardownActive (_ : ConnectionManager T) : ConnectionManager T := idle

/- `handleOpen` on transport `t`, with the ephemeral key the new coordinator drew and
the id and time of the envelope. -/
def handleOpen (cred : Credentials) (m : ConnectionManager T) (t : T) (ephPriv : Bytes)
    (id : JavaString) (ts : Int64) : ConnectionManager T × List Envelope :=
  match HandshakeCoordinator.new N cred.myPrivateKey cred.peerPublicKey cred.role ephPriv with
  | .ok c => ({ m with active := some t, handshake := some c },[.msg c.handshakeFrame id ts])
  | .error _ => ({ m with active := some t },[])

def deliverData (c : HandshakeCoordinator) (payload : Bytes) (id : JavaString) (ts : Int64) :
    HandshakeCoordinator × List Envelope :=
  match c.onFrame N payload id ts with
  | (c,.ok (some _)) => (c,[.ack id])
  | (c,_) => (c,[])

def drainBufferedData (c : HandshakeCoordinator) :
    List (Bytes × JavaString × Int64) → HandshakeCoordinator × List Envelope
  | [] => (c,[])
  | (payload,id,ts) :: rest =>
    let r := deliverData N c payload id ts
    let r' := drainBufferedData r.1 rest
    (r'.1,r.2 ++ r'.2)

def handleMsg (m : ConnectionManager T) (c : HandshakeCoordinator) (payload : Bytes) (id : JavaString)
    (ts : Int64) : ConnectionManager T × List Envelope :=
  match payload with
  | [] => (m,[])
  | tag :: _ =>
    if tag=tagHandshake then
      match c.onFrame N payload id ts with
      | (c,.error _) => ({ m with handshake := some c },[])
      | (c,.ok _) =>
        if c.isComplete then
          let r := drainBufferedData N c m.bufferedData
          ({ m with handshake := some r.1, bufferedData := [] },r.2)
        else ({ m with handshake := some c },[])
    else if !c.isComplete then
      ({ m with bufferedData := m.bufferedData ++ [(payload,id,ts)] },[])
    else
      let r := deliverData N c payload id ts
      ({ m with handshake := some r.1 },r.2)

/-- `handleMessage`. Without a coordinator a `msg` dies in a null dereference that
changes nothing. The id and time of a resent handshake are the manager's own. -/
def handleMessage (m : ConnectionManager T) (env : Envelope) (id : JavaString) (ts : Int64) :
    ConnectionManager T × List Envelope :=
  match m.handshake with
  | none => (m,[])
  | some c =>
    match env with
    | .msg payload mid mts => handleMsg N m c payload mid mts
    | .sys .peerOnline => (m,[.msg c.handshakeFrame id ts])
    | _ => (m,[])

/-! ### What a message does to the coordinator -/

structure SameKeys (c c' : HandshakeCoordinator) : Prop where
  idPriv : c'.idPriv=c.idPriv
  peerIdPub : c'.peerIdPub=c.peerIdPub
  myRole : c'.myRole=c.myRole
  ephPriv : c'.ephPriv=c.ephPriv
  ephPub : c'.ephPub=c.ephPub
  coherent : Coherent N c → Coherent N c'

theorem SameKeys.refl (c : HandshakeCoordinator) : SameKeys N c c :=
  ⟨rfl,rfl,rfl,rfl,rfl,fun h => h⟩

variable {N} in
theorem SameKeys.trans {c c' c'' : HandshakeCoordinator} (h : SameKeys N c c')
    (h' : SameKeys N c' c'') : SameKeys N c c'' where
  idPriv := h'.idPriv.trans h.idPriv
  peerIdPub := h'.peerIdPub.trans h.peerIdPub
  myRole := h'.myRole.trans h.myRole
  ephPriv := h'.ephPriv.trans h.ephPriv
  ephPub := h'.ephPub.trans h.ephPub
  coherent hc := h'.coherent (h.coherent hc)

theorem onFrame_sameKeys (c : HandshakeCoordinator) (payload : Bytes) (id : JavaString) (ts : Int64) :
    SameKeys N c (c.onFrame N payload id ts).1 := by
  obtain ⟨h1,h2,h3,h4,h5⟩:=onFrame_keys N c payload id ts
  exact ⟨h1,h2,h3,h4,h5,coherent_onFrame N c payload id ts⟩

def IsData (payload : Bytes) : Prop := E2ee.offered payload = none

theorem deliverData_spec (c : HandshakeCoordinator) (payload : Bytes) (id : JavaString) (ts : Int64)
    (hdata : IsData payload) :
    SameKeys N c (deliverData N c payload id ts).1 ∧
      (deliverData N c payload id ts).1.sessionPeerEphPub=c.sessionPeerEphPub ∧
      ∀ env∈(deliverData N c payload id ts).2, env.offered=none := by
  have hkeys:=onFrame_sameKeys N c payload id ts
  have hlast:=onFrame_sessionPeerEphPub N c payload id ts
  rw [hdata] at hlast
  unfold deliverData
  split
  next c' pt heq =>
    rw [heq] at hkeys hlast
    exact ⟨hkeys,hlast,by simp [Envelope.offered]⟩
  next c' res _ heq =>
    rw [heq] at hkeys hlast
    exact ⟨hkeys,hlast,by simp⟩

theorem drainBufferedData_spec (c : HandshakeCoordinator) (buf : List (Bytes × JavaString × Int64))
    (hbuf : ∀ d∈buf,IsData d.1) :
    SameKeys N c (drainBufferedData N c buf).1 ∧
      (drainBufferedData N c buf).1.sessionPeerEphPub=c.sessionPeerEphPub ∧
      ∀ env∈(drainBufferedData N c buf).2, env.offered=none := by
  induction buf generalizing c with
  | nil => exact ⟨SameKeys.refl N c,rfl,by simp [drainBufferedData]⟩
  | cons d rest ih =>
    obtain ⟨payload,id,ts⟩:=d
    obtain ⟨hkeys,hlast,henv⟩ :=
      deliverData_spec N c payload id ts (hbuf (payload,id,ts) List.mem_cons_self)
    obtain ⟨hkeys',hlast',henv'⟩:=ih (deliverData N c payload id ts).1
      fun d hd => hbuf d (List.mem_cons_of_mem _ hd)
    refine ⟨hkeys.trans hkeys',hlast'.trans hlast,?_⟩
    intro env hmem
    rcases List.mem_append.mp hmem with h | h
    · exact henv env h
    · exact henv' env h

/-- What `handleMessage` leaves of a manager with a coordinator `c`. -/
structure Handled (m : ConnectionManager T) (c : HandshakeCoordinator) (env : Envelope)
    (r : ConnectionManager T × List Envelope) : Prop where
  active : r.1.active=m.active
  coord : ∃ c', r.1.handshake = some c' ∧ SameKeys N c c' ∧
    c'.sessionPeerEphPub = env.offered.orElse fun _ => c.sessionPeerEphPub
  buffer : ∀ d ∈ r.1.bufferedData, IsData d.1
  sent : ∀ env' ∈ r.2, ∀ b, env'.offered = some b → b=c.ephPub
  resent : env = .sys .peerOnline → ∃ env' ∈ r.2, env'.offered = some c.ephPub

theorem handleMsg_handled (m : ConnectionManager T) (c : HandshakeCoordinator) (payload : Bytes)
    (mid : JavaString) (mts : Int64) (hm : m.handshake=some c) (hbuf : ∀ d∈m.bufferedData,IsData d.1) :
    Handled N m c (.msg payload mid mts) (handleMsg N m c payload mid mts) := by
  have hkeys:=onFrame_sameKeys N c payload mid mts
  have hlast:=onFrame_sessionPeerEphPub N c payload mid mts
  unfold handleMsg
  split
  next =>
    exact ⟨rfl,⟨c,hm,SameKeys.refl N c,rfl⟩,hbuf,by simp,by simp⟩
  next tag body =>
    have hoff : (c.onFrame N (tag::body) mid mts).1.sessionPeerEphPub =
        (Envelope.msg (tag::body) mid mts).offered.orElse fun _ => c.sessionPeerEphPub := by
      rw [hlast]
      simp only [Envelope.offered]
      cases E2ee.offered (tag::body) <;> rfl
    split
    next htag =>
      split
      next c' e heq =>
        rw [heq] at hkeys hoff
        exact ⟨rfl,⟨c',rfl,hkeys,hoff⟩,hbuf,by simp,by simp⟩
      next c' res heq =>
        rw [heq] at hkeys hoff
        split
        next =>
          obtain ⟨hkeys',hlast',henv⟩:=drainBufferedData_spec N c' m.bufferedData hbuf
          refine ⟨rfl,⟨_,rfl,hkeys.trans hkeys',hlast'.trans hoff⟩,by simp,?_,by simp⟩
          intro env hmem b hb
          rw [henv env hmem] at hb
          cases hb
        next => exact ⟨rfl,⟨c',rfl,hkeys,hoff⟩,hbuf,by simp,by simp⟩
    next htag =>
      have hdata : IsData (tag::body) := by simp [IsData,E2ee.offered,htag]
      have hnone : (Envelope.msg (tag::body) mid mts).offered=none := hdata
      split
      next =>
        refine ⟨rfl,⟨c,hm,SameKeys.refl N c,by rw [hnone]; rfl⟩,?_,by simp,by simp⟩
        intro d hd
        rcases List.mem_append.mp hd with h | h
        · exact hbuf d h
        · rw [List.mem_singleton] at h
          exact h ▸ hdata
      next =>
        obtain ⟨hkeys',hlast',henv⟩:=deliverData_spec N c (tag::body) mid mts hdata
        refine ⟨rfl,⟨_,rfl,hkeys',by rw [hnone,hlast']; rfl⟩,hbuf,?_,by simp⟩
        intro env hmem b hb
        rw [henv env hmem] at hb
        cases hb

theorem offered_handshakeFrame (c : HandshakeCoordinator) (id : JavaString) (ts : Int64)
    (hlen : c.ephPub.length=keySize) :
    (Envelope.msg c.handshakeFrame id ts).offered=some c.ephPub := by
  simp [Envelope.offered,HandshakeCoordinator.handshakeFrame,E2ee.offered,hlen]

theorem handleMessage_handled (m : ConnectionManager T) (c : HandshakeCoordinator) (env : Envelope)
    (id : JavaString) (ts : Int64) (hm : m.handshake=some c) (hlen : c.ephPub.length=keySize)
    (hbuf : ∀ d∈m.bufferedData,IsData d.1) : Handled N m c env (handleMessage N m env id ts) := by
  have hsame : ∀ e : Envelope,e.offered=none → e ≠ .sys .peerOnline →
      Handled N m c e (m,[]) := fun e he hne =>
    ⟨rfl,⟨c,hm,SameKeys.refl N c,by rw [he]; rfl⟩,hbuf,by simp,fun h => absurd h hne⟩
  unfold handleMessage
  simp only [hm]
  cases env with
  | msg payload mid mts => exact handleMsg_handled N m c payload mid mts hm hbuf
  | ack aid => exact hsame _ rfl (by simp)
  | errorPeerOffline => exact hsame _ rfl (by simp)
  | sys kind =>
    cases kind with
    | peerOffline => exact hsame _ rfl (by simp)
    | peerOnline =>
      have hoff:=offered_handshakeFrame c id ts hlen
      refine ⟨rfl,⟨c,hm,SameKeys.refl N c,rfl⟩,hbuf,?_,fun _ => ⟨_,by simp,hoff⟩⟩
      intro env' hmem b hb
      rw [List.mem_singleton] at hmem
      rw [hmem,hoff,Option.some.injEq] at hb
      exact hb.symm

end ConnectionManager
end SecureGateway.Sdk
