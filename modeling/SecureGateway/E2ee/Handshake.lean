import SecureGateway.Lib.Rekeying
import SecureGateway.E2ee.Session

/-!
# The in-band handshake (`HandshakeCoordinator.java`)

One coordinator lives as long as one transport connection of the SDK. Its own
ephemeral key is fixed at construction; a handshake frame with a peer ephemeral
other than the last one rebuilds the `Session`, and with it the anti-replay
window.
-/

namespace SecureGateway.E2ee
open Outcome
open Rekeying (Seat Input)

def tagHandshake : UInt8 := 0x01
def tagData : UInt8 := 0x02

/- What is fed to a coordinator: a payload with the id and time of its envelope. -/
structure Frame (Id : Type) where
  payload : Bytes
  id : Id
  ts : Int64
  deriving DecidableEq

def offered (payload : Bytes) : Option Bytes :=
  match payload with
  | [] => none
  | tag :: body => if tag=tagHandshake ∧ body.length=keySize then some body else none

section
variable {σ ε : Type} (empty badLength unready : ε) (unknown : UInt8 → ε)
  (opens : Bytes → σ → Except ε (Bytes × σ))

/- What a payload asks of a coordinator, with the errors of its implementation. -/
def frameInput (payload : Bytes) : Input Bytes σ ε Bytes :=
  match payload with
  | [] => .refuse empty
  | tag :: body =>
    if tag=tagHandshake then if body.length≠keySize then .refuse badLength else .offer body
    else if tag=tagData then .use unready (opens body)
    else .refuse (unknown tag)

theorem frameInput_offered (payload : Bytes) :
    (frameInput empty badLength unready unknown opens payload).offered=offered payload := by
  unfold frameInput offered
  split
  · rfl
  next tag body =>
    by_cases hh : tag=tagHandshake
    · by_cases hlen : body.length=keySize <;> simp [hh,hlen,Input.offered]
    · simp only [hh,false_and,if_false]
      split <;> rfl

variable {empty badLength unready unknown opens} in
theorem frameInput_eq_use {payload : Bytes} {e : ε} {u : σ → Except ε (Bytes × σ)}
    (h : frameInput empty badLength unready unknown opens payload = .use e u) :
    ∃ body,payload=tagData::body ∧ u=opens body := by
  unfold frameInput at h
  split at h
  · cases h
  next tag body =>
    split at h
    · split at h <;> cases h
    split at h
    next hd =>
      cases h
      exact ⟨body,by rw [hd],rfl⟩
    · cases h

end

structure HandshakeCoordinator where
  idPriv : Bytes
  peerIdPub : Bytes
  myRole : Role
  ephPriv : Bytes
  ephPub : Bytes
  session : Option Session
  sessionPeerEphPub : Option Bytes

namespace HandshakeCoordinator
variable (N : Native)

/- The constructor. `ephPriv` is what `Crypto.generateKeyPair` drew. -/
def new (idPriv peerIdPub : Bytes) (myRole : Role) (ephPriv : Bytes) :
    Except Thrown HandshakeCoordinator := do
  let ephPub ← publicFromPrivate N ephPriv
  return { idPriv, peerIdPub, myRole, ephPriv, ephPub, session := none, sessionPeerEphPub := none }

def handshakeFrame (c : HandshakeCoordinator) : Bytes := tagHandshake :: c.ephPub

def isComplete (c : HandshakeCoordinator) : Bool := c.session.isSome

/- The `Session.create` call of `acceptPeerEphemeral`: all arguments but the peer
ephemeral are fixed for the life of the coordinator. -/
def rekey (c : HandshakeCoordinator) (peerEphPub : Bytes) : Except Thrown Session :=
  Session.create N c.idPriv c.peerIdPub c.ephPriv peerEphPub c.myRole

def acceptPeerEphemeral (c : HandshakeCoordinator) (peerEphPub : Bytes) :
    HandshakeCoordinator × Except Thrown Unit :=
  if peerEphPub.length≠keySize then
    (c,.error (.illegalArgument
      ("peer ephemeral public key must be " ++ toString keySize ++ " bytes")))
  else if c.session.isSome ∧ some peerEphPub = c.sessionPeerEphPub then
    (c,.ok ())
  else
    -- the field is assigned before `create` runs, and stays assigned when it throws
    let c := { c with sessionPeerEphPub := some peerEphPub }
    match c.rekey N peerEphPub with
    | .ok s => ({ c with session := some s },.ok ())
    | .error e => (c,.error e)

/-- `onFrame`: `none` is the source's `null` for a handshake frame. -/
def onFrame (c : HandshakeCoordinator) (payload : Bytes) (id : JavaString) (ts : Int64) :
    HandshakeCoordinator × Except Thrown (Option Bytes) :=
  match payload with
  | [] => (c,.error (.illegalArgument "empty session frame"))
  | tag :: body =>
    if tag=tagHandshake then
      let r := c.acceptPeerEphemeral N body
      (r.1,r.2.map fun _ => none)
    else if tag=tagData then
      match c.session with
      | none => (c,.error (.illegalState "data frame before handshake complete"))
      | some s =>
        match s.openWire N id ts body with
        | .ok (pt,s) => ({ c with session := some s },.ok (some pt))
        | .error e => (c,.error e)
    else
      (c,.error (.illegalArgument ("unknown session frame tag: " ++ toString tag.toInt8.toInt)))

/- `sealFrame` with the nonce that `Crypto.randomNonce` drew. -/
def sealFrame (c : HandshakeCoordinator) (nonce : Bytes) (id : JavaString) (ts : Int64)
    (plaintext : Bytes) : Except Thrown Bytes :=
  match c.session with
  | none => .error (.illegalState "cannot seal before handshake complete")
  | some s => do
    let wire ← s.sealWith N nonce id ts plaintext
    return tagData :: wire

/-! ### What one frame can do -/

/-- Every effect of `onFrame`, by the frame that causes it. -/
inductive Effect (c : HandshakeCoordinator) (payload : Bytes) (id : JavaString) (ts : Int64) :
    HandshakeCoordinator × Except Thrown (Option Bytes) → Prop
  | refused (e : Thrown) (h : offered payload = none) : Effect c payload id ts (c,.error e)
  | repeated (body : Bytes) (h : offered payload = some body) (hs : c.session.isSome)
      (hb : c.sessionPeerEphPub = some body) : Effect c payload id ts (c,.ok none)
  | rekeyFailed (body : Bytes) (e : Thrown) (h : offered payload = some body)
      (herr : c.rekey N body = .error e) :
      Effect c payload id ts ({ c with sessionPeerEphPub := some body },.error e)
  | rekeyed (body : Bytes) (s : Session) (h : offered payload = some body)
      (hnew : ¬ (c.session.isSome ∧ c.sessionPeerEphPub = some body))
      (hs : c.rekey N body = .ok s) :
      Effect c payload id ts
        ({ c with sessionPeerEphPub := some body, session := some s },.ok none)
  | opened (wire pt : Bytes) (s s' : Session) (hp : payload=tagData :: wire)
      (hs : c.session = some s) (ho : s.openWire N id ts wire = .ok (pt,s')) :
      Effect c payload id ts ({ c with session := some s' },.ok (some pt))

variable (c : HandshakeCoordinator)

theorem acceptPeerEphemeral_effect (body : Bytes) (id : JavaString) (ts : Int64) :
    Effect N c (tagHandshake::body) id ts
      ((c.acceptPeerEphemeral N body).1,(c.acceptPeerEphemeral N body).2.map fun _ => none) := by
  unfold acceptPeerEphemeral
  split
  next hlen =>
    exact .refused _ (by simp [offered,hlen])
  next hlen =>
    have hoff : offered (tagHandshake::body)=some body := by
      simp only [not_not] at hlen
      simp [offered,hlen]
    split
    next hrep => exact .repeated body hoff hrep.1 hrep.2.symm
    next hrep =>
      cases hk : c.rekey N body with
      | error e =>
        have hk' : rekey N { c with sessionPeerEphPub := some body } body = .error e := hk
        simp only [hk',Except.map]
        exact .rekeyFailed body e hoff hk
      | ok s =>
        have hk' : rekey N { c with sessionPeerEphPub := some body } body = .ok s := hk
        simp only [hk',Except.map]
        exact .rekeyed body s hoff (fun h => hrep ⟨h.1,h.2.symm⟩) hk

theorem onFrame_effect (payload : Bytes) (id : JavaString) (ts : Int64) :
    Effect N c payload id ts (c.onFrame N payload id ts) := by
  unfold onFrame
  split
  next => exact .refused _ rfl
  next tag body =>
    by_cases hh : tag=tagHandshake
    · subst hh
      simp only [if_pos]
      exact acceptPeerEphemeral_effect N c body id ts
    have hoff : offered (tag::body)=none := by simp [offered,hh]
    simp only [if_neg hh]
    split
    next hd =>
      subst hd
      split
      next => exact .refused _ hoff
      next s hs =>
        split
        next pt s' ho => exact .opened body pt s s' rfl hs ho
        next e ho => exact .refused _ hoff
    next => exact .refused _ hoff

theorem sealFrame_eq_ok (nonce : Bytes) (id : JavaString) (ts : Int64) (plaintext payload : Bytes)
    (h : c.sealFrame N nonce id ts plaintext = .ok payload) :
    ∃ s ct,c.session=some s ∧ aeadEncrypt N s.sendKey nonce (aad id ts) plaintext = .ok ct ∧
      payload=tagData::(nonce++ct) := by
  unfold sealFrame at h
  cases hs : c.session with
  | none => simp [hs] at h
  | some s =>
    simp only [hs,Session.sealWith,bind_eq_ok,pure_eq_ok] at h
    obtain ⟨wire,⟨ct,hct,rfl⟩,rfl⟩:=h
    exact ⟨s,ct,rfl,hct,rfl⟩

/-! ### The coordinator as a seat -/

def seat (c : HandshakeCoordinator) : Seat Bytes Session := ⟨c.session,c.sessionPeerEphPub⟩

def input (f : Frame JavaString) : Input Bytes Session Thrown Bytes :=
  frameInput (.illegalArgument "empty session frame")
    (.illegalArgument ("peer ephemeral public key must be " ++ toString keySize ++ " bytes"))
    (.illegalState "data frame before handshake complete")
    (fun tag => .illegalArgument ("unknown session frame tag: " ++ toString tag.toInt8.toInt))
    (fun body s => s.openWire N f.id f.ts body) f.payload

theorem onFrame_implements :
    Rekeying.Implements (fun c (f : Frame JavaString) => c.onFrame N f.payload f.id f.ts) seat
      (fun c => c.rekey N) (input N) := by
  intro c f
  obtain ⟨payload,id,ts⟩:=f
  cases payload with
  | nil => exact ⟨rfl,rfl⟩
  | cons tag body =>
    simp only [onFrame,input,frameInput]
    by_cases hh : tag=tagHandshake
    · simp only [if_pos hh,acceptPeerEphemeral]
      by_cases hlen : body.length≠keySize
      · simp only [if_pos hlen]
        exact ⟨rfl,trivial⟩
      simp only [if_neg hlen,Rekeying.step]
      by_cases hsame : c.session.isSome ∧ some body=c.sessionPeerEphPub
      · rw [if_pos hsame,if_pos (by exact hsame)]
        exact ⟨rfl,rfl⟩
      rw [if_neg hsame,if_neg (by exact hsame)]
      have hkey : rekey N { c with sessionPeerEphPub := some body } body=c.rekey N body := rfl
      rw [hkey]
      cases c.rekey N body with
      | ok s => exact ⟨rfl,rfl⟩
      | error e => exact ⟨rfl,rfl⟩
    · simp only [if_neg hh]
      by_cases hd : tag=tagData
      · simp only [if_pos hd,Rekeying.step,seat]
        cases hs : c.session with
        | none => exact ⟨by rw [hs],rfl⟩
        | some s =>
          simp only
          cases s.openWire N id ts body with
          | ok r => exact ⟨rfl,rfl⟩
          | error e => exact ⟨by rw [hs],rfl⟩
      · simp only [if_neg hd]
        exact ⟨rfl,trivial⟩

end HandshakeCoordinator
end SecureGateway.E2ee
