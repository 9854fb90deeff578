import SecureGateway.E2ee.Handshake

/-!
# The session and the handshake of the iOS SDK (`Session.swift`, `HandshakeCoordinator.swift`)

The Swift files mirror the Java ones; X25519, HKDF and the AEAD are the fields of `Library`,
`none` being a call that throws or fails. Two things are Swift's own: `-` on `Int64` stops the
process where it would wrap, and strings are equal where they are canonically equivalent.
-/

namespace SecureGateway.E2ee.Swift
open Outcome
open Rekeying (Seat Input)

inductive CryptoError
  | ecdhFailed
  | sealFailed
  | openFailed
  | badLength
  | replay
  | stale
  deriving DecidableEq, Repr

/- How a call ends that does not return: with an error of the SDK or of CryptoKit, or with
the process. -/
inductive Halt
  | thrown (e : CryptoError)
  | cryptoKit
  | trap
  deriving DecidableEq, Repr

structure Library where
  /- `Curve25519.KeyAgreement`: the public key of a private one, and the agreement. -/
  publicKey : Bytes → Option Bytes
  sharedSecret : (priv pub : Bytes) → Option Bytes
  /- `HKDF<SHA256>.deriveKey` with an output of this length. -/
  hkdf : (ikm salt info : Bytes) → ℕ → Bytes
  aeadEncrypt : (key nonce aad pt : Bytes) → Option Bytes
  aeadDecrypt : (key nonce aad ct : Bytes) → Option Bytes
  /- The representative of the strings canonically equivalent to this one. -/
  canonical : String → String

variable (L : Library)

def orHalt {α : Type} (h : Halt) : Option α → Except Halt α
  | some a => .ok a
  | none => .error h

def publicFromPrivate (priv : Bytes) : Except Halt Bytes :=
  orHalt .cryptoKit (L.publicKey priv)

def sharedSecret (myPriv peerPub : Bytes) : Except Halt Bytes :=
  orHalt .cryptoKit (L.sharedSecret myPriv peerPub)

def deriveKey (ikm salt : Bytes) (dir : String) : Bytes :=
  L.hkdf ikm salt (utf8 (infoPrefix ++ dir)) keySize

def aeadSeal (key nonce aad plaintext : Bytes) : Except Halt Bytes :=
  orHalt (.thrown .sealFailed) (L.aeadEncrypt key nonce aad plaintext)

def aeadOpen (key nonce aad cipher : Bytes) : Except Halt Bytes :=
  orHalt (.thrown .openFailed) (L.aeadDecrypt key nonce aad cipher)

/- `-` on `Int64`. -/
def minus (a b : Int64) : Except Halt Int64 :=
  if (a - b).toInt = a.toInt - b.toInt then .ok (a - b) else .error .trap

def aad (id : String) (ts : Int64) : Bytes := utf8 id ++ putLong ts

/-! ### Sessions -/

structure Session where
  sendKey : Bytes
  recvKey : Bytes
  seen : Std.ExtTreeMap String Int64 compare
  lastTs : Int64
  primed : Bool

namespace Session

def new (sendKey recvKey : Bytes) : Session :=
  { sendKey, recvKey, seen := ∅, lastTs := 0, primed := false }

def create (idPriv peerIdPub ephPriv peerEphPub : Bytes) (role : Role) : Except Halt Session := do
  let myEphPub ← publicFromPrivate L ephPriv
  let ss ← sharedSecret L idPriv peerIdPub
  let ee ← sharedSecret L ephPriv peerEphPub
  match role with
  | .mobile =>
    let md ← sharedSecret L idPriv peerEphPub
    let dm ← sharedSecret L ephPriv peerIdPub
    let ikm := ss ++ ee ++ md ++ dm
    let salt := myEphPub ++ peerEphPub
    return new (deriveKey L ikm salt dirM2D) (deriveKey L ikm salt dirD2M)
  | .desktop =>
    let md ← sharedSecret L ephPriv peerIdPub
    let dm ← sharedSecret L idPriv peerEphPub
    let ikm := ss ++ ee ++ md ++ dm
    let salt := peerEphPub ++ myEphPub
    return new (deriveKey L ikm salt dirD2M) (deriveKey L ikm salt dirM2D)

def sealWith (s : Session) (nonce : Bytes) (id : String) (ts : Int64) (plaintext : Bytes) :
    Except Halt Bytes := do
  let ct ← aeadSeal L s.sendKey nonce (aad id ts) plaintext
  return nonce ++ ct

/- The first test of `checkReplay`; the floor is computed only once there is a newest time. -/
def isStale (s : Session) (ts : Int64) : Except Halt Bool :=
  if s.primed then do
    let floor ← minus s.lastTs replayWindowMillis
    return ts < floor
  else return false

def checkReplay (s : Session) (id : String) (ts : Int64) : Except Halt Session := do
  let stale ← s.isStale ts
  if stale then throw (.thrown .stale)
  if s.seen.contains (L.canonical id) then throw (.thrown .replay)
  let seen := s.seen.insert (L.canonical id) ts
  let lastTs := if !s.primed || ts > s.lastTs then ts else s.lastTs
  let floor ← minus lastTs replayWindowMillis
  return { s with seen := seen.filter (fun _ t => t ≥ floor), lastTs, primed := true }

def openWire (s : Session) (id : String) (ts : Int64) (wire : Bytes) :
    Except Halt (Bytes × Session) := do
  if wire.length<nonceSize then throw (.thrown .badLength)
  let nonce := wire.take nonceSize
  let ct := wire.drop nonceSize
  let pt ← aeadOpen L s.recvKey nonce (aad id ts) ct
  let s ← s.checkReplay L id ts
  return (pt,s)

end Session

/-! ### The coordinator -/

structure HandshakeCoordinator where
  idPriv : Bytes
  peerIdPub : Bytes
  myRole : Role
  ephPriv : Bytes
  ephPub : Bytes
  session : Option Session
  sessionPeerEphPub : Option Bytes

namespace HandshakeCoordinator

def new (myPriv peerPub : Bytes) (myRole : Role) (ephPriv ephPub : Bytes) :
    HandshakeCoordinator where
  idPriv := myPriv
  peerIdPub := peerPub
  myRole := myRole
  ephPriv := ephPriv
  ephPub := ephPub
  session := none
  sessionPeerEphPub := none

def isComplete (c : HandshakeCoordinator) : Bool := c.session.isSome

def handshakeFrame (c : HandshakeCoordinator) : Bytes := tagHandshake :: c.ephPub

def rekey (c : HandshakeCoordinator) (peerEphPub : Bytes) : Except Halt Session :=
  Session.create L c.idPriv c.peerIdPub c.ephPriv peerEphPub c.myRole

def acceptPeerEphemeral (c : HandshakeCoordinator) (peerEphPub : Bytes) :
    HandshakeCoordinator × Except Halt Unit :=
  if peerEphPub.length≠keySize then (c,.error (.thrown .badLength))
  else if c.session.isSome ∧ some peerEphPub = c.sessionPeerEphPub then (c,.ok ())
  else
    -- assigned before `create` runs, and it stays assigned when that throws
    let c := { c with sessionPeerEphPub := some peerEphPub }
    match c.rekey L peerEphPub with
    | .ok s => ({ c with session := some s },.ok ())
    | .error e => (c,.error e)

/- `none` is the `nil` of a handshake frame. -/
def onFrame (c : HandshakeCoordinator) (payload : Bytes) (id : String) (ts : Int64) :
    HandshakeCoordinator × Except Halt (Option Bytes) :=
  match payload with
  | [] => (c,.error (.thrown .badLength))
  | tag :: body =>
    if tag=tagHandshake then
      let r := c.acceptPeerEphemeral L body
      (r.1,r.2.map fun _ => none)
    else if tag=tagData then
      match c.session with
      | none => (c,.error (.thrown .openFailed))
      | some s =>
        match s.openWire L id ts body with
        | .ok (pt,s) => ({ c with session := some s },.ok (some pt))
        | .error e => (c,.error e)
    else (c,.error (.thrown .badLength))

def sealFrame (c : HandshakeCoordinator) (nonce : Bytes) (id : String) (ts : Int64)
    (plaintext : Bytes) : Except Halt Bytes :=
  match c.session with
  | none => .error (.thrown .sealFailed)
  | some s => do
    let wire ← s.sealWith L nonce id ts plaintext
    return tagData :: wire

/-! ### The coordinator as a seat -/

def seat (c : HandshakeCoordinator) : Seat Bytes Session := ⟨c.session,c.sessionPeerEphPub⟩

def input (f : Frame String) : Input Bytes Session Halt Bytes :=
  frameInput (.thrown .badLength) (.thrown .badLength) (.thrown .openFailed)
    (fun _ => .thrown .badLength) (fun body s => s.openWire L f.id f.ts body) f.payload

theorem onFrame_implements :
    Rekeying.Implements (fun c (f : Frame String) => c.onFrame L f.payload f.id f.ts) seat
      (fun c => c.rekey L) (input L) := by
  intro c f
  obtain ⟨payload,id,ts⟩:=f
  cases payload with
  | nil => exact ⟨rfl,rfl⟩
  | cons tag body =>
    simp only [onFrame,input,frameInput]
    by_cases hh : tag=tagHandshake
    · simp only [if_pos hh,acceptPeerEphemeral]
      by_cases hlen : body.length≠keySize
      · simp only [if_pos hlen]
        exact ⟨rfl,trivial⟩
      simp only [if_neg hlen,Rekeying.step]
      by_cases hsame : c.session.isSome ∧ some body=c.sessionPeerEphPub
      · rw [if_pos hsame,if_pos (by exact hsame)]
        exact ⟨rfl,rfl⟩
      rw [if_neg hsame,if_neg (by exact hsame)]
      have hkey : rekey L { c with sessionPeerEphPub := some body } body=c.rekey L body := rfl
      rw [hkey]
      cases c.rekey L body with
      | ok s => exact ⟨rfl,rfl⟩
      | error e => exact ⟨rfl,rfl⟩
    · simp only [if_neg hh]
      by_cases hd : tag=tagData
      · simp only [if_pos hd,Rekeying.step,seat]
        cases hs : c.session with
        | none => exact ⟨by rw [hs],rfl⟩
        | some s =>
          simp only
          cases s.openWire L id ts body with
          | ok r => exact ⟨rfl,rfl⟩
          | error e => exact ⟨by rw [hs],rfl⟩
      · simp only [if_neg hd]
        exact ⟨rfl,trivial⟩

end HandshakeCoordinator
end SecureGateway.E2ee.Swift
