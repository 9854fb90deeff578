import SecureGateway.E2ee.Session

/-!
# The Go reference implementation (`e2ee.go`)

Package `e2ee` is what the SDKs have to match. X25519, HKDF and the AEAD are the fields of
`Library`. Errors carry their texts, those of the library wrapped in them. An id is a Go
string, any sequence of bytes.
-/

namespace SecureGateway.E2ee.Go
open Outcome ReplayWindow

/- `[KeySize]byte`. -/
abbrev Key := {b : Bytes // b.length = keySize}

structure Library where
  /- `curve25519.X25519`. -/
  x25519 : (scalar point : Bytes) → Except String Bytes
  basepoint : Bytes
  /- `io.ReadFull` of the given number of bytes from `hkdf.New(sha256.New, ..)`. -/
  hkdf : (secret salt info : Bytes) → (n : ℕ) → Except String {b : Bytes // b.length = n}
  /- `Seal` and `Open` of `chacha20poly1305.NewX`, which checks only the length of its key. -/
  aeadSeal : (key nonce plaintext additionalData : Bytes) → Bytes
  aeadOpen : (key nonce ciphertext additionalData : Bytes) → Except String Bytes
  /- `%q`. -/
  quoted : String → String

def wrap {α : Type} (text : String) (x : Except String α) : Except String α :=
  x.mapError fun e => text ++ e

theorem wrap_eq_ok {α : Type} (text : String) (x : Except String α) (a : α) :
    wrap text x = .ok a ↔ x = .ok a := by
  cases x with
  | error e => simp [wrap,Except.mapError]
  | ok b => simp [wrap,Except.mapError]

/- `copy` into an array of zeros. -/
def copyKey (out : Bytes) : Key :=
  ⟨(out ++ List.replicate keySize 0).take keySize,by simp⟩

def putUint64 (v : UInt64) : Bytes :=
  [(v >>> 56).toUInt8,(v >>> 48).toUInt8,(v >>> 40).toUInt8,(v >>> 32).toUInt8,
    (v >>> 24).toUInt8,(v >>> 16).toUInt8,(v >>> 8).toUInt8,v.toUInt8]

def aad (id : Bytes) (ts : Int64) : Bytes := id ++ putUint64 ts.toUInt64

/-! ### The replay guard -/

structure ReplayGuard where
  window : Int64
  lastTS : Int64
  seen : Std.ExtTreeMap Bytes Int64 compare
  primed : Bool

def newReplayGuard (window : Int64) : ReplayGuard :=
  { window, lastTS := 0, seen := ∅, primed := false }

def defaultReplayWindowMillis : Int64 := 5 * 60 * 1000

def errReplay : String := "e2ee: replay detected"
def errStale : String := "e2ee: timestamp outside replay window"

/- An error leaves the guard as it was. -/
def ReplayGuard.check (g : ReplayGuard) (id : Bytes) (ts : Int64) : Except String ReplayGuard := do
  if g.primed && ts < g.lastTS - g.window then throw errStale
  if g.seen.contains id then throw errReplay
  let seen := g.seen.insert id ts
  let lastTS := if !g.primed || ts > g.lastTS then ts else g.lastTS
  let floor := lastTS - g.window
  return { g with lastTS, seen := seen.filter (fun _ v => !(v<floor)), primed := true }

def ReplayGuard.abs (g : ReplayGuard) : Window Bytes := ⟨g.seen,g.lastTS,g.primed⟩

def ReplayGuard.accept (g : ReplayGuard) (id : Bytes) (ts : Int64) : ReplayGuard where
  window := g.window
  lastTS := g.abs.advanceTs ts
  seen := (g.abs.accept g.window id ts).seen
  primed := true

theorem ReplayGuard.check_eq_ok (g g' : ReplayGuard) (id : Bytes) (ts : Int64) :
    g.check id ts = .ok g' ↔ g.abs.Allows g.window id ts ∧ g.accept id ts=g' := by
  simp only [check,guard_eq_ok,pure_eq_ok,Bool.and_eq_true,decide_eq_true_eq,
    Bool.not_eq_true,Std.ExtTreeMap.contains_eq_isSome_getElem?,Option.isSome_eq_false_iff,
    Option.isNone_iff_eq_none,← and_assoc]
  rfl

/-! ### Sessions -/

structure Session where
  sendKey : Key
  recvKey : Key
  recv : ReplayGuard

variable (L : Library)

def publicFromPrivate (priv : Key) : Except String Key := do
  let out ← wrap "e2ee: derive public key: " (L.x25519 priv L.basepoint)
  return copyKey out

def x25519 (priv peerPub : Key) : Except String Bytes := L.x25519 priv peerPub

def deriveKey (ikm salt : Bytes) (dir : String) : Except String Key :=
  wrap "e2ee: hkdf: " (L.hkdf ikm salt (utf8 (infoPrefix ++ dir)) keySize)

/-- `NewSession`. The role is a string, of which two are valid. -/
def newSession (idPriv peerIDPub ephPriv peerEphPub : Key) (myRole : String) :
    Except String Session := do
  if myRole≠Role.mobile.wire ∧ myRole≠Role.desktop.wire then
    throw ("e2ee: invalid role " ++ L.quoted myRole)
  let myEphPub ← publicFromPrivate L ephPriv
  let ss ← wrap "e2ee: ecdh ss: " (x25519 L idPriv peerIDPub)
  let ee ← wrap "e2ee: ecdh ee: " (x25519 L ephPriv peerEphPub)
  let (md,dm) ← wrap "e2ee: ecdh cross: " <|
    if myRole=Role.mobile.wire then do
      let md ← x25519 L idPriv peerEphPub
      let dm ← x25519 L ephPriv peerIDPub
      return (md,dm)
    else do
      let md ← x25519 L ephPriv peerIDPub
      let dm ← x25519 L idPriv peerEphPub
      return (md,dm)
  let ikm := ss ++ ee ++ md ++ dm
  let salt := if myRole=Role.mobile.wire then myEphPub.1 ++ peerEphPub.1
    else peerEphPub.1 ++ myEphPub.1
  let keyM2D ← deriveKey L ikm salt dirM2D
  let keyD2M ← deriveKey L ikm salt dirD2M
  let recv := newReplayGuard defaultReplayWindowMillis
  if myRole=Role.mobile.wire then return ⟨keyM2D,keyD2M,recv⟩
  else return ⟨keyD2M,keyM2D,recv⟩

theorem newSession_recv {L : Library} {idPriv peerIDPub ephPriv peerEphPub : Key} {myRole : String}
    {s : Session} (h : newSession L idPriv peerIDPub ephPriv peerEphPub myRole = .ok s) :
    s.recv=newReplayGuard defaultReplayWindowMillis := by
  simp only [newSession,guard_eq_ok,bind_eq_ok] at h
  obtain ⟨-,_,-,_,-,_,-,_,-,_,-,_,-,h⟩:=h
  split at h
  · rw [← (pure_eq_ok _ _).mp h]
  · rw [← (pure_eq_ok _ _).mp h]

namespace Session

def sealWith (s : Session) (nonce id : Bytes) (ts : Int64) (plaintext : Bytes) :
    Except String Bytes :=
  if nonce.length≠nonceSize then
    .error ("e2ee: nonce must be " ++ toString nonceSize ++ " bytes")
  else .ok (nonce ++ L.aeadSeal s.sendKey nonce plaintext (aad id ts))

/- `Seal`, with what `rand.Reader` gives. -/
def sealRandom (s : Session) (random : Except String {b : Bytes // b.length = nonceSize})
    (id : Bytes) (ts : Int64) (plaintext : Bytes) : Except String Bytes := do
  let nonce ← wrap "e2ee: read random: " random
  s.sealWith L nonce id ts plaintext

/- `Open`: the plaintext, and the session with its guard advanced. -/
def openWire (s : Session) (id : Bytes) (ts : Int64) (wire : Bytes) :
    Except String (Bytes × Session) := do
  if wire.length<nonceSize then throw "e2ee: ciphertext too short"
  let nonce := wire.take nonceSize
  let ct := wire.drop nonceSize
  let pt ← wrap "e2ee: open: " (L.aeadOpen s.recvKey nonce ct (aad id ts))
  let recv ← s.recv.check id ts
  return (pt,{ s with recv })

theorem openWire_eq_ok (s s' : Session) (id : Bytes) (ts : Int64) (wire pt : Bytes) :
    s.openWire L id ts wire = .ok (pt,s') ↔
      ¬ wire.length<nonceSize ∧
      L.aeadOpen s.recvKey (wire.take nonceSize) (wire.drop nonceSize) (aad id ts) = .ok pt ∧
      ∃ g,s.recv.check id ts = .ok g ∧ s' = { s with recv := g } := by
  simp only [openWire,guard_eq_ok,bind_eq_ok,pure_eq_ok,Prod.mk.injEq,wrap_eq_ok]
  constructor
  · intro h
    obtain ⟨hlen,p,hopen,g,hcheck,hp,hs⟩:=h
    rw [← hp]
    exact ⟨hlen,hopen,g,hcheck,hs.symm⟩
  · intro h
    obtain ⟨hlen,hopen,g,hcheck,hs⟩:=h
    exact ⟨hlen,pt,hopen,g,hcheck,rfl,hs.symm⟩

end Session
end SecureGateway.E2ee.Go
