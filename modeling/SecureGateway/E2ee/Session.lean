import SecureGateway.E2ee.Crypto
import SecureGateway.Lib.ReplayWindow

/-!
# Session keys and the anti-replay window (`Session.java`)

`openWire` is the source's `open`: it decrypts, and only then lets `checkReplay` look at the
authenticated `id` and `ts`. `Spent` is what remains true of an accepted envelope once its id
is forgotten. Times are Java longs, so the subtraction wraps.
-/

namespace SecureGateway.E2ee
open Outcome ReplayWindow

def replayWindowMillis : Int64 := 5 * 60 * 1000

theorem replayWindowMillis_nonneg : 0≤replayWindowMillis := by decide

structure Session where
  sendKey : Bytes
  recvKey : Bytes
  seen : Std.ExtTreeMap JavaString Int64 compare
  lastTs : Int64
  primed : Bool

variable (s : Session) (id : JavaString)

namespace Session

def new (sendKey recvKey : Bytes) : Session :=
  { sendKey, recvKey, seen := ∅, lastTs := 0, primed := false }

def deriveKey (N : Native) (ikm salt : Bytes) (dir : String) : Bytes :=
  Hkdf.derive N ikm salt (utf8 (infoPrefix ++ dir)) keySize

/-- `Session.create`: Noise-KK style mixing of the identity and ephemeral keys. -/
def create (N : Native) (idPriv peerIdPub ephPriv peerEphPub : Bytes) (role : Role) :
    Except Thrown Session := do
  let myEphPub ← publicFromPrivate N ephPriv
  let ss ← deriveSharedSecret N idPriv peerIdPub
  let ee ← deriveSharedSecret N ephPriv peerEphPub
  match role with
  | .mobile =>
    let md ← deriveSharedSecret N idPriv peerEphPub
    let dm ← deriveSharedSecret N ephPriv peerIdPub
    let ikm := ss ++ ee ++ md ++ dm
    let salt := myEphPub ++ peerEphPub
    return new (deriveKey N ikm salt dirM2D) (deriveKey N ikm salt dirD2M)
  | .desktop =>
    let md ← deriveSharedSecret N ephPriv peerIdPub
    let dm ← deriveSharedSecret N idPriv peerEphPub
    let ikm := ss ++ ee ++ md ++ dm
    let salt := peerEphPub ++ myEphPub
    return new (deriveKey N ikm salt dirD2M) (deriveKey N ikm salt dirM2D)

def sealWith (N : Native) (s : Session) (nonce : Bytes) (id : JavaString) (ts : Int64)
    (plaintext : Bytes) : Except Thrown Bytes := do
  let ct ← aeadEncrypt N s.sendKey nonce (aad id ts) plaintext
  return nonce ++ ct

def checkReplay (s : Session) (id : JavaString) (ts : Int64) : Except Thrown Session := do
  if s.primed && ts < s.lastTs - replayWindowMillis then
    throw (.replay "e2ee: timestamp outside replay window")
  if s.seen.contains id then throw (.replay "e2ee: replay detected")
  let seen := s.seen.insert id ts
  let lastTs := if !s.primed || ts > s.lastTs then ts else s.lastTs
  let floor := lastTs - replayWindowMillis
  return { s with seen := seen.filter (fun _ t => !(t<floor)), lastTs, primed := true }

/-- `Session.open`: the plaintext, and the session with its window advanced. A
throw leaves the session as it was. -/
def openWire (N : Native) (s : Session) (id : JavaString) (ts : Int64) (wire : Bytes) :
    Except Thrown (Bytes × Session) := do
  if wire.length<nonceSize then throw (.illegalArgument "ciphertext too short")
  let nonce := wire.take nonceSize
  let ct := wire.drop nonceSize
  let pt ← aeadDecrypt N s.recvKey nonce (aad id ts) ct
  let s ← s.checkReplay id ts
  return (pt,s)

def advanceTs (s : Session) (ts : Int64) : Int64 :=
  if !s.primed || ts > s.lastTs then ts else s.lastTs

def accept (s : Session) (id : JavaString) (ts : Int64) : Session :=
  { s with
    seen := (s.seen.insert id ts).filter fun _ t => !(t < s.advanceTs ts - replayWindowMillis)
    lastTs := s.advanceTs ts
    primed := true }

theorem checkReplay_eq_ok (s' : Session) (id : JavaString) (ts : Int64) :
    s.checkReplay id ts = .ok s' ↔
      ¬ (s.primed=true ∧ ts < s.lastTs - replayWindowMillis) ∧
      s.seen[id]? = none ∧ s.accept id ts=s' := by
  simp only [checkReplay,guard_eq_ok,pure_eq_ok,Bool.and_eq_true,decide_eq_true_eq,
    Bool.not_eq_true,Std.ExtTreeMap.contains_eq_isSome_getElem?,Option.isSome_eq_false_iff,
    Option.isNone_iff_eq_none]
  rfl

theorem openWire_eq_ok (N : Native) (s s' : Session) (id : JavaString) (ts : Int64) (wire pt : Bytes) :
    s.openWire N id ts wire = .ok (pt,s') ↔
      ¬ wire.length<nonceSize ∧
      aeadDecrypt N s.recvKey (wire.take nonceSize) (aad id ts) (wire.drop nonceSize) = .ok pt ∧
      s.checkReplay id ts = .ok s' := by
  simp only [openWire,guard_eq_ok,bind_eq_ok,pure_eq_ok,Prod.mk.injEq]
  constructor
  · rintro ⟨hlen,p,hp,s1,hs,rfl,rfl⟩
    exact ⟨hlen,hp,hs⟩
  · rintro ⟨hlen,hp,hs⟩
    exact ⟨hlen,pt,hp,s',hs,rfl,rfl⟩

/-! ### Spent envelopes -/

/-- An envelope the window will not let through again: its id is remembered, or
its time is already behind the window. -/
def Spent (s : Session) (id : JavaString) (ts : Int64) : Prop :=
  s.primed = true ∧ ts ≤ s.lastTs ∧ (s.seen[id]? = some ts ∨ ts < s.lastTs - replayWindowMillis)

def window (s : Session) : Window JavaString := ⟨s.seen,s.lastTs,s.primed⟩

theorem create_window {N : Native} {idPriv peerIdPub ephPriv peerEphPub : Bytes} {role : Role}
    {s : Session} (h : create N idPriv peerIdPub ephPriv peerEphPub role = .ok s) :
    s.window=Window.empty := by
  unfold create at h
  cases role with
  | mobile =>
    simp only [bind_eq_ok,pure_eq_ok] at h
    obtain ⟨_,-,_,-,_,-,_,-,_,-,h⟩:=h
    rw [← h]
    rfl
  | desktop =>
    simp only [bind_eq_ok,pure_eq_ok] at h
    obtain ⟨_,-,_,-,_,-,_,-,_,-,h⟩:=h
    rw [← h]
    rfl

theorem checkReplay_eq_ok_window (s' : Session) (id : JavaString) (ts : Int64) :
    s.checkReplay id ts = .ok s' ↔
      s.window.Allows replayWindowMillis id ts ∧ s.accept id ts=s' := by
  rw [checkReplay_eq_ok,← and_assoc]
  rfl

theorem not_spent_of_accepted (s' : Session) (id : JavaString) (ts : Int64)
    (h : s.checkReplay id ts = .ok s') : ¬ s.Spent id ts := by
  intro hspent
  have hallows:=((checkReplay_eq_ok_window s s' id ts).mp h).1
  exact Window.not_allows_of_spent (w := s.window) hspent hallows

theorem spent_accept (ts : Int64) : (s.accept id ts).Spent id ts :=
  Window.spent_accept (w := s.window)

theorem spent_of_checkReplay (s' : Session) (id id' : JavaString) (ts ts' : Int64) (h : s.Spent id ts)
    (hok : s.checkReplay id' ts' = .ok s') : s'.Spent id ts := by
  obtain ⟨hallows,heq⟩:=(checkReplay_eq_ok_window s s' id' ts').mp hok
  rw [← heq]
  exact Window.spent_of_accept (w := s.window) replayWindowMillis_nonneg h hallows

end Session
end SecureGateway.E2ee
