import SecureGateway.E2ee.GoSession

/-!
# The scheme both implementations follow

The scheme of the package comment of `e2ee.go`. `pairKeys` are the keys of a pair from all
four private keys; a side knows two of them and two public keys, and computes `sessionKeys`.
The SDK and the Go package compute `sessionKeys` where their libraries implement the
primitives.
-/

namespace SecureGateway.E2ee
open Outcome

structure Scheme where
  x25519 : (scalar point : Bytes) → Bytes
  basepoint : Bytes
  /- 32 bytes of output. -/
  hkdf : (ikm salt info : Bytes) → Bytes
  encrypt : (key nonce aad pt : Bytes) → Bytes
  decrypt : (key nonce aad ct : Bytes) → Option Bytes

namespace Scheme
variable (P : Scheme)

def publicKey (priv : Bytes) : Bytes := P.x25519 priv P.basepoint

/- The result of a low-order point is not used. -/
def secret (priv pub : Bytes) : Option Bytes :=
  if isAllZero (P.x25519 priv pub) then none else some (P.x25519 priv pub)

def directionKeys (ikm salt : Bytes) : Bytes × Bytes :=
  (P.hkdf ikm salt (utf8 (infoPrefix ++ dirM2D)),P.hkdf ikm salt (utf8 (infoPrefix ++ dirD2M)))

/-- The keys of a pair, from the private keys of both sides. -/
def pairKeys (idM ephM idD ephD : Bytes) : Option (Bytes × Bytes) := do
  let ss ← P.secret idM (P.publicKey idD)
  let ee ← P.secret ephM (P.publicKey ephD)
  let md ← P.secret idM (P.publicKey ephD)
  let dm ← P.secret idD (P.publicKey ephM)
  return P.directionKeys (ss ++ ee ++ md ++ dm) (P.publicKey ephM ++ P.publicKey ephD)

def sessionKeys (idPriv peerIdPub ephPriv myEphPub peerEphPub : Bytes) (role : Role) :
    Option (Bytes × Bytes) := do
  let ss ← P.secret idPriv peerIdPub
  let ee ← P.secret ephPriv peerEphPub
  match role with
  | .mobile =>
    let md ← P.secret idPriv peerEphPub
    let dm ← P.secret ephPriv peerIdPub
    return P.directionKeys (ss ++ ee ++ md ++ dm) (myEphPub ++ peerEphPub)
  | .desktop =>
    let md ← P.secret ephPriv peerIdPub
    let dm ← P.secret idPriv peerEphPub
    return (P.directionKeys (ss ++ ee ++ md ++ dm) (peerEphPub ++ myEphPub)).swap

/-- What is assumed of the primitives: X25519 gives 32 bytes and agrees on matching key
pairs, and the AEAD opens what it has sealed. -/
structure Lawful : Prop where
  x25519_length : ∀ priv pub, priv.length=keySize → (P.x25519 priv pub).length = keySize
  agree : ∀ a b, a.length=keySize → b.length=keySize →
    P.x25519 a (P.publicKey b) = P.x25519 b (P.publicKey a)
  encrypt_length : ∀ key nonce aad pt, key.length=keySize → nonce.length=nonceSize →
    (P.encrypt key nonce aad pt).length = pt.length + tagSize
  decrypt_encrypt : ∀ key nonce aad pt, key.length=keySize → nonce.length=nonceSize →
    P.decrypt key nonce aad (P.encrypt key nonce aad pt) = some pt

variable {P}

theorem secret_comm (hP : P.Lawful) {a b : Bytes} (ha : a.length=keySize)
    (hb : b.length=keySize) : P.secret a (P.publicKey b)=P.secret b (P.publicKey a) := by
  rw [secret,secret,hP.agree a b ha hb]

theorem sessionKeys_mobile (hP : P.Lawful) (idM ephD : Bytes) {ephM idD : Bytes}
    (hephM : ephM.length=keySize) (hidD : idD.length=keySize) :
    P.sessionKeys idM (P.publicKey idD) ephM (P.publicKey ephM) (P.publicKey ephD) .mobile =
      P.pairKeys idM ephM idD ephD := by
  simp only [sessionKeys,pairKeys]
  rw [secret_comm hP hephM hidD]

theorem sessionKeys_desktop (hP : P.Lawful) {idM ephM idD ephD : Bytes} (hidM : idM.length=keySize)
    (hephM : ephM.length=keySize) (hidD : idD.length=keySize) (hephD : ephD.length=keySize) :
    P.sessionKeys idD (P.publicKey idM) ephD (P.publicKey ephD) (P.publicKey ephM) .desktop =
      (P.pairKeys idM ephM idD ephD).map Prod.swap := by
  simp only [sessionKeys,pairKeys]
  rw [secret_comm hP hidD hidM,secret_comm hP hephD hephM,secret_comm hP hephD hidM]
  simp only [Option.map_bind,Option.bind_eq_bind,Function.comp_def,Option.pure_def,
    Option.map_some]

theorem sessionKeys_length (hkdf : ∀ ikm salt info,(P.hkdf ikm salt info).length=keySize)
    {idPriv peerIdPub ephPriv myEphPub peerEphPub : Bytes} {role : Role} {k : Bytes × Bytes}
    (h : P.sessionKeys idPriv peerIdPub ephPriv myEphPub peerEphPub role=some k) :
    k.1.length=keySize ∧ k.2.length=keySize := by
  unfold sessionKeys at h
  cases role with
  | mobile =>
    simp only [Option.bind_eq_bind,Option.bind_eq_some_iff,Option.pure_def] at h
    obtain ⟨ss,-,ee,-,md,-,dm,-,h⟩:=h
    cases h
    exact ⟨hkdf _ _ _,hkdf _ _ _⟩
  | desktop =>
    simp only [Option.bind_eq_bind,Option.bind_eq_some_iff,Option.pure_def] at h
    obtain ⟨ss,-,ee,-,md,-,dm,-,h⟩:=h
    cases h
    exact ⟨hkdf _ _ _,hkdf _ _ _⟩

end Scheme

/-! ### The libraries -/

/-- The libraries of the SDK implement the primitives; libsodium fails at most where the
result is all-zero. -/
structure Native.Implements (N : Native) (P : Scheme) : Prop where
  base : ∀ priv pub, priv.length=keySize → N.cryptoScalarMultBase priv = some pub →
    pub = P.publicKey priv
  mult : ∀ priv pub, priv.length=keySize → pub.length=keySize →
    N.cryptoScalarMult priv pub = some (P.x25519 priv pub) ∨
      N.cryptoScalarMult priv pub = none ∧ isAllZero (P.x25519 priv pub) = true
  hkdf : ∀ ikm salt info, Hkdf.derive N ikm salt info keySize = P.hkdf ikm salt info
  encrypt : ∀ key nonce aad pt, key.length=keySize → nonce.length=nonceSize →
    N.aeadXChaCha20Poly1305Encrypt key nonce aad pt = some (P.encrypt key nonce aad pt)
  decrypt : ∀ key nonce aad ct, key.length=keySize → nonce.length=nonceSize →
    N.aeadXChaCha20Poly1305Decrypt key nonce aad ct = P.decrypt key nonce aad ct

/-- So do those of the Go package. -/
structure Go.Library.Implements (L : Go.Library) (P : Scheme) : Prop where
  base : ∀ priv out, priv.length=keySize → L.x25519 priv L.basepoint = .ok out →
    out = P.publicKey priv
  mult : ∀ priv pub, priv.length=keySize → pub.length=keySize →
    (L.x25519 priv pub).toOption = P.secret priv pub
  hkdf : ∀ ikm salt info, ∃ h, L.hkdf ikm salt info keySize = .ok ⟨P.hkdf ikm salt info,h⟩
  encrypt : ∀ key nonce aad pt, key.length=keySize → nonce.length=nonceSize →
    L.aeadSeal key nonce pt aad = P.encrypt key nonce aad pt
  decrypt : ∀ key nonce aad ct, key.length=keySize → nonce.length=nonceSize →
    (L.aeadOpen key nonce ct aad).toOption = P.decrypt key nonce aad ct

/-! ### The SDK -/

variable {N : Native} {P : Scheme}

theorem deriveSharedSecret_eq (hN : N.Implements P) {priv pub : Bytes} (hpriv : priv.length=keySize)
    (hpub : pub.length=keySize) : (deriveSharedSecret N priv pub).toOption=P.secret priv pub := by
  unfold deriveSharedSecret Scheme.secret
  simp only [requireLen,hpriv,hpub,ne_eq,not_true,if_false,toOption_bind]
  cases hN.mult priv pub hpriv hpub with
  | inl hsome =>
    simp only [hsome]
    by_cases hzero : isAllZero (P.x25519 priv pub)=true
    · rw [if_pos hzero,if_pos hzero]
      rfl
    · rw [if_neg hzero,if_neg hzero]
      rfl
  | inr hnone =>
    rw [hnone.1,if_pos hnone.2]
    rfl

theorem publicFromPrivate_eq (hN : N.Implements P) {priv pub : Bytes} (hpriv : priv.length=keySize)
    (h : publicFromPrivate N priv = .ok pub) : pub=P.publicKey priv := by
  simp only [publicFromPrivate,bind_eq_ok] at h
  obtain ⟨-,-,h⟩:=h
  cases hb : N.cryptoScalarMultBase priv with
  | none => simp only [hb,throw_eq_ok] at h
  | some out =>
    simp only [hb,pure_eq_ok] at h
    rw [← h]
    exact hN.base priv out hpriv hb

theorem Session.deriveKey_eq (hN : N.Implements P) (ikm salt : Bytes) (dir : String) :
    Session.deriveKey N ikm salt dir=P.hkdf ikm salt (utf8 (infoPrefix++dir)) :=
  hN.hkdf ikm salt _

theorem Session.create_eq (hN : N.Implements P)
    {idPriv peerIdPub ephPriv myEphPub peerEphPub : Bytes}
    (hid : idPriv.length=keySize) (hpeerId : peerIdPub.length=keySize)
    (heph : ephPriv.length=keySize) (hpeerEph : peerEphPub.length=keySize)
    (hpub : publicFromPrivate N ephPriv = .ok myEphPub) (role : Role) :
    (Session.create N idPriv peerIdPub ephPriv peerEphPub role).toOption =
      (P.sessionKeys idPriv peerIdPub ephPriv myEphPub peerEphPub role).map
        fun k => Session.new k.1 k.2 := by
  unfold Session.create Scheme.sessionKeys
  rw [toOption_bind,hpub]
  cases role
  all_goals
    simp only [toOption_bind,toOption_pure,deriveSharedSecret_eq hN hid hpeerId,
      deriveSharedSecret_eq hN heph hpeerEph,deriveSharedSecret_eq hN hid hpeerEph,
      deriveSharedSecret_eq hN heph hpeerId,Session.deriveKey_eq hN]
    simp only [Except.toOption,Option.map_bind,Option.bind_eq_bind,Function.comp_def,
      Option.pure_def,Option.map_some,Option.bind_some,Scheme.directionKeys,Prod.swap_prod_mk]

/-! ### The Go package -/

namespace Go
variable {L : Library}

theorem toOption_wrap {α : Type} (text : String) (x : Except String α) :
    (wrap text x).toOption=x.toOption := toOption_mapError x _

theorem copyKey_eq {out : Bytes} (h : out.length=keySize) : (copyKey out).1=out := by
  unfold copyKey
  simp only
  rw [← h,List.take_left]

theorem x25519_eq (hL : L.Implements P) (priv pub : Key) :
    (x25519 L priv pub).toOption=P.secret priv pub :=
  hL.mult priv pub priv.2 pub.2

theorem publicFromPrivate_eq (hP : P.Lawful) (hL : L.Implements P) {priv pub : Key}
    (h : publicFromPrivate L priv = .ok pub) : pub.1=P.publicKey priv := by
  unfold publicFromPrivate wrap at h
  cases hx : L.x25519 priv L.basepoint with
  | error e =>
    rw [hx] at h
    cases h
  | ok out =>
    rw [hx] at h
    cases h
    have hout:=hL.base priv out priv.2 hx
    rw [copyKey_eq (by rw [hout]; exact hP.x25519_length _ _ priv.2),hout]

theorem deriveKey_eq (hL : L.Implements P) (ikm salt : Bytes) (dir : String) :
    ∃ h,deriveKey L ikm salt dir = .ok ⟨P.hkdf ikm salt (utf8 (infoPrefix++dir)),h⟩ := by
  obtain ⟨h,hk⟩:=hL.hkdf ikm salt (utf8 (infoPrefix++dir))
  exact ⟨h,by rw [deriveKey,hk]; rfl⟩

def Session.keys (s : Session) : Bytes × Bytes := (s.sendKey,s.recvKey)

theorem newSession_eq (hL : L.Implements P) {idPriv peerIDPub ephPriv myEphPub peerEphPub : Key}
    (hpub : publicFromPrivate L ephPriv = .ok myEphPub) (role : Role) :
    (newSession L idPriv peerIDPub ephPriv peerEphPub role.wire).toOption.map Session.keys =
      P.sessionKeys idPriv peerIDPub ephPriv myEphPub peerEphPub role := by
  have hkey (ikm salt : Bytes) (dir : String) :
      (deriveKey L ikm salt dir).toOption=some ⟨_,(deriveKey_eq hL ikm salt dir).1⟩ := by
    rw [(deriveKey_eq hL ikm salt dir).2]
    rfl
  have hdesktop : ¬ Role.desktop.wire=Role.mobile.wire := by decide
  unfold newSession Scheme.sessionKeys
  rw [hpub]
  cases role
  all_goals
    rw [if_neg (by decide)]
    simp only [if_true,if_neg hdesktop,toOption_bind,toOption_pure,toOption_wrap,x25519_eq hL,hkey]
    simp only [Except.toOption,Option.map_bind,Option.bind_eq_bind,Function.comp_def,
      Option.pure_def,Option.map_some,Option.bind_some,Option.bind_assoc]
    rfl

end Go
end SecureGateway.E2ee
