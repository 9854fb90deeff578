import SecureGateway.E2ee.Crypto

/-!
# The signing key as a JWKS document (`signer.go`, `keysource.go`)

The auth service publishes its key with `Signer.JWKS`, and the relay reads it back with
`parseJWKS`. PEM, PKCS#8, base64 and JSON belong to the Go library, a parameter with the two
round trips it is trusted for. `JWKS` names the curve P-256 whatever the key is, while
`SignerFromPEM` takes a key on any curve.
-/

namespace SecureGateway.Jwks
open E2ee (Bytes)

inductive Curve
  | p224 | p256 | p384 | p521
  deriving DecidableEq

def Curve.bitSize : Curve → ℕ
  | p224 => 224
  | p256 => 256
  | p384 => 384
  | p521 => 521

def Curve.byteLen (c : Curve) : ℕ := (c.bitSize + 7) / 8

inductive PublicKey
  | ecdsa (curve : Curve) (x y : ℕ)
  | ed25519 (key : Bytes)
  deriving DecidableEq

/- The coordinates of a point on the curve, and the size of an Ed25519 key. -/
def PublicKey.Fits : PublicKey → Prop
  | ecdsa curve x y => x < 2 ^ curve.bitSize ∧ y < 2 ^ curve.bitSize
  | ed25519 key => key.length = 32

/- What `x509.ParsePKCS8PrivateKey` returns, by its public half; another key only by the
name `%T` gives its type. -/
inductive PrivateKey
  | ecdsa (curve : Curve) (x y : ℕ) (fits : (PublicKey.ecdsa curve x y).Fits)
  | ed25519 (key : Bytes) (fits : (PublicKey.ed25519 key).Fits)
  | other (typeName : String)

def PrivateKey.typeName : PrivateKey → String
  | ecdsa _ _ _ _ => "*ecdsa.PrivateKey"
  | ed25519 _ _ => "ed25519.PrivateKey"
  | other name => name

/- The `map[string]string` that `JWKS` writes. -/
structure Members where
  kty : String
  crv : String
  alg : String
  usage : String
  kid : String
  x : String
  y : Option String

/- The fields `parseJWKS` reads; a missing one is empty. -/
structure Jwk where
  kty : String
  kid : String
  crv : String
  x : String
  y : String

def Members.jwk (m : Members) : Jwk := ⟨m.kty,m.kid,m.crv,m.x,m.y.getD ""⟩

/-- `pem.Decode`, `x509`, `base64.RawURLEncoding`, `encoding/json` on documents with a
list `keys`, and `%q`. -/
structure Library (Json : Type) where
  pemDecode : Bytes → Option Bytes
  parsePKCS8 : Bytes → Except String PrivateKey
  encode : Bytes → String
  decode : String → Except String Bytes
  marshal : List Members → Json
  unmarshal : Json → Except String (List Jwk)
  quoted : String → String
  decode_encode : ∀ b, decode (encode b) = .ok b
  unmarshal_marshal : ∀ ms, unmarshal (marshal ms) = .ok (ms.map Members.jwk)

/- `big.Int.FillBytes` of a number that fits, and `SetBytes`. -/
def fillBytes : ℕ → ℕ → Bytes
  | 0, _ => []
  | len + 1, n => fillBytes len (n / 256) ++ [UInt8.ofNat (n % 256)]

def setBytes (b : Bytes) : ℕ := b.foldl (fun n d => 256 * n + d.toNat) 0

theorem setBytes_fillBytes {len n : ℕ} (h : n<256 ^ len) : setBytes (fillBytes len n)=n := by
  induction len generalizing n with
  | zero =>
    have hzero : n=0 := by simpa using h
    rw [hzero]
    rfl
  | succ len ih =>
    have hdiv : n / 256<256 ^ len := by
      rw [Nat.div_lt_iff_lt_mul (by decide),← Nat.pow_succ]
      exact h
    have hprev:=ih hdiv
    have hlast : (UInt8.ofNat (n % 256)).toNat=n % 256 := by simp
    simp only [setBytes,fillBytes,List.foldl_append,List.foldl_cons,List.foldl_nil,hlast]
    rw [show (fillBytes len (n / 256)).foldl _ 0 = _ from hprev]
    omega

theorem Curve.lt_byteLen {c : Curve} {n : ℕ} (h : n<2 ^ c.bitSize) : n<256 ^ c.byteLen := by
  have hbits : c.bitSize≤8*c.byteLen := by
    unfold byteLen
    omega
  rw [show 256=2 ^ 8 from rfl,← Nat.pow_mul]
  exact h.trans_le (Nat.pow_le_pow_right (by decide) hbits)

section
variable {Json : Type} (lib : Library Json)

def jwkToPublic (k : Jwk) : Except String PublicKey :=
  let jwk := "jwk " ++ lib.quoted k.kid ++ ": "
  if k.kty = "EC" then do
    let xb ← (lib.decode k.x).mapError fun err => jwk ++ "bad x: " ++ err
    let yb ← (lib.decode k.y).mapError fun err => jwk ++ "bad y: " ++ err
    if k.crv = "P-256" then return .ecdsa .p256 (setBytes xb) (setBytes yb)
    else if k.crv = "P-384" then return .ecdsa .p384 (setBytes xb) (setBytes yb)
    else if k.crv = "P-521" then return .ecdsa .p521 (setBytes xb) (setBytes yb)
    else throw (jwk ++ "unsupported curve " ++ lib.quoted k.crv)
  else if k.kty = "OKP" then
    if k.crv ≠ "Ed25519" then throw (jwk ++ "unsupported OKP curve " ++ lib.quoted k.crv)
    else do
      let xb ← (lib.decode k.x).mapError fun err => jwk ++ "bad x: " ++ err
      if xb.length≠32 then throw (jwk ++ "bad ed25519 key length " ++ toString xb.length)
      else return .ed25519 xb
  else throw (jwk ++ "unsupported kty " ++ lib.quoted k.kty)

/- A map from kids to keys, of which a later entry replaces an earlier one. -/
abbrev KeySet := List (String × PublicKey)

def parseJWKS (data : Json) : Except String KeySet := do
  let doc ← (lib.unmarshal data).mapError fun err => "parse jwks: " ++ err
  let out ← doc.foldlM (fun out k => do return (k.kid,← jwkToPublic lib k) :: out) ([] : KeySet)
  if out.isEmpty then throw "jwks contained no keys" else return out

structure Signer where
  alg : String
  kid : String
  pub : PublicKey
  fits : pub.Fits

def signerFromPEM (alg kid : String) (privPEM : Bytes) : Except String Signer :=
  match lib.pemDecode privPEM with
  | none => .error "no PEM private key block found"
  | some block =>
    match lib.parsePKCS8 block with
    | .error err => .error ("parse private key: " ++ err)
    | .ok key =>
      if alg = "ES256" then
        match key with
        | .ecdsa curve x y fits => .ok ⟨alg,kid,.ecdsa curve x y,fits⟩
        | _ => .error ("key file alg ES256 but key type is " ++ key.typeName)
      else if alg = "EdDSA" then
        match key with
        | .ed25519 pub fits => .ok ⟨alg,kid,.ed25519 pub,fits⟩
        | _ => .error ("key file alg EdDSA but key type is " ++ key.typeName)
      else .error ("unsupported algorithm " ++ lib.quoted alg)

def Signer.members (s : Signer) : Members :=
  match s.pub with
  | .ecdsa curve x y =>
    { kty := "EC", crv := "P-256", alg := "ES256", usage := "sig", kid := s.kid
      x := lib.encode (fillBytes curve.byteLen x), y := some (lib.encode (fillBytes curve.byteLen y)) }
  | .ed25519 key =>
    { kty := "OKP", crv := "Ed25519", alg := "EdDSA", usage := "sig", kid := s.kid
      x := lib.encode key, y := none }

def Signer.jwks (s : Signer) : Json := lib.marshal [s.members lib]

/-- What the relay makes of the signer's key. -/
def PublicKey.published : PublicKey → PublicKey
  | ecdsa _ x y => ecdsa .p256 x y
  | ed25519 key => ed25519 key

theorem parseJWKS_jwks (s : Signer) :
    parseJWKS lib (s.jwks lib) = .ok [(s.kid,s.pub.published)] := by
  have hkey : jwkToPublic lib (s.members lib).jwk = .ok s.pub.published := by
    obtain ⟨alg,kid,pub,fits⟩:=s
    cases pub with
    | ecdsa curve x y =>
      simp only [jwkToPublic,Signer.members,Members.jwk,Option.getD_some,lib.decode_encode,
        if_true]
      show Except.ok (PublicKey.ecdsa .p256 _ _) = _
      rw [setBytes_fillBytes (Curve.lt_byteLen fits.1),setBytes_fillBytes (Curve.lt_byteLen fits.2)]
      rfl
    | ed25519 key =>
      have hsize : ¬ key.length≠32 := not_not.2 fits
      simp only [jwkToPublic,Signer.members,Members.jwk,lib.decode_encode]
      show (if key.length≠32 then _ else Except.ok (PublicKey.ed25519 key)) = _
      rw [if_neg hsize]
      rfl
  have hkid : (s.members lib).jwk.kid=s.kid := by
    unfold Signer.members
    split <;> rfl
  simp only [parseJWKS,Signer.jwks,lib.unmarshal_marshal,List.map_cons,List.map_nil,
    Except.mapError,bind,Except.bind,List.foldlM_cons,List.foldlM_nil,hkey,hkid]
  rfl

variable {lib}

/- The key of an accepted signer is the one in the PEM block. -/
theorem signerFromPEM_ok {alg kid : String} {privPEM : Bytes} {s : Signer}
    (hs : signerFromPEM lib alg kid privPEM = .ok s) :
    s.kid=kid ∧ ∃ block,lib.pemDecode privPEM=some block ∧
      ((∃ curve x y fits,lib.parsePKCS8 block = .ok (.ecdsa curve x y fits) ∧
        s.pub = .ecdsa curve x y) ∨
      ∃ key fits,lib.parsePKCS8 block = .ok (.ed25519 key fits) ∧ s.pub = .ed25519 key) := by
  unfold signerFromPEM at hs
  cases hpem : lib.pemDecode privPEM with
  | none => simp [hpem] at hs
  | some block =>
    cases hkey : lib.parsePKCS8 block with
    | error err => simp [hpem,hkey] at hs
    | ok key =>
      simp only [hpem,hkey] at hs
      split at hs
      · cases key with
        | ecdsa curve x y fits =>
          cases hs
          exact ⟨rfl,block,rfl,.inl ⟨curve,x,y,fits,hkey,rfl⟩⟩
        | ed25519 key fits => cases hs
        | other name => cases hs
      · split at hs
        · cases key with
          | ecdsa curve x y fits => cases hs
          | ed25519 key fits =>
            cases hs
            exact ⟨rfl,block,rfl,.inr ⟨key,fits,hkey,rfl⟩⟩
          | other name => cases hs
        · cases hs

end

/-- The relay reads back the signer's key exactly if that is no ECDSA key on a curve other
than P-256. -/
theorem jwks_agrees_iff {Json : Type} (lib : Library Json) (alg kid : String) (privPEM : Bytes)
    (s : Signer) (hs : signerFromPEM lib alg kid privPEM = .ok s) :
    (∃ keys, parseJWKS lib (s.jwks lib) = .ok keys ∧ keys.lookup kid = some s.pub) ↔
      ∀ block curve x y fits, lib.pemDecode privPEM = some block →
        lib.parsePKCS8 block = .ok (.ecdsa curve x y fits) → curve=.p256 := by
  obtain ⟨rfl,block,hpem,hkey⟩ := signerFromPEM_ok hs
  have hread : (∃ keys, parseJWKS lib (s.jwks lib) = .ok keys ∧ keys.lookup s.kid = some s.pub) ↔
      s.pub.published = s.pub := by
    rw [parseJWKS_jwks]
    simp
  rw [hread]
  rcases hkey with ⟨curve,x,y,fits,hkey,hpub⟩ | ⟨key,fits,hkey,hpub⟩
  · rw [hpub,PublicKey.published]
    constructor
    · intro heq block' curve' x' y' fits' hpem' hkey'
      cases hpem.symm.trans hpem'
      cases hkey.symm.trans hkey'
      injection heq with hcurve
      exact hcurve.symm
    · intro hall
      rw [hall block curve x y fits hpem hkey]
  · rw [hpub,PublicKey.published]
    refine iff_of_true rfl fun block' curve' x' y' fits' hpem' hkey' => ?_
    cases hpem.symm.trans hpem'
    cases hkey.symm.trans hkey'

theorem small_fits (c : Curve) : (PublicKey.ecdsa c 5 6).Fits := by
  have hbits : 2 ^ 8≤2 ^ c.bitSize := Nat.pow_le_pow_right (by decide) (by cases c <;> decide)
  exact ⟨by omega,by omega⟩

theorem ofNat_char (d : UInt8) : UInt8.ofNat (Char.ofNat d.toNat).toNat=d := by
  have hlt:=d.toNat_lt
  have hchar : (Char.ofNat d.toNat).toNat=d.toNat := by
    unfold Char.ofNat
    rw [dif_pos (Or.inl (by omega))]
    rfl
  rw [hchar,UInt8.ofNat_toNat]

/- A library whose key files hold a key on P-256 or on P-384. -/
def sampleLibrary : Library (List Members) where
  pemDecode := some
  parsePKCS8 der :=
    if der = [1] then .ok (.ecdsa .p256 5 6 (small_fits .p256))
    else .ok (.ecdsa .p384 5 6 (small_fits .p384))
  encode b := String.ofList (b.map fun d => Char.ofNat d.toNat)
  decode s := .ok (s.toList.map fun c => UInt8.ofNat c.toNat)
  marshal := id
  unmarshal ms := .ok (ms.map Members.jwk)
  quoted := id
  decode_encode b := by
    have hmap : b.map (fun d => UInt8.ofNat (Char.ofNat d.toNat).toNat) = b := by
      simp only [ofNat_char,List.map_id']
    simpa [Function.comp_def] using hmap
  unmarshal_marshal ms := rfl

theorem jwks_agrees_p256 : ∃ keys, parseJWKS sampleLibrary
    (Signer.jwks sampleLibrary ⟨"ES256","k1",.ecdsa .p256 5 6,small_fits .p256⟩) = .ok keys ∧
      keys.lookup "k1" = some (.ecdsa .p256 5 6) :=
  (jwks_agrees_iff sampleLibrary "ES256" "k1" [1] _ rfl).2 (by
    intro block curve x y fits hpem hkey
    cases hpem
    cases hkey
    rfl)

/-- A key on P-384 is accepted, published as one on P-256, and read back as such. -/
theorem jwks_differs_p384 :
    ∃ s, signerFromPEM sampleLibrary "ES256" "k1" [2] = .ok s ∧ s.pub = .ecdsa .p384 5 6 ∧
      parseJWKS sampleLibrary (s.jwks sampleLibrary) = .ok [("k1",.ecdsa .p256 5 6)] :=
  ⟨⟨"ES256","k1",.ecdsa .p384 5 6,small_fits .p384⟩,rfl,rfl,parseJWKS_jwks sampleLibrary _⟩

end SecureGateway.Jwks
