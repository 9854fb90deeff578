import SecureGateway.Lib.Outcome
import SecureGateway.Role
import Mathlib.Data.List.Basic
import Mathlib.Algebra.Order.Group.Nat

/-!
# The E2EE primitives of the SDK (`Crypto.java`, `Hkdf.java`)

X25519, HMAC-SHA256 and XChaCha20-Poly1305 are the fields of `Native`. What the SDK computes
around them is modelled: the length checks and low-order rejection of `Crypto`, the HKDF
loop, and the associated data that binds an envelope's `ts` and the UTF-8 bytes of its `id`.
A Java string need not be well-formed UTF-16, and then others have the same bytes.
-/

namespace SecureGateway.E2ee
open Outcome

abbrev Bytes := List UInt8

inductive Thrown
  | illegalArgument (message : String)
  | illegalState (message : String)
  | replay (message : String)
  deriving DecidableEq, Repr

/-- The native calls. `none` is a call that reports failure. -/
structure Native where
  cryptoScalarMultBase : Bytes → Option Bytes
  cryptoScalarMult : Bytes → Bytes → Option Bytes
  hmacSha256 : Bytes → Bytes → Bytes
  aeadXChaCha20Poly1305Encrypt : (key nonce aad pt : Bytes) → Option Bytes
  aeadXChaCha20Poly1305Decrypt : (key nonce aad ct : Bytes) → Option Bytes

def keySize : ℕ := 32
def nonceSize : ℕ := 24
def tagSize : ℕ := 16
def infoPrefix : String := "secure-gateway/e2ee/v2|"
def dirM2D : String := "m2d"
def dirD2M : String := "d2m"

def utf8 (s : String) : Bytes := s.toUTF8.data.toList

theorem utf8_injective (s t : String) (h : utf8 s=utf8 t) : s=t := by
  have hbytes : s.toUTF8=t.toUTF8 := ByteArray.ext (Array.toList_inj.mp h)
  exact String.toByteArray_inj.mp hbytes

/-! ### Java strings -/

/- A Java string is its UTF-16 units; its surrogates need not come in pairs. -/
abbrev JavaString := List UInt16

def isHighSurrogate (u : UInt16) : Bool := 0xD800 ≤ u && u ≤ 0xDBFF
def isLowSurrogate (u : UInt16) : Bool := 0xDC00 ≤ u && u ≤ 0xDFFF

def toCodePoint (high low : UInt16) : ℕ :=
  (high.toNat - 0xD800) * 0x400 + (low.toNat - 0xDC00) + 0x10000

def unpaired (u : UInt16) : Char :=
  if isHighSurrogate u || isLowSurrogate u then '?' else Char.ofNat u.toNat

/- What the UTF-8 encoder of Java reads: a surrogate without its other half becomes a
question mark. -/
def scalars : JavaString → List Char
  | [] => []
  | [u] => [unpaired u]
  | u :: v :: us =>
    if isHighSurrogate u && isLowSurrogate v then Char.ofNat (toCodePoint u v) :: scalars us
    else unpaired u :: scalars (v :: us)

/- `String.getBytes(UTF_8)`. -/
def getBytes (s : JavaString) : Bytes := utf8 (String.ofList (scalars s))

def units (c : Char) : List UInt16 :=
  if c.toNat<0x10000 then [c.toNat.toUInt16]
  else
    let n := c.toNat - 0x10000
    [(0xD800 + n / 0x400).toUInt16,(0xDC00 + n % 0x400).toUInt16]

def utf16 (s : String) : JavaString := s.toList.flatMap units

instance : Coe String JavaString := ⟨utf16⟩

/- No surrogate is without its other half. -/
def wellFormed (s : JavaString) : Bool := utf16 (String.ofList (scalars s)) == s

theorem scalars_cons {u : UInt16} (h : isHighSurrogate u=false) (us : JavaString) :
    scalars (u::us)=unpaired u::scalars us := by
  cases us with
  | nil => rfl
  | cons v us => simp [scalars,h]

theorem toNat_toUInt16 {n : ℕ} (h : n<0x10000) : n.toUInt16.toNat=n := Nat.mod_eq_of_lt h

theorem scalars_pair {h l : ℕ} (hh : h<0x400) (hl : l<0x400) (us : JavaString) :
    scalars ((0xD800+h).toUInt16::(0xDC00+l).toUInt16::us) =
      Char.ofNat (h*0x400+l+0x10000)::scalars us := by
  have hhigh : (0xD800+h).toUInt16.toNat=0xD800+h := toNat_toUInt16 (by omega)
  have hlow : (0xDC00+l).toUInt16.toNat=0xDC00+l := toNat_toUInt16 (by omega)
  have hpair : (isHighSurrogate (0xD800+h).toUInt16 && isLowSurrogate (0xDC00+l).toUInt16)=true := by
    simp only [isHighSurrogate,isLowSurrogate,UInt16.le_iff_toNat_le,hhigh,hlow,Bool.and_eq_true,
      decide_eq_true_eq,UInt16.reduceToNat]
    omega
  rw [scalars,if_pos hpair,toCodePoint,hhigh,hlow,Nat.add_sub_cancel_left,Nat.add_sub_cancel_left]

theorem scalars_units (c : Char) (us : JavaString) : scalars (units c++us)=c::scalars us := by
  have hvalid : c.toNat<0xD800 ∨ 0xDFFF < c.toNat ∧ c.toNat<0x110000 := c.valid
  unfold units
  split
  next hsmall =>
    have hu : c.toNat.toUInt16.toNat=c.toNat := toNat_toUInt16 hsmall
    have hhigh : isHighSurrogate c.toNat.toUInt16=false := by
      simp [isHighSurrogate,UInt16.le_iff_toNat_le,hu]
      omega
    have hlow : isLowSurrogate c.toNat.toUInt16=false := by
      simp [isLowSurrogate,UInt16.le_iff_toNat_le,hu]
      omega
    rw [List.singleton_append,scalars_cons hhigh]
    simp [unpaired,hhigh,hlow,hu]
  next hlarge =>
    have hcode : (c.toNat - 0x10000) / 0x400*0x400+(c.toNat - 0x10000) % 0x400+0x10000=c.toNat := by
      omega
    show scalars (_::_::us) = _
    rw [scalars_pair (by omega) (by omega),hcode,Char.ofNat_toNat]

theorem scalars_utf16 (s : String) : scalars (utf16 s)=s.toList := by
  unfold utf16
  induction s.toList with
  | nil => rfl
  | cons c cs ih => rw [List.flatMap_cons,scalars_units,ih]

theorem getBytes_utf16 (s : String) : getBytes (utf16 s)=utf8 s := by
  rw [getBytes,scalars_utf16,String.ofList_toList]
theorem utf16_injective (s t : String) (h : utf16 s=utf16 t) : s=t := by
  rw [← String.toList_inj,← scalars_utf16 s,← scalars_utf16 t,h]

theorem getBytes_injective {s t : JavaString} (hs : wellFormed s=true) (ht : wellFormed t=true)
    (h : getBytes s=getBytes t) : s=t := by
  rw [wellFormed,beq_iff_eq] at hs ht
  rw [← hs,← ht,utf8_injective _ _ h]

/- `ByteBuffer.putLong`, big endian, over the two's complement image of `ts`. -/
def putLong (ts : Int64) : Bytes :=
  let n := ts.toUInt64
  [(n >>> 56).toUInt8,(n >>> 48).toUInt8,(n >>> 40).toUInt8,(n >>> 32).toUInt8,
    (n >>> 24).toUInt8,(n >>> 16).toUInt8,(n >>> 8).toUInt8,n.toUInt8]

@[simp] theorem putLong_length (ts : Int64) : (putLong ts).length=8 := rfl

theorem putLong_injective (a b : Int64) (h : putLong a=putLong b) : a=b := by
  have hword : a.toUInt64=b.toUInt64 := by
    apply UInt64.toNat_inj.mp
    have ha:=a.toUInt64.toNat_lt
    have hb:=b.toUInt64.toNat_lt
    simp only [putLong,List.cons.injEq,← UInt8.toNat_inj,UInt64.toNat_toUInt8,
      UInt64.toNat_shiftRight,Nat.shiftRight_eq_div_pow] at h
    simp at h
    omega
  cases a
  cases b
  simpa using hword

def aad (id : JavaString) (ts : Int64) : Bytes := getBytes id ++ putLong ts

/- The time field has a fixed width, so the pair can be read back from the end. -/
theorem append_putLong_injective {id id' : Bytes} {ts ts' : Int64}
    (h : id++putLong ts=id'++putLong ts') : id=id' ∧ ts=ts' := by
  obtain ⟨hid,hts⟩:=List.append_inj' h (by simp)
  exact ⟨hid,putLong_injective ts ts' hts⟩

def isAllZero (b : Bytes) : Bool := b.foldl (fun acc x => acc ||| x) 0 == 0

def requireLen (b : Bytes) (len : ℕ) (what : String) : Except Thrown Unit :=
  if b.length≠len then
    .error (.illegalArgument ("crypto: " ++ what ++ " must be " ++ toString len ++ " bytes"))
  else
    .ok ()

variable (N : Native)

def publicFromPrivate (priv : Bytes) : Except Thrown Bytes := do
  requireLen priv keySize "private key"
  match N.cryptoScalarMultBase priv with
  | some pub => return pub
  | none => throw (.illegalState "crypto: scalarmult_base failed")

def deriveSharedSecret (myPriv peerPub : Bytes) : Except Thrown Bytes := do
  requireLen myPriv keySize "private key"
  requireLen peerPub keySize "peer public key"
  match N.cryptoScalarMult myPriv peerPub with
  | some shared =>
    if isAllZero shared then throw (.illegalArgument "crypto: ecdh failed (low-order point)")
    else return shared
  | none => throw (.illegalArgument "crypto: ecdh failed (low-order point)")

def aeadEncrypt (key nonce aad plaintext : Bytes) : Except Thrown Bytes := do
  requireLen key keySize "key"
  requireLen nonce nonceSize "nonce"
  match N.aeadXChaCha20Poly1305Encrypt key nonce aad plaintext with
  | some ct => return ct
  | none => throw (.illegalState "crypto: aead encrypt failed")

def aeadDecrypt (key nonce aad ct : Bytes) : Except Thrown Bytes := do
  requireLen key keySize "key"
  requireLen nonce nonceSize "nonce"
  if ct.length<tagSize then throw (.illegalArgument "crypto: ciphertext too short")
  match N.aeadXChaCha20Poly1305Decrypt key nonce aad ct with
  | some pt => return pt
  | none => throw (.illegalArgument "crypto: aead open failed (tampered or wrong key)")

/-- An AEAD opens a ciphertext only under the key, nonce and associated data it
was sealed with. -/
def Binds (encrypt decrypt : (key nonce aad text : Bytes) → Option Bytes) : Prop :=
  ∀ key nonce aad pt ct key' nonce' aad' pt',
    encrypt key nonce aad pt = some ct → decrypt key' nonce' aad' ct = some pt' →
    key' = key ∧ nonce'=nonce ∧ aad'=aad

def AeadBinds : Prop :=
  Binds N.aeadXChaCha20Poly1305Encrypt N.aeadXChaCha20Poly1305Decrypt

/-- A ciphertext opens to what was sealed. -/
def AeadCorrect : Prop :=
  ∀ key nonce aad pt ct,
    N.aeadXChaCha20Poly1305Encrypt key nonce aad pt = some ct →
    N.aeadXChaCha20Poly1305Decrypt key nonce aad ct = some pt

theorem aeadEncrypt_native (key nonce aad pt ct : Bytes)
    (h : aeadEncrypt N key nonce aad pt = .ok ct) :
    N.aeadXChaCha20Poly1305Encrypt key nonce aad pt=some ct := by
  simp only [aeadEncrypt,bind_eq_ok] at h
  obtain ⟨-,-,-,-,h⟩:=h
  cases hc : N.aeadXChaCha20Poly1305Encrypt key nonce aad pt with
  | none => simp only [hc,throw_eq_ok] at h
  | some c =>
    simp only [hc,pure_eq_ok] at h
    rw [h]

theorem requireLen_eq_ok (b : Bytes) (len : ℕ) (what : String) (u : Unit) :
    requireLen b len what = .ok u ↔ b.length=len := by
  unfold requireLen
  split <;> simp_all

theorem aeadEncrypt_nonce_length (key nonce aad pt ct : Bytes)
    (h : aeadEncrypt N key nonce aad pt = .ok ct) : nonce.length=nonceSize := by
  simp only [aeadEncrypt,bind_eq_ok,requireLen_eq_ok] at h
  obtain ⟨-,-,-,h,-⟩:=h
  exact h

theorem aeadDecrypt_native (key nonce aad ct pt : Bytes)
    (h : aeadDecrypt N key nonce aad ct = .ok pt) :
    N.aeadXChaCha20Poly1305Decrypt key nonce aad ct=some pt := by
  simp only [aeadDecrypt,bind_eq_ok,guard_eq_ok] at h
  obtain ⟨-,-,-,-,-,h⟩:=h
  cases hp : N.aeadXChaCha20Poly1305Decrypt key nonce aad ct with
  | none => simp only [hp,throw_eq_ok] at h
  | some p =>
    simp only [hp,pure_eq_ok] at h
    rw [h]

theorem aeadDecrypt_binds (hN : AeadBinds N) (key nonce aad pt ct key' nonce' aad' pt' : Bytes)
    (hs : aeadEncrypt N key nonce aad pt = .ok ct)
    (ho : aeadDecrypt N key' nonce' aad' ct = .ok pt') : key'=key ∧ nonce'=nonce ∧ aad'=aad :=
  hN key nonce aad pt ct key' nonce' aad' pt' (aeadEncrypt_native N key nonce aad pt ct hs)
    (aeadDecrypt_native N key' nonce' aad' ct pt' ho)

/-! ### HKDF-SHA256 -/

namespace Hkdf

def hashLen : ℕ := 32

/- `PRK = HMAC(salt, ikm)`; an empty salt becomes 32 zero bytes. -/
def extract (salt ikm : Bytes) : Bytes :=
  let key := if salt.isEmpty then List.replicate hashLen 0 else salt
  N.hmacSha256 key ikm

/- The `while (pos < length)` loop; every round of a MAC with a non-empty output
writes at least one byte, so `length` rounds are enough. -/
def expandLoop (prk info : Bytes) : ℕ → Bytes → UInt8 → ℕ → Bytes
  | 0, _, _, _ => []
  | fuel + 1, t, counter, left =>
    if left=0 then []
    else
      let t := N.hmacSha256 prk (t ++ info ++ [counter])
      let n := min t.length left
      t.take n ++ expandLoop prk info fuel t (counter + 1) (left - n)

def expand (prk info : Bytes) (length : ℕ) : Bytes :=
  expandLoop N prk info length [] 1 length

def derive (ikm salt info : Bytes) (length : ℕ) : Bytes :=
  expand N (extract N salt ikm) info length

end Hkdf

/-! ### A transparent instance

The assumptions made on `Native` below are consistent: here every shared secret is
the same, a derived key is the first half of the handshake salt, and a ciphertext
spells out the key, nonce and associated data in front of the plaintext. -/

/- Self-delimiting: each byte is announced by 1, the end by 0. -/
def spell : Bytes → Bytes
  | [] => [0]
  | b :: bs => 1 :: b :: spell bs

theorem spell_append_injective (a b x y : Bytes) (h : spell a++x=spell b++y) : a=b ∧ x=y := by
  induction a generalizing b with
  | nil =>
    cases b with
    | nil => simpa [spell] using h
    | cons b bs => simp [spell] at h
  | cons a as ih =>
    cases b with
    | nil => simp [spell] at h
    | cons b bs =>
      simp only [spell,List.cons_append,List.cons.injEq,true_and] at h
      obtain ⟨rfl,rfl⟩:=ih bs h.2
      exact ⟨by rw [h.1],rfl⟩

def transparent : Native where
  cryptoScalarMultBase priv := some (if isAllZero priv then List.replicate keySize 1 else priv)
  cryptoScalarMult _ pub := if isAllZero pub then none else some (List.replicate keySize 1)
  hmacSha256 key _ := key.take keySize
  aeadXChaCha20Poly1305Encrypt key nonce aad pt :=
    some (spell key ++ (spell nonce ++ (spell aad ++ pt)))
  aeadXChaCha20Poly1305Decrypt key nonce aad ct :=
    let header := spell key ++ (spell nonce ++ spell aad)
    if header <+: ct then some (ct.drop header.length) else none

theorem transparent_aeadBinds : AeadBinds transparent := by
  intro key nonce aad pt ct key' nonce' aad' pt' hs ho
  simp only [transparent,Option.some.injEq] at hs
  simp only [transparent] at ho
  split at ho
  next hpre =>
    obtain ⟨rest,hrest⟩:=hpre
    rw [← hs] at hrest
    simp only [List.append_assoc] at hrest
    obtain ⟨hkey,hrest⟩:=spell_append_injective _ _ _ _ hrest
    obtain ⟨hnonce,hrest⟩:=spell_append_injective _ _ _ _ hrest
    exact ⟨hkey,hnonce,(spell_append_injective _ _ _ _ hrest).1⟩
  next => cases ho

theorem transparent_aeadCorrect : AeadCorrect transparent := by
  intro key nonce aad pt ct hs
  simp only [transparent,Option.some.injEq] at hs ⊢
  rw [← hs,← List.append_assoc (spell nonce),← List.append_assoc (spell key)]
  simp [← List.append_assoc]

end SecureGateway.E2ee
