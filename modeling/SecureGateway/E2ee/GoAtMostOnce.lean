import SecureGateway.Lib.Machine
import SecureGateway.E2ee.GoSession

/-!
# A session of the Go package opens each ciphertext at most once

The AEAD binds a ciphertext to the bytes of `aad`, from which the id and the time can be read
back, so all calls that open it have the same ones; after the first of them the guard has
spent them (`ReplayWindow.Window.Spent`).
-/

namespace SecureGateway.E2ee.Go
open Outcome ReplayWindow

/-- The AEAD opens a ciphertext only under the key, nonce and associated data it was
sealed with. -/
def Library.Binds (L : Library) : Prop :=
  ∀ key nonce pt ad key' nonce' ad' pt',
    L.aeadOpen key' nonce' (L.aeadSeal key nonce pt ad) ad' = .ok pt' →
    key' = key ∧ nonce'=nonce ∧ ad'=ad

structure Call where
  id : Bytes
  ts : Int64
  wire : Bytes

/- The call, and what it returned. An error leaves the session as it was. -/
def Session.call (L : Library) (s : Session) (c : Call) : Session × (Call × Except String Bytes) :=
  match s.openWire L c.id c.ts c.wire with
  | .ok (pt,s') => (s',c,.ok pt)
  | .error e => (s,c,.error e)

def opens (ct : Bytes) (r : Call × Except String Bytes) : Bool :=
  r.1.wire.drop nonceSize == ct && match r.2 with
    | .ok _ => true
    | .error _ => false

theorem opens_eq_true {ct : Bytes} {r : Call × Except String Bytes} (h : opens ct r=true) :
    r.1.wire.drop nonceSize=ct ∧ ∃ pt,r.2 = .ok pt := by
  obtain ⟨hct,hok⟩:=Bool.and_eq_true_iff.mp h
  refine ⟨eq_of_beq hct,?_⟩
  split at hok
  next pt hpt => exact ⟨pt,hpt⟩
  next => cases hok

section
variable {L : Library} {s : Session} {c : Call} {id : Bytes} {ts : Int64}

theorem Session.call_eq (L : Library) (s : Session) (c : Call) :
    (s.call L c).2.1=c ∧
      ((∃ e,(s.call L c).2.2 = .error e ∧ (s.call L c).1=s) ∨
        ∃ pt,(s.call L c).2.2 = .ok pt ∧
          L.aeadOpen s.recvKey (c.wire.take nonceSize) (c.wire.drop nonceSize) (aad c.id c.ts) =
            .ok pt ∧
          s.recv.abs.Allows s.recv.window c.id c.ts ∧
          (s.call L c).1 = { s with recv := s.recv.accept c.id c.ts }) := by
  unfold Session.call
  cases hopen : s.openWire L c.id c.ts c.wire with
  | error e => exact ⟨rfl,.inl ⟨e,rfl,rfl⟩⟩
  | ok r =>
    obtain ⟨-,haead,g,hcheck,hs⟩:=(openWire_eq_ok L s r.2 c.id c.ts c.wire r.1).mp hopen
    obtain ⟨hallows,hg⟩:=(ReplayGuard.check_eq_ok _ _ _ _).mp hcheck
    rw [← hg] at hs
    exact ⟨rfl,.inr ⟨r.1,rfl,haead,hallows,hs⟩⟩

theorem Session.call_window (L : Library) (s : Session) (c : Call) :
    (s.call L c).1.recv.window=s.recv.window := by
  obtain ⟨-,⟨_,-,hs⟩ | ⟨_,-,-,-,hs⟩⟩:=s.call_eq L c
  · rw [hs]
  · rw [hs]
    rfl

/-! ### What is spent -/

def Session.Spent (s : Session) (id : Bytes) (ts : Int64) : Prop :=
  s.recv.abs.Spent s.recv.window id ts

theorem Session.spent_call (hw : 0 ≤ s.recv.window) (h : s.Spent id ts) (c : Call) :
    (s.call L c).1.Spent id ts := by
  obtain ⟨-,⟨_,-,hs⟩ | ⟨_,-,-,hallows,hs⟩⟩:=s.call_eq L c
  · rw [hs]
    exact h
  · rw [hs]
    exact Window.spent_of_accept hw h hallows

theorem Session.spent_of_call (h : ∃ pt,(s.call L c).2.2 = .ok pt) :
    (s.call L c).1.Spent c.id c.ts := by
  obtain ⟨pt,hpt⟩:=h
  obtain ⟨-,⟨_,herr,-⟩ | ⟨_,-,-,-,hs⟩⟩:=s.call_eq L c
  · rw [herr] at hpt
    cases hpt
  · rw [hs]
    exact Window.spent_accept

theorem Session.not_spent_of_call (h : ∃ pt,(s.call L c).2.2 = .ok pt) : ¬ s.Spent c.id c.ts := by
  obtain ⟨pt,hpt⟩:=h
  obtain ⟨-,⟨_,herr,-⟩ | ⟨_,-,-,hallows,-⟩⟩:=s.call_eq L c
  · rw [herr] at hpt
    cases hpt
  · intro hspent
    exact Window.not_allows_of_spent hspent hallows

/-! ### Runs -/

variable {ct : Bytes}

def Bound (L : Library) (ct id : Bytes) (ts : Int64) : Prop :=
  ∀ s c, opens ct (Session.call L s c).2 = true → c.id=id ∧ c.ts=ts

theorem bound_of_seal (hL : L.Binds) (key nonce pt : Bytes) (id : Bytes) (ts : Int64) :
    Bound L (L.aeadSeal key nonce pt (aad id ts)) id ts := by
  intro s c hopens
  obtain ⟨hct,pt',hok⟩:=opens_eq_true hopens
  obtain ⟨hc,⟨_,herr,-⟩ | ⟨_,-,haead,-,-⟩⟩:=s.call_eq L c
  · rw [herr] at hok
    cases hok
  rw [hc] at hct
  rw [hct] at haead
  exact append_putLong_injective (hL _ _ _ _ _ _ _ _ haead).2.2

theorem Session.never_opens_of_spent (hbound : Bound L ct id ts) (hw : 0 ≤ s.recv.window)
    (h : s.Spent id ts) (calls : List Call) :
    ∀ r∈Machine.outputs (Session.call L) s calls, ¬ opens ct r=true := by
  induction calls generalizing s with
  | nil =>
    intro r hr
    cases hr
  | cons c calls ih =>
    intro r hr
    cases List.mem_cons.mp hr with
    | inl hhead =>
      intro hopens
      rw [hhead] at hopens
      obtain ⟨hid,hts⟩:=hbound s c hopens
      rw [← hid,← hts] at h
      exact s.not_spent_of_call (opens_eq_true hopens).2 h
    | inr htail =>
      apply ih _ (s.spent_call hw h c) r htail
      rw [s.call_window L c]
      exact hw

theorem Session.countP_opens_le (hbound : Bound L ct id ts) (hw : 0 ≤ s.recv.window)
    (calls : List Call) : (Machine.outputs (Session.call L) s calls).countP (opens ct)≤1 := by
  induction calls generalizing s with
  | nil => exact Nat.zero_le 1
  | cons c calls ih =>
    have hw' : 0≤(s.call L c).1.recv.window := by
      rw [s.call_window L c]
      exact hw
    rw [Machine.outputs]
    by_cases hopens : opens ct (s.call L c).2=true
    · have hspent:=s.spent_of_call (opens_eq_true hopens).2
      obtain ⟨hid,hts⟩:=hbound s c hopens
      rw [hid,hts] at hspent
      have hrest:=List.countP_eq_zero.mpr (never_opens_of_spent hbound hw' hspent calls)
      rw [List.countP_cons_of_pos hopens,hrest]
    · rw [List.countP_cons_of_neg hopens]
      exact ih hw'

end

/-- Whatever calls of `Open` a session receives, what the peer has sealed under an id and
a time is opened at most once. -/
theorem sealed_opened_at_most_once (L : Library) (hL : L.Binds)
    (idPriv peerIDPub ephPriv peerEphPub : Key) (myRole : String) (s : Session)
    (hs : newSession L idPriv peerIDPub ephPriv peerEphPub myRole = .ok s)
    (peer : Session) (nonce id : Bytes) (ts : Int64) (plaintext wire : Bytes)
    (hsealed : peer.sealWith L nonce id ts plaintext = .ok wire) (calls : List Call) :
    (Machine.outputs (Session.call L) s calls).countP (opens (wire.drop nonceSize)) ≤ 1 := by
  have hw : 0 ≤ s.recv.window := by
    rw [newSession_recv hs]
    decide
  have hct : wire.drop nonceSize = L.aeadSeal peer.sendKey nonce plaintext (aad id ts) := by
    unfold Session.sealWith at hsealed
    split at hsealed
    · cases hsealed
    next hlen =>
      rw [← Except.ok.inj hsealed]
      exact List.drop_left' (not_not.mp hlen)
  rw [hct]
  exact Session.countP_opens_le (bound_of_seal hL _ _ _ id ts) hw calls

/-! The AEAD of `transparent`, with one shared secret and one derived key. -/

def transparentLibrary : Library where
  x25519 _ _ := .ok (List.replicate keySize 1)
  basepoint := List.replicate keySize 9
  hkdf _ _ _ n := .ok ⟨List.replicate n 7,List.length_replicate⟩
  aeadSeal key nonce pt ad := spell key ++ (spell nonce ++ (spell ad ++ pt))
  aeadOpen key nonce ct ad :=
    match transparent.aeadXChaCha20Poly1305Decrypt key nonce ad ct with
    | some pt => .ok pt
    | none => .error "chacha20poly1305: message authentication failed"
  quoted s := s

theorem transparentLibrary_binds : transparentLibrary.Binds := by
  intro key nonce pt ad key' nonce' ad' pt' hopen
  simp only [transparentLibrary] at hopen
  split at hopen
  next p hp => exact transparent_aeadBinds key nonce ad pt _ key' nonce' ad' p rfl hp
  next => cases hopen

def sampleSession : Session where
  sendKey := ⟨List.replicate keySize 7,List.length_replicate⟩
  recvKey := ⟨List.replicate keySize 7,List.length_replicate⟩
  recv := newReplayGuard defaultReplayWindowMillis

def sampleWire : Bytes :=
  List.replicate nonceSize 5 ++ transparentLibrary.aeadSeal sampleSession.sendKey
    (List.replicate nonceSize 5) [104,105] (aad [255] Int64.minValue)

/- At this time the lower end of the window wraps around. -/
theorem sealed_opened_at_most_once_wrapped :
    transparentLibrary.Binds ∧
    sampleSession.sealWith transparentLibrary (List.replicate nonceSize 5) [255] Int64.minValue
      [104,105] = .ok sampleWire ∧
    (Machine.outputs (Session.call transparentLibrary) sampleSession
      (List.replicate 3 ⟨[255],Int64.minValue,sampleWire⟩)).countP
        (opens (sampleWire.drop nonceSize)) ≤ 1 := by
  let k : Key := ⟨List.replicate keySize 2,List.length_replicate⟩
  have hs : newSession transparentLibrary k k k k Role.mobile.wire = .ok sampleSession := rfl
  exact ⟨transparentLibrary_binds,rfl,
    sealed_opened_at_most_once transparentLibrary transparentLibrary_binds k k k k
      Role.mobile.wire sampleSession hs sampleSession (List.replicate nonceSize 5) [255]
      Int64.minValue [104,105] sampleWire rfl _⟩

end SecureGateway.E2ee.Go
