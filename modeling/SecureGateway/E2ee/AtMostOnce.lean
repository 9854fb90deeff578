import SecureGateway.E2ee.Swift

/-!
# Replay under a hostile relay

The relay decides which frames reach a coordinator, in what order and how often, under which
ids, and may make up handshake frames. An earlier peer ephemeral that comes back after a
different one rebuilds the same keys around an empty window. In Java an id with an unpaired
surrogate has the bytes of another one, so that a frame opens under both. Where neither
happens, every sealed frame is returned at most once.
-/

namespace SecureGateway.E2ee
open HandshakeCoordinator ReplayWindow
open Rekeying (Guards NeverReturns KeysDiffer)

def handshakeBodies {Id : Type} (fs : List (Frame Id)) : List Bytes :=
  fs.filterMap fun f => offered f.payload

/- How often a frame with this payload was answered with a plaintext. -/
def returned {Id ε : Type} (payload : Bytes) (fs : List (Frame Id))
    (answers : List (Except ε (Option Bytes))) : ℕ :=
  Rekeying.taken (fun f => f.payload == payload) fs answers

/-! ### The Java coordinator -/

/- No payload is fed under two ids that differ and have the same bytes. -/
def NeverRespelled (fs : List (Frame JavaString)) : Prop :=
  ∀ f ∈ fs, ∀ g ∈ fs, f.payload = g.payload → getBytes f.id = getBytes g.id → f.id=g.id

instance (fs : List (Frame JavaString)) : Decidable (NeverRespelled fs) :=
  inferInstanceAs (Decidable (∀ f ∈ fs, ∀ g ∈ fs, _))

theorem neverRespelled_of_wellFormed {fs : List (Frame JavaString)}
    (h : ∀ f∈fs,wellFormed f.id=true) : NeverRespelled fs :=
  fun f hf g hg _ hbytes => getBytes_injective (h f hf) (h g hg) hbytes

section Java
variable {N : Native} {key nonce ad pt ct : Bytes} {fs : List (Frame JavaString)}

theorem opened_sealed (hN : AeadBinds N) (hct : aeadEncrypt N key nonce ad pt = .ok ct)
    {s s' : Session} {id : JavaString} {ts : Int64} {pt' : Bytes}
    (h : s.openWire N id ts (nonce++ct) = .ok (pt',s')) : s.recvKey=key ∧ aad id ts=ad := by
  have hlen : nonce.length=nonceSize := aeadEncrypt_nonce_length N _ _ _ _ _ hct
  obtain ⟨-,hdec,-⟩:=(Session.openWire_eq_ok N s s' id ts _ pt').mp h
  rw [← hlen,List.take_left,List.drop_left] at hdec
  obtain ⟨hkey,-,haad⟩:=aeadDecrypt_binds N hN _ _ _ _ _ _ _ _ _ hct hdec
  exact ⟨hkey,haad⟩

/- The window knows the frame by an id it was fed under. -/
def SpentAs (fs : List (Frame JavaString)) (payload ad : Bytes) (s : Session) : Prop :=
  ∃ f ∈ fs, f.payload = payload ∧ aad f.id f.ts = ad ∧ s.Spent f.id f.ts

theorem guards_java (hN : AeadBinds N) (hct : aeadEncrypt N key nonce ad pt = .ok ct)
    (hspelled : NeverRespelled fs) {f : Frame JavaString} (hf : f∈fs) :
    Guards Session.recvKey key (SpentAs fs (tagData::(nonce++ct)) ad)
      ((f.payload == tagData::(nonce++ct))=true) (input N f) where
  kept e u t p t' hinput hopen := by
    obtain ⟨body,-,rfl⟩:=frameInput_eq_use hinput
    obtain ⟨-,-,hcheck⟩:=(Session.openWire_eq_ok N t t' f.id f.ts body p).mp hopen
    constructor
    · obtain ⟨-,-,rfl⟩:=(Session.checkReplay_eq_ok t t' f.id f.ts).mp hcheck
      rfl
    · rintro ⟨g,hg,hp,had,hspent⟩
      exact ⟨g,hg,hp,had,Session.spent_of_checkReplay t t' _ _ _ _ hspent hcheck⟩
  once hmarked e u t p t' hinput hopen := by
    rw [beq_iff_eq] at hmarked
    obtain ⟨body,hp,rfl⟩:=frameInput_eq_use hinput
    obtain rfl : body=nonce++ct := (List.cons.inj (hp.symm.trans hmarked)).2
    obtain ⟨hkey,had⟩:=opened_sealed hN hct hopen
    obtain ⟨-,-,hcheck⟩:=(Session.openWire_eq_ok N t t' f.id f.ts _ p).mp hopen
    refine ⟨hkey,?_,f,hf,hp,had,?_⟩
    · rintro ⟨g,hg,hgp,hgad,hspent⟩
      obtain ⟨hbytes,hts⟩:=append_putLong_injective (hgad.trans had.symm)
      rw [hspelled g hg f hf (hgp.trans hp.symm) hbytes,hts] at hspent
      exact Session.not_spent_of_accepted t t' f.id f.ts hcheck hspent
    · obtain ⟨-,-,rfl⟩:=(Session.checkReplay_eq_ok t t' f.id f.ts).mp hcheck
      exact Session.spent_accept t f.id f.ts

end Java

/-! ### The Swift coordinator -/

namespace Swift
variable {L : Library} {s s' : Session} {id : String} {ts : Int64}

def Session.window (s : Session) : Window String := ⟨s.seen,s.lastTs,s.primed⟩

theorem minus_eq_ok {a b c : Int64} (h : minus a b = .ok c) : c=a - b := by
  unfold minus at h
  split at h
  · cases h
    rfl
  · cases h

theorem Session.checkReplay_window (h : s.checkReplay L id ts = .ok s') :
    s'.recvKey=s.recvKey ∧ s.window.Allows replayWindowMillis (L.canonical id) ts ∧
      s'.window=s.window.accept replayWindowMillis (L.canonical id) ts := by
  simp only [checkReplay,Outcome.bind_eq_ok,Outcome.guard_eq_ok,Outcome.pure_eq_ok,
    Bool.not_eq_true,Std.ExtTreeMap.contains_eq_isSome_getElem?,Option.isSome_eq_false_iff,
    Option.isNone_iff_eq_none] at h
  obtain ⟨stale,hstale,hfresh,hseen,floor,hfloor,rfl⟩:=h
  refine ⟨rfl,⟨?_,hseen⟩,?_⟩
  · rintro ⟨hprimed,hlt⟩
    have hp : s.primed=true := hprimed
    simp only [isStale,hp,if_true,Outcome.bind_eq_ok,Outcome.pure_eq_ok] at hstale
    obtain ⟨bound,hbound,rfl⟩:=hstale
    rw [minus_eq_ok hbound] at hfresh
    exact absurd hlt (by simpa [window] using hfresh)
  · rw [minus_eq_ok hfloor]
    simp only [window,Window.accept,Window.advanceTs,ge_iff_le,← Int64.not_lt,decide_not]
    rfl

theorem Session.openWire_eq_ok {wire pt : Bytes} (h : s.openWire L id ts wire = .ok (pt,s')) :
    L.aeadDecrypt s.recvKey (wire.take nonceSize) (aad id ts) (wire.drop nonceSize)=some pt ∧
      s.checkReplay L id ts = .ok s' := by
  simp only [openWire,Outcome.guard_eq_ok,Outcome.bind_eq_ok,Outcome.pure_eq_ok,
    Prod.mk.injEq] at h
  obtain ⟨-,p,hopen,t,hcheck,rfl,rfl⟩:=h
  refine ⟨?_,hcheck⟩
  unfold aeadOpen orHalt at hopen
  split at hopen
  next hp =>
    cases hopen
    exact hp
  · cases hopen

theorem HandshakeCoordinator.sealFrame_eq_ok {c : HandshakeCoordinator}
    {nonce plaintext payload : Bytes} (h : c.sealFrame L nonce id ts plaintext = .ok payload) :
    ∃ key ct,L.aeadEncrypt key nonce (aad id ts) plaintext=some ct ∧
      payload=tagData::(nonce++ct) := by
  unfold sealFrame at h
  cases hs : c.session with
  | none => simp [hs] at h
  | some s =>
    simp only [hs,Session.sealWith,Outcome.bind_eq_ok,Outcome.pure_eq_ok] at h
    obtain ⟨wire,⟨ct,hct,rfl⟩,rfl⟩:=h
    unfold aeadSeal orHalt at hct
    split at hct
    next ct' hct' =>
      cases hct
      exact ⟨s.sendKey,_,hct',rfl⟩
    · cases hct

theorem guards {key nonce pt ct : Bytes} (hL : Binds L.aeadEncrypt L.aeadDecrypt)
    (hct : L.aeadEncrypt key nonce (aad id ts) pt=some ct) (hlen : nonce.length=nonceSize)
    (f : Frame String) :
    Guards Session.recvKey key
      (fun s => s.window.Spent replayWindowMillis (L.canonical id) ts)
      ((f.payload == tagData::(nonce++ct))=true) (HandshakeCoordinator.input L f) where
  kept e u t p t' hinput hopen := by
    obtain ⟨body,-,rfl⟩:=frameInput_eq_use hinput
    obtain ⟨-,hcheck⟩:=Session.openWire_eq_ok hopen
    obtain ⟨hkey,hallows,hwindow⟩:=Session.checkReplay_window hcheck
    refine ⟨hkey,fun hspent => ?_⟩
    rw [hwindow]
    exact Window.spent_of_accept replayWindowMillis_nonneg hspent hallows
  once hmarked e u t p t' hinput hopen := by
    rw [beq_iff_eq] at hmarked
    obtain ⟨body,hp,rfl⟩:=frameInput_eq_use hinput
    obtain rfl : body=nonce++ct := (List.cons.inj (hp.symm.trans hmarked)).2
    obtain ⟨hdec,hcheck⟩:=Session.openWire_eq_ok hopen
    rw [← hlen,List.take_left,List.drop_left] at hdec
    obtain ⟨hkey,-,had⟩:=hL _ _ _ _ _ _ _ _ _ hct hdec
    obtain ⟨hid,hts⟩:=append_putLong_injective had
    obtain ⟨-,hallows,hwindow⟩:=Session.checkReplay_window hcheck
    rw [utf8_injective _ _ hid,hts] at hallows hwindow
    refine ⟨hkey,fun hspent => Window.not_allows_of_spent hspent hallows,?_⟩
    rw [hwindow]
    exact Window.spent_accept

end Swift

/-- At-most-once delivery: in every life of a coordinator in which no peer ephemeral comes
back after a different one, and in Java no frame comes under another spelling of its id, a
frame sealed by the peer is returned as plaintext at most once, whatever else the relay
feeds. -/
theorem sealed_returned_at_most_once (N : Native) (hN : AeadBinds N) (L : Swift.Library)
    (hL : Binds L.aeadEncrypt L.aeadDecrypt) (idPriv peerIdPub ephPriv ephPub : Bytes)
    (role : Role) :
    (∀ c : HandshakeCoordinator, HandshakeCoordinator.new N idPriv peerIdPub role ephPriv = .ok c →
      ∀ fs : List (Frame JavaString), NeverReturns (handshakeBodies fs) → NeverRespelled fs →
      KeysDiffer (c.rekey N) Session.recvKey (handshakeBodies fs) →
      ∀ (peer : HandshakeCoordinator) (nonce : Bytes) (id : JavaString) (ts : Int64)
        (plaintext payload : Bytes), peer.sealFrame N nonce id ts plaintext = .ok payload →
        returned payload fs
          (Machine.outputs (fun c f => c.onFrame N f.payload f.id f.ts) c fs) ≤ 1) ∧
    ∀ fs : List (Frame String),
      let c := Swift.HandshakeCoordinator.new idPriv peerIdPub role ephPriv ephPub
      NeverReturns (handshakeBodies fs) →
      KeysDiffer (c.rekey L) Swift.Session.recvKey (handshakeBodies fs) →
      ∀ (peer : Swift.HandshakeCoordinator) (nonce : Bytes), nonce.length = nonceSize →
      ∀ (id : String) (ts : Int64) (plaintext payload : Bytes),
        peer.sealFrame L nonce id ts plaintext = .ok payload →
        returned payload fs
          (Machine.outputs (fun c f => c.onFrame L f.payload f.id f.ts) c fs) ≤ 1 := by
  constructor
  · intro c hc fs hret hspelled hkeys peer nonce id ts plaintext payload hseal
    obtain ⟨s,ct,-,hct,rfl⟩ := sealFrame_eq_ok N peer nonce id ts plaintext payload hseal
    have hfresh : seat c=⟨none,none⟩ := by
      simp only [HandshakeCoordinator.new,Outcome.bind_eq_ok,Outcome.pure_eq_ok] at hc
      obtain ⟨pub,-,rfl⟩ := hc
      rfl
    have hoffers : Rekeying.offers (input N) fs=handshakeBodies fs := by
      simp only [Rekeying.offers,handshakeBodies,input,frameInput_offered]
    rw [← hoffers] at hret hkeys
    exact Rekeying.taken_le_one (onFrame_implements N) hfresh
      (fun f hf => guards_java hN hct hspelled hf) hkeys hret
  · intro fs c hret hkeys peer nonce hlen id ts plaintext payload hseal
    obtain ⟨key,ct,hct,rfl⟩ := Swift.HandshakeCoordinator.sealFrame_eq_ok hseal
    have hoffers : Rekeying.offers (Swift.HandshakeCoordinator.input L) fs=handshakeBodies fs := by
      simp only [Rekeying.offers,handshakeBodies,Swift.HandshakeCoordinator.input,
        frameInput_offered]
    rw [← hoffers] at hret hkeys
    exact Rekeying.taken_le_one (Swift.HandshakeCoordinator.onFrame_implements L) rfl
      (fun f _ => Swift.guards hL hct hlen f) hkeys hret

/-! ### Frames that come out twice -/

def sampleKey (b : UInt8) : Bytes := List.replicate keySize b

def replayReceiver : HandshakeCoordinator where
  idPriv := sampleKey 2
  peerIdPub := sampleKey 1
  myRole := .desktop
  ephPriv := sampleKey 3
  ephPub := sampleKey 3
  session := none
  sessionPeerEphPub := none

def replaySender : HandshakeCoordinator :=
  let fresh : HandshakeCoordinator :=
    { idPriv := sampleKey 1, peerIdPub := sampleKey 2, myRole := .mobile, ephPriv := sampleKey 4,
      ephPub := sampleKey 4, session := none, sessionPeerEphPub := none }
  (fresh.onFrame transparent replayReceiver.handshakeFrame "hs" 0).1

def zeroNonce : Bytes := List.replicate nonceSize 0

/- The frame of the greeting `hi`, sealed under this id. -/
def greeting (id : JavaString) : Bytes :=
  match replaySender.sealFrame transparent zeroNonce id 1000 [104,105] with
  | .ok payload => payload
  | .error _ => []

def replayPayload : Bytes := greeting "m1"

def transparentSwift : Swift.Library where
  publicKey := transparent.cryptoScalarMultBase
  sharedSecret := transparent.cryptoScalarMult
  hkdf := Hkdf.derive transparent
  aeadEncrypt := transparent.aeadXChaCha20Poly1305Encrypt
  aeadDecrypt := transparent.aeadXChaCha20Poly1305Decrypt
  canonical s := s

def replayReceiverSwift : Swift.HandshakeCoordinator :=
  .new (sampleKey 2) (sampleKey 1) .desktop (sampleKey 3) (sampleKey 3)

def replaySenderSwift : Swift.HandshakeCoordinator :=
  ((Swift.HandshakeCoordinator.new (sampleKey 1) (sampleKey 2) .mobile (sampleKey 4)
    (sampleKey 4)).onFrame transparentSwift replayReceiver.handshakeFrame "hs" 0).1

/- Any 32 bytes between the handshake and its replay; `text` writes the ids. -/
def replayFrames {Id : Type} (text : String → Id) : List (Frame Id) :=
  [⟨replaySender.handshakeFrame,text "hs",0⟩,⟨replayPayload,text "m1",1000⟩,
    ⟨tagHandshake :: sampleKey 5,text "x",0⟩,
    ⟨replaySender.handshakeFrame,text "hs",0⟩,⟨replayPayload,text "m1",1000⟩]

/- The same frame under `m?` and under `m` with half of a surrogate pair. -/
def respelledFrames : List (Frame JavaString) :=
  [⟨replaySender.handshakeFrame,"hs",0⟩,⟨greeting "m?",utf16 "m" ++ [0xD800],1000⟩,
    ⟨greeting "m?","m?",1000⟩]

def returnedJava (payload : Bytes) (fs : List (Frame JavaString)) : ℕ :=
  returned payload fs
    (Machine.outputs (fun c f => c.onFrame transparent f.payload f.id f.ts) replayReceiver fs)

def returnedSwift (payload : Bytes) (fs : List (Frame String)) : ℕ :=
  returned payload fs
    (Machine.outputs (fun c f => c.onFrame transparentSwift f.payload f.id f.ts)
      replayReceiverSwift fs)

theorem sealed_returned_twice :
    AeadBinds transparent ∧
    HandshakeCoordinator.new transparent (sampleKey 2) (sampleKey 1) .desktop (sampleKey 3) =
      .ok replayReceiver ∧
    (∀ id ∈ ([utf16 "m1",utf16 "m?"] : List JavaString),
      replaySender.sealFrame transparent zeroNonce id 1000 [104,105] = .ok (greeting id)) ∧
    returnedJava replayPayload (replayFrames utf16) = 2 ∧
    (NeverReturns (handshakeBodies respelledFrames) ∧
      returnedJava (greeting "m?") respelledFrames = 2) ∧
    replaySenderSwift.sealFrame transparentSwift zeroNonce "m1" 1000 [104,105] =
      .ok replayPayload ∧
    returnedSwift replayPayload (replayFrames fun s => s) = 2 := by
  refine ⟨transparent_aeadBinds,rfl,?_⟩
  decide +kernel

/- An interposed handshake, after which the frame is not opened any more. -/
def replayFreeFrames {Id : Type} (text : String → Id) : List (Frame Id) :=
  (replayFrames text).take 3 ++ [⟨replayPayload,text "m1",1000⟩]

theorem transparent_keysDiffer {σ ε : Type} {build : Bytes → Except ε σ} {secret : σ → Bytes}
    {bodies : List Bytes}
    (h : ∀ b∈bodies,((build b).toOption.map secret)=some b) : KeysDiffer build secret bodies := by
  intro b hb b' hb' t t' ht ht' hk
  have hsec:=h b hb
  have hsec':=h b' hb'
  simp only [ht,ht',Except.toOption,Option.map_some,Option.some.injEq] at hsec hsec'
  rw [← hsec,← hsec',hk]

theorem sealed_returned_once_replayFree :
    returnedJava replayPayload (replayFreeFrames utf16) ≤ 1 ∧
      returnedSwift replayPayload (replayFreeFrames fun s => s) ≤ 1 := by
  obtain ⟨hjava,hswift⟩ := sealed_returned_at_most_once transparent transparent_aeadBinds
    transparentSwift transparent_aeadBinds (sampleKey 2) (sampleKey 1) (sampleKey 3) (sampleKey 3)
    .desktop
  constructor
  · exact hjava replayReceiver rfl (replayFreeFrames utf16) (by decide +kernel) (by decide +kernel)
      (transparent_keysDiffer (by decide +kernel)) replaySender zeroNonce "m1" 1000 [104,105]
      replayPayload (by decide +kernel)
  · exact hswift (replayFreeFrames fun s => s) (by decide +kernel)
      (transparent_keysDiffer (by decide +kernel)) replaySenderSwift zeroNonce rfl "m1" 1000
      [104,105] replayPayload (by decide +kernel)

end SecureGateway.E2ee
