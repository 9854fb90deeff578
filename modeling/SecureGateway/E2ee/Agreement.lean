import SecureGateway.E2ee.Handshake

/-!
# Both ends derive the same keys

If X25519 agrees on honest keys, a mobile and a desktop coordinator that have each
accepted the other's ephemeral hold sessions whose send and receive keys are
crossed. `Coherent` ties a coordinator's session to the ephemeral it last accepted;
every frame keeps it.
-/

namespace SecureGateway.E2ee
open Outcome HandshakeCoordinator

/-- X25519 on honest keys: every private key has a public key, and the two ways to
form a shared secret give the same non-zero value. -/
structure X25519Agrees (N : Native) : Prop where
  base : ∀ priv, priv.length=keySize →
    ∃ pub, N.cryptoScalarMultBase priv = some pub ∧ pub.length=keySize
  agree : ∀ a b A B, a.length=keySize → b.length=keySize →
    N.cryptoScalarMultBase a = some A → N.cryptoScalarMultBase b = some B →
    ∃ k, N.cryptoScalarMult a B = some k ∧ N.cryptoScalarMult b A = some k ∧ isAllZero k = false

theorem isAllZero_replicate_one : isAllZero (List.replicate keySize 1)=false := by decide

theorem transparent_x25519 : X25519Agrees transparent where
  base priv h := by
    refine ⟨_,rfl,?_⟩
    split
    · simp
    · exact h
  agree a b A B ha hb hA hB := by
    have honest : ∀ x X,transparent.cryptoScalarMultBase x=some X → isAllZero X=false := by
      intro x X hX
      simp only [transparent,Option.some.injEq] at hX
      subst hX
      split
      next => exact isAllZero_replicate_one
      next h => simpa using h
    refine ⟨List.replicate keySize 1,?_,?_,isAllZero_replicate_one⟩
    · simp [transparent,honest b B hB]
    · simp [transparent,honest a A hA]

variable (N : Native)

structure HonestKey where
  priv : Bytes
  pub : Bytes
  privLen : priv.length=keySize
  pubLen : pub.length=keySize
  isPub : N.cryptoScalarMultBase priv = some pub

variable {N}

theorem HonestKey.publicFromPrivate (k : HonestKey N) : publicFromPrivate N k.priv = .ok k.pub := by
  simp [E2ee.publicFromPrivate,requireLen,k.privLen,k.isPub,bind,Except.bind,pure,
    Except.pure]

theorem deriveSharedSecret_agree (hN : X25519Agrees N) (a b : HonestKey N) :
    ∃ k,deriveSharedSecret N a.priv b.pub = .ok k ∧ deriveSharedSecret N b.priv a.pub = .ok k := by
  obtain ⟨k,hab,hba,hk⟩ := hN.agree a.priv b.priv a.pub b.pub a.privLen b.privLen a.isPub b.isPub
  refine ⟨k,?_,?_⟩
  · simp [deriveSharedSecret,requireLen,a.privLen,b.pubLen,hab,hk,bind,Except.bind,pure,
      Except.pure]
  · simp [deriveSharedSecret,requireLen,b.privLen,a.pubLen,hba,hk,bind,Except.bind,pure,
      Except.pure]

theorem create_agree (hN : X25519Agrees N) (idM idD ephM ephD : HonestKey N) :
    ∃ m d,Session.create N idM.priv idD.pub ephM.priv ephD.pub .mobile = .ok m ∧
      Session.create N idD.priv idM.pub ephD.priv ephM.pub .desktop = .ok d ∧
      m.sendKey=d.recvKey ∧ m.recvKey=d.sendKey := by
  obtain ⟨ss,hss,hss'⟩:=deriveSharedSecret_agree hN idM idD
  obtain ⟨ee,hee,hee'⟩:=deriveSharedSecret_agree hN ephM ephD
  obtain ⟨md,hmd,hmd'⟩:=deriveSharedSecret_agree hN idM ephD
  obtain ⟨dm,hdm,hdm'⟩:=deriveSharedSecret_agree hN ephM idD
  let key := Session.deriveKey N (ss++ee++md++dm) (ephM.pub++ephD.pub)
  refine ⟨Session.new (key dirM2D) (key dirD2M),Session.new (key dirD2M) (key dirM2D),
    ?_,?_,rfl,rfl⟩
  · simp only [Session.create,ephM.publicFromPrivate,hss,hee,hmd,hdm,bind,Except.bind,pure,
      Except.pure,key]
  · simp only [Session.create,ephD.publicFromPrivate,hss',hee',hmd',hdm',bind,Except.bind,
      pure,Except.pure,key]

/-! ### The session belongs to the ephemeral last accepted -/

/-- If the ephemeral last accepted derives keys at all, the session has them. -/
def Coherent (N : Native) (c : HandshakeCoordinator) : Prop :=
  ∀ b s₀, c.sessionPeerEphPub = some b → c.rekey N b = .ok s₀ →
    ∃ s, c.session = some s ∧ s.sendKey=s₀.sendKey ∧ s.recvKey=s₀.recvKey

theorem openWire_keys (N : Native) (s s' : Session) (id : JavaString) (ts : Int64) (wire pt : Bytes)
    (h : s.openWire N id ts wire = .ok (pt,s')) : s'.sendKey=s.sendKey ∧ s'.recvKey=s.recvKey := by
  obtain ⟨-,-,hcheck⟩:=(Session.openWire_eq_ok N s s' id ts wire pt).mp h
  obtain ⟨-,-,rfl⟩:=(Session.checkReplay_eq_ok s s' id ts).mp hcheck
  exact ⟨rfl,rfl⟩

theorem coherent_onFrame (N : Native) (c : HandshakeCoordinator) (payload : Bytes) (id : JavaString)
    (ts : Int64) (h : Coherent N c) : Coherent N (c.onFrame N payload id ts).1 := by
  have heff:=onFrame_effect N c payload id ts
  generalize c.onFrame N payload id ts=r at heff
  cases heff with
  | refused e hoff => exact h
  | repeated body hoff hs hb => exact h
  | rekeyFailed body e hoff herr =>
    intro b s₀ hb hs₀
    simp only [Option.some.injEq] at hb
    subst hb
    rw [show rekey N { c with sessionPeerEphPub := some body } body=c.rekey N body from rfl,
      herr] at hs₀
    cases hs₀
  | rekeyed body s hoff hnew hs =>
    intro b s₀ hb hs₀
    simp only [Option.some.injEq] at hb
    subst hb
    have hsame : c.rekey N body = .ok s₀ := hs₀
    rw [hs,Except.ok.injEq] at hsame
    exact ⟨s,rfl,by rw [hsame],by rw [hsame]⟩
  | opened wire pt s s' hp hs ho =>
    intro b s₀ hb hs₀
    obtain ⟨t,ht,hsend,hrecv⟩:=h b s₀ hb hs₀
    rw [hs,Option.some.injEq] at ht
    subst ht
    obtain ⟨hsend',hrecv'⟩:=openWire_keys N s s' id ts wire pt ho
    exact ⟨s',rfl,hsend'.trans hsend,hrecv'.trans hrecv⟩

theorem onFrame_sessionPeerEphPub (N : Native) (c : HandshakeCoordinator) (payload : Bytes)
    (id : JavaString) (ts : Int64) :
    (c.onFrame N payload id ts).1.sessionPeerEphPub =
      match offered payload with
      | some body => some body
      | none => c.sessionPeerEphPub := by
  have heff:=onFrame_effect N c payload id ts
  generalize c.onFrame N payload id ts=r at heff
  cases heff with
  | refused e hoff => simp [hoff]
  | repeated body hoff hs hb => simp [hoff,hb]
  | rekeyFailed body e hoff herr => simp [hoff]
  | rekeyed body s hoff hnew hs => simp [hoff]
  | opened wire pt s s' hp hs ho => simp [hp,offered,tagData,tagHandshake]

theorem onFrame_keys (N : Native) (c : HandshakeCoordinator) (payload : Bytes) (id : JavaString)
    (ts : Int64) :
    let c' := (c.onFrame N payload id ts).1
    c'.idPriv=c.idPriv ∧ c'.peerIdPub=c.peerIdPub ∧ c'.myRole=c.myRole ∧
      c'.ephPriv=c.ephPriv ∧ c'.ephPub=c.ephPub := by
  have heff:=onFrame_effect N c payload id ts
  generalize c.onFrame N payload id ts=r at heff
  cases heff <;> exact ⟨rfl,rfl,rfl,rfl,rfl⟩

end SecureGateway.E2ee
