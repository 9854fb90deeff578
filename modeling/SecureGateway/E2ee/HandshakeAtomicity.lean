import SecureGateway.E2ee.AtMostOnce

/-!
# Handshake frames that are refused

Both coordinators are seats of `Rekeying`: a handshake frame of the right length is an
offer, a data frame uses the session, anything else is refused. What a host can see of a
coordinator is what `onFrame` returns or throws, and the session it seals with.
-/

namespace SecureGateway.E2ee

def HandshakeCoordinator.behaviour (N : Native) (c : HandshakeCoordinator)
    (fs : List (Frame JavaString)) : List (Except Thrown (Option Bytes) × Option Session) :=
  Machine.outputs (Rekeying.watch (fun c f => c.onFrame N f.payload f.id f.ts) seat) c fs

namespace Swift.HandshakeCoordinator
variable (L : Library)

/- After a trap there is no process to feed. -/
def untilTrap : List (Except Halt (Option Bytes) × Option Session) →
    List (Except Halt (Option Bytes) × Option Session)
  | [] => []
  | (.error .trap,s) :: _ => [(.error .trap,s)]
  | o :: os => o :: untilTrap os

theorem untilTrap_singleton (o : Except Halt (Option Bytes) × Option Session) :
    untilTrap [o] = [o] := by
  obtain ⟨answer,s⟩:=o
  cases answer with
  | ok r => rfl
  | error h => cases h <;> rfl

def behaviour (c : HandshakeCoordinator) (fs : List (Frame String)) :
    List (Except Halt (Option Bytes) × Option Session) :=
  untilTrap
    (Machine.outputs (Rekeying.watch (fun c f => c.onFrame L f.payload f.id f.ts) seat) c fs)

end Swift.HandshakeCoordinator

/-! ### Refused handshakes -/

theorem HandshakeCoordinator.unnoticed_iff (N : Native) (c : HandshakeCoordinator) (body : Bytes)
    (id : JavaString) (ts : Int64) (e : Thrown)
    (he : (c.onFrame N (tagHandshake::body) id ts).2 = .error e) :
    (∀ fs,(c.onFrame N (tagHandshake::body) id ts).1.behaviour N fs=c.behaviour N fs) ↔
      body.length≠keySize ∨ c.session=none := by
  have hskip : body.length≠keySize → (c.onFrame N (tagHandshake::body) id ts).1=c := by
    intro hlen
    simp only [onFrame,acceptPeerEphemeral,if_true,if_pos hlen]
  have hoffer : ¬ body.length≠keySize → input N ⟨tagHandshake::body,id,ts⟩ = .offer body := by
    intro hlen
    simp only [input,frameInput,if_true,if_neg hlen]
  exact Rekeying.atomic_iff (onFrame_implements N) (fun os => os) (fun _ => rfl) hskip hoffer he

theorem Swift.HandshakeCoordinator.unnoticed_iff (L : Library) (c : HandshakeCoordinator)
    (body : Bytes) (id : String) (ts : Int64) (h : Halt)
    (hh : (c.onFrame L (tagHandshake::body) id ts).2 = .error h) :
    (∀ fs,(c.onFrame L (tagHandshake::body) id ts).1.behaviour L fs=c.behaviour L fs) ↔
      body.length≠keySize ∨ c.session=none := by
  have hskip : body.length≠keySize → (c.onFrame L (tagHandshake::body) id ts).1=c := by
    intro hlen
    simp only [onFrame,acceptPeerEphemeral,if_true,if_pos hlen]
  have hoffer : ¬ body.length≠keySize → input L ⟨tagHandshake::body,id,ts⟩ = .offer body := by
    intro hlen
    simp only [input,frameInput,if_true,if_neg hlen]
  exact Rekeying.atomic_iff (onFrame_implements L) untilTrap untilTrap_singleton hskip hoffer hh

/-- A handshake frame that is refused leaves no trace exactly if it has the wrong length or
there is no session yet. Where there is one, the coordinator has already given up the
ephemeral the session was built with. -/
theorem refused_handshake_unnoticed (body : Bytes) (ts : Int64) :
    (∀ (N : Native) (c : HandshakeCoordinator) (id : JavaString) (e : Thrown),
      (c.onFrame N (tagHandshake::body) id ts).2 = .error e →
      ((∀ fs, (c.onFrame N (tagHandshake::body) id ts).1.behaviour N fs = c.behaviour N fs) ↔
        body.length ≠ keySize ∨ c.session=none)) ∧
    ∀ (L : Swift.Library) (c : Swift.HandshakeCoordinator) (id : String) (h : Swift.Halt),
      (c.onFrame L (tagHandshake::body) id ts).2 = .error h →
      ((∀ fs, (c.onFrame L (tagHandshake::body) id ts).1.behaviour L fs = c.behaviour L fs) ↔
        body.length ≠ keySize ∨ c.session=none) := by
  constructor
  · intro N c id e he
    exact HandshakeCoordinator.unnoticed_iff N c body id ts e he
  · intro L c id h hh
    exact Swift.HandshakeCoordinator.unnoticed_iff L c body id ts h hh

def genuineFrames {Id : Type} (text : String → Id) : List (Frame Id) := (replayFrames text).take 2

def lowOrderFrame : Bytes := tagHandshake :: sampleKey 0

theorem refused_handshake_unnoticed_beforeSession :
    (replayReceiver.onFrame transparent lowOrderFrame "x" 0).2 =
      .error (.illegalArgument "crypto: ecdh failed (low-order point)") ∧
    (replayReceiver.onFrame transparent lowOrderFrame "x" 0).1.behaviour transparent
        (genuineFrames utf16) = replayReceiver.behaviour transparent (genuineFrames utf16) ∧
    (replayReceiverSwift.onFrame transparentSwift lowOrderFrame "x" 0).2 = .error .cryptoKit ∧
    (replayReceiverSwift.onFrame transparentSwift lowOrderFrame "x" 0).1.behaviour
        transparentSwift (genuineFrames fun s => s) =
      replayReceiverSwift.behaviour transparentSwift (genuineFrames fun s => s) :=
  ⟨rfl,((refused_handshake_unnoticed (sampleKey 0) 0).1 transparent replayReceiver "x" _
      rfl).mpr (.inr rfl) (genuineFrames utf16),
    rfl,((refused_handshake_unnoticed (sampleKey 0) 0).2 transparentSwift replayReceiverSwift "x" _
      rfl).mpr (.inr rfl) (genuineFrames fun s => s)⟩

def establishedReceiver : HandshakeCoordinator :=
  (genuineFrames utf16).foldl (fun c f => (c.onFrame transparent f.payload f.id f.ts).1)
    replayReceiver

def establishedReceiverSwift : Swift.HandshakeCoordinator :=
  (genuineFrames fun s => s).foldl (fun c f => (c.onFrame transparentSwift f.payload f.id f.ts).1)
    replayReceiverSwift

/- With a session, the refused point makes room for a replay of both frames. -/
theorem refused_handshake_forgets_ephemeral :
    ((establishedReceiver.onFrame transparent lowOrderFrame "x" 0).2 =
        .error (.illegalArgument "crypto: ecdh failed (low-order point)") ∧
      (establishedReceiver.behaviour transparent (genuineFrames utf16)).map Prod.fst =
        [.ok none,.error (.replay "e2ee: replay detected")] ∧
      ((establishedReceiver.onFrame transparent lowOrderFrame "x" 0).1.behaviour transparent
        (genuineFrames utf16)).map Prod.fst = [.ok none,.ok (some [104,105])]) ∧
    (establishedReceiverSwift.onFrame transparentSwift lowOrderFrame "x" 0).2 =
        .error .cryptoKit ∧
      (establishedReceiverSwift.behaviour transparentSwift (genuineFrames fun s => s)).map Prod.fst =
        [.ok none,.error (.thrown .replay)] ∧
      ((establishedReceiverSwift.onFrame transparentSwift lowOrderFrame "x" 0).1.behaviour
        transparentSwift (genuineFrames fun s => s)).map Prod.fst = [.ok none,.ok (some [104,105])] := by
  decide +kernel

end SecureGateway.E2ee
