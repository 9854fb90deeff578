import SecureGateway.Lib.Since
import SecureGateway.E2ee.HandshakeAtomicity
import SecureGateway.Sdk.IosManager

/-!
# Closes and reconnects of the iOS client

`Tracks` relates a manager to the log of its effects: `attempt` counts the reconnects since a
task was last created, and every delay is drawn for the value it had. `receiveLoop` calls
`handleClose` with 1001 whatever the code was, and `connect` resets `attempt` when it creates
a task, not when the relay has been heard.
-/

namespace SecureGateway.Ios
open E2ee (Bytes)
open E2ee.Swift (HandshakeCoordinator Halt CryptoError Library)
open Sdk (ConnectionState Notice WireFrame)

namespace Effect

def isRetry : Effect → Bool
  | retry _ _ => true
  | _ => false

def isTask : Effect → Bool
  | createTask _ _ => true
  | _ => false

def isReceived : Effect → Bool
  | received _ => true
  | _ => false

def aside (e : Effect) : Bool := !e.isRetry && !e.isTask

end Effect

def sinceTask (log : List Effect) : ℕ := Since.since Effect.isRetry Effect.isTask log

def sinceFrame (log : List Effect) : ℕ := Since.since Effect.isRetry Effect.isReceived log

structure Tracks (log : List Effect) (m : Manager) : Prop where
  attempt : m.attempt = sinceTask log
  shown : m.state.isTerminal=false
  draws : ∀ pre a b post, log = pre ++ .retry a b :: post →
    a = sinceTask pre ∧ b = Manager.delayBound a

theorem sinceTask_append_aside (log es : List Effect) (h : ∀ e∈es,e.aside=true) :
    sinceTask (log++es)=sinceTask log := by
  have htask : es.any Effect.isTask=false := by
    rw [List.any_eq_false]
    intro e he htask
    have := h e he
    simp [Effect.aside,htask] at this
  have hretry : ∀ e∈es,e.isRetry=false := by
    intro e he
    have := h e he
    simp only [Effect.aside,Bool.and_eq_true,Bool.not_eq_true'] at this
    exact this.1
  unfold sinceTask
  rw [Since.since_append,htask,Since.since_of_forall _ _ es hretry]
  rfl

theorem retry_mem_prefix {log es pre post : List Effect} {a b : ℕ} (h : ∀ e∈es,e.isRetry=false)
    (heq : log++es=pre ++ .retry a b::post) : ∃ post',log=pre ++ .retry a b::post' := by
  rcases List.append_eq_append_iff.mp heq with ⟨x,hpre,hes⟩ | ⟨x,hlog,hpost⟩
  · have hmem : Effect.retry a b∈es := by
      rw [hes]
      simp
    cases h _ hmem
  cases x with
  | nil =>
    have hmem : Effect.retry a b∈es := by
      rw [List.nil_append] at hpost
      rw [← hpost]
      exact List.mem_cons_self
    cases h _ hmem
  | cons e x =>
    rw [List.cons_append] at hpost
    obtain ⟨rfl,-⟩:=List.cons.inj hpost
    exact ⟨x,hlog⟩

namespace Tracks
variable {log : List Effect} {m : Manager}

theorem aside {m' : Manager} {es : List Effect} (h : Tracks log m) (hattempt : m'.attempt=m.attempt)
    (hshown : m'.state.isTerminal=false) (hes : ∀ e∈es,e.aside=true) : Tracks (log++es) m' where
  attempt := by rw [hattempt,h.attempt,sinceTask_append_aside log es hes]
  shown := hshown
  draws pre a b post heq := by
    have hretry : ∀ e∈es,e.isRetry=false := by
      intro e he
      have := hes e he
      simp only [Effect.aside,Bool.and_eq_true,Bool.not_eq_true'] at this
      exact this.1
    obtain ⟨post',hlog⟩ := retry_mem_prefix hretry heq
    exact h.draws pre a b post' hlog

theorem andThen {r : Manager.Ran} {f : Manager → Manager.Ran} (h : Tracks (log++r.2) r.1)
    (hf : ∀ log,Tracks log r.1 → Tracks (log++(f r.1).2) (f r.1).1) :
    Tracks (log++(r.andThen f).2) (r.andThen f).1 := by
  unfold Manager.Ran.andThen
  split
  · exact h
  · rw [← List.append_assoc]
    exact hf _ h

theorem same {m' : Manager} (h : Tracks log m) (hattempt : m'.attempt=m.attempt)
    (hstate : m'.state=m.state) : Tracks log m' := by
  constructor
  · rw [hattempt,h.attempt]
  · rw [hstate,h.shown]
  · exact h.draws

theorem nil (h : Tracks log m) : Tracks (log ++ []) m := by
  rw [List.append_nil]
  exact h

/-! ### The handlers -/

theorem setState (h : Tracks log m) {s : ConnectionState} (hs : s.isTerminal=false) :
    Tracks (log++(m.setState s).2) (m.setState s).1 := by
  apply h.aside
  · rfl
  · exact hs
  intro e he
  rw [List.mem_singleton.mp he]
  rfl

theorem failPending (h : Tracks log m) (error : CryptoError) :
    Tracks (log++(m.failPending error).2) (m.failPending error).1 := by
  apply h.aside
  · rfl
  · exact h.shown
  intro e he
  obtain ⟨id,-,rfl⟩:=List.mem_map.mp he
  rfl

theorem write (h : Tracks log m) (frame : WireFrame String) :
    Tracks (log++(m.write frame).2) (m.write frame).1 := by
  unfold Manager.write
  cases m.task with
  | none => exact h.nil
  | some t =>
    apply h.aside rfl h.shown
    intro e he
    rw [List.mem_singleton.mp he]
    rfl

theorem receiveLoop (h : Tracks log m) : Tracks (log++m.receiveLoop.2) m.receiveLoop.1 := by
  unfold Manager.receiveLoop
  cases m.task with
  | none => exact h.nil
  | some t =>
    apply h.aside rfl h.shown
    intro e he
    rw [List.mem_singleton.mp he]
    rfl

theorem retry (h : Tracks log m) :
    Tracks (log ++ [.retry m.attempt (Manager.delayBound m.attempt)])
      { m with attempt := m.attempt+1 } where
  attempt := by
    have happend : sinceTask (log ++ [.retry m.attempt (Manager.delayBound m.attempt)]) =
        sinceTask log+1 := Since.since_append _ _ _ _
    rw [happend,← h.attempt]
  shown := h.shown
  draws pre a b post heq := by
    rcases List.append_eq_append_iff.mp heq with ⟨x,hpre,hlast⟩ | ⟨x,hlog,hpost⟩
    · -- the draw that has just been made
      cases x with
      | nil =>
        rw [List.append_nil] at hpre
        obtain ⟨hdraw,-⟩:=List.cons.inj hlast
        injection hdraw with ha hb
        rw [hpre,← h.attempt,← ha,← hb]
        exact ⟨rfl,rfl⟩
      | cons e x =>
        have hlen:=congrArg List.length hlast
        simp at hlen
    · cases x with
      | nil =>
        rw [List.append_nil] at hlog
        rw [List.nil_append] at hpost
        obtain ⟨hdraw,-⟩:=List.cons.inj hpost
        injection hdraw with ha hb
        rw [← hlog,← h.attempt,ha,hb]
        exact ⟨rfl,rfl⟩
      | cons e x =>
        rw [List.cons_append] at hpost
        obtain ⟨rfl,-⟩:=List.cons.inj hpost
        exact h.draws pre a b x hlog

theorem scheduleReconnect (h : Tracks log m) :
    Tracks (log++m.scheduleReconnect.2) m.scheduleReconnect.1 := by
  unfold Manager.scheduleReconnect
  split
  · exact h.nil
  · exact (h.setState rfl).andThen fun _ h => h.retry

theorem onFailure (h : Tracks log m) : Tracks (log++m.onFailure.2) m.onFailure.1 := by
  apply (h.failPending .openFailed).andThen
  intro log h
  rw [if_neg (by decide),if_neg (by decide),if_neg (by decide)]
  apply scheduleReconnect
  exact h.same rfl rfl

theorem onFrame (h : Tracks log m) (L : Library) (c : HandshakeCoordinator) (payload : Bytes)
    (id : String) (ts : Int64) : Tracks log (m.onFrame L c payload id ts).1 := by
  unfold Manager.onFrame
  split
  · exact h.same rfl rfl
  · exact h.same rfl rfl
  · exact h.same rfl rfl

theorem deliver (h : Tracks log m) (L : Library) (i : Inputs) (env : Bytes × String × Int64) :
    Tracks (log++(m.deliver L i env).2) (m.deliver L i env).1 := by
  unfold Manager.deliver
  cases m.handshake with
  | none => exact h.nil
  | some c =>
    have hframe:=h.onFrame L c env.1 env.2.1 env.2.2
    simp only
    generalize m.onFrame L c env.1 env.2.1 env.2.2=r at hframe ⊢
    obtain ⟨m',answer⟩:=r
    cases answer with
    | none => exact hframe.nil
    | some plaintext =>
      apply (hframe.write (.ack env.2.1 i.ts)).andThen
      intro log h
      apply h.aside
      · rfl
      · exact h.shown
      intro e he
      rw [List.mem_singleton.mp he]
      rfl

theorem deliverAll (h : Tracks log m) (L : Library) (i : Inputs)
    (envs : List (Bytes × String × Int64)) :
    Tracks (log++(Manager.deliverAll L i m envs).2) (Manager.deliverAll L i m envs).1 := by
  induction envs generalizing log m with
  | nil => exact h.nil
  | cons env envs ih => exact (h.deliver L i env).andThen fun _ h => ih h

theorem handleMsg (h : Tracks log m) (L : Library) (i : Inputs) (payload : Bytes) (id : String)
    (ts : Int64) :
    Tracks (log++(m.handleMsg L i payload id ts).2) (m.handleMsg L i payload id ts).1 := by
  unfold Manager.handleMsg
  split
  · exact h.nil
  · exact h.nil
  next first rest c hc =>
    split
    · apply andThen (h.onFrame L c (first::rest) id ts).nil
      intro log h
      split
      · apply deliverAll
        exact h.same rfl rfl
      · exact h.nil
    · split
      · apply nil
        exact h.same rfl rfl
      · exact h.deliver L i (first::rest,id,ts)

theorem handleSys (h : Tracks log m) (i : Inputs) (kind : Notice) :
    Tracks (log++(m.handleSys i kind).2) (m.handleSys i kind).1 := by
  cases kind with
  | peerOnline =>
    apply (h.setState rfl).andThen
    intro log h
    cases (m.setState .connected).1.handshake with
    | none => exact h.nil
    | some c => exact h.write _
  | peerOffline => exact h.setState rfl
  | shutdown => exact h.scheduleReconnect

theorem completeAck (h : Tracks log m) (id : String) :
    Tracks (log++(m.completeAck id).2) (m.completeAck id).1 := by
  unfold Manager.completeAck
  split
  · apply h.aside
    · rfl
    · exact h.shown
    intro e he
    rw [List.mem_singleton.mp he]
    rfl
  · exact h.nil

theorem handleMessage (h : Tracks log m) (L : Library) (i : Inputs) (frame : WireFrame String) :
    Tracks (log++(m.handleMessage L i frame).2) (m.handleMessage L i frame).1 := by
  cases frame with
  | msg payload id ts => exact h.handleMsg L i payload id ts
  | ack id ts => exact h.completeAck id
  | sys kind => exact h.handleSys i kind
  | errorPeerOffline => exact (h.setState rfl).andThen fun _ h => h.failPending .openFailed
  | authRefresh id ts token => exact h.nil
  | unread => exact h.nil

/-! ### The blocks -/

theorem onMessage (h : Tracks log m) (L : Library) (t : TaskID) (frame : WireFrame String) (i : Inputs) :
    Tracks (log++(m.onMessage L t frame i).2) (m.onMessage L t frame i).1 := by
  have hstart : Tracks (log ++ [.received t]) m := by
    apply h.aside
    · rfl
    · exact h.shown
    intro e he
    rw [List.mem_singleton.mp he]
    rfl
  apply andThen hstart
  intro log h
  exact (h.handleMessage L i frame).andThen fun _ h => h.receiveLoop

theorem send (h : Tracks log m) (L : Library) (id : String) (plaintext : Bytes) (i : Inputs) :
    Tracks (log++(m.send L id plaintext i).2) (m.send L id plaintext i).1 := by
  have hresume (m' : Manager) (failure : Halt) (hattempt : m'.attempt=m.attempt)
      (hstate : m'.state=m.state) : Tracks (log ++ [.resume id (some failure)]) m' := by
    apply h.aside hattempt (by rw [hstate]; exact h.shown)
    intro e he
    rw [List.mem_singleton.mp he]
    rfl
  unfold Manager.send
  split
  · exact hresume m _ rfl rfl
  · exact hresume m _ rfl rfl
  next c _ _ =>
    split
    · exact hresume m _ rfl rfl
    cases c.sealFrame L i.nonce id i.ts plaintext with
    | ok frame =>
      apply write
      exact h.same rfl rfl
    | error e => exact hresume _ e rfl rfl

theorem close (h : Tracks log m) : Tracks (log++m.close.2) m.close.1 := by
  unfold Manager.close
  cases m.task with
  | none =>
    apply nil
    exact h.same rfl rfl
  | some t =>
    apply h.aside
    · rfl
    · exact h.shown
    intro e he
    rw [List.mem_singleton.mp he]
    rfl

theorem connect (h : Tracks log m) (S : Setup) (t : TaskID) (i : Inputs)
    (hcrash : m.crashed=false) : Tracks (log++(m.connect S t i).2) (m.connect S t i).1 := by
  unfold Manager.connect
  split
  · exact h.nil
  simp only [Manager.Ran.andThen,hcrash,Bool.false_eq_true,if_false,Manager.write,
    Manager.setState,Manager.receiveLoop,List.cons_append,List.nil_append]
  constructor
  · unfold sinceTask
    rw [Since.since_append]
    rfl
  · rfl
  · intro pre a b post heq
    obtain ⟨post',hlog⟩ := retry_mem_prefix (by simp [Effect.isRetry]) heq
    exact h.draws pre a b post' hlog

end Tracks

namespace World
variable {L : Library} {S : Setup} {w : World}

theorem log_after (w : World) (r : Manager.Ran) : (w.after r).log=w.log++r.2 := by
  have hfold (es : List Effect) (w : World) : (es.foldl note w).log=w.log := by
    induction es generalizing w with
    | nil => rfl
    | cons e es ih =>
      rw [List.foldl_cons,ih]
      cases e <;> rfl
  rw [after,hfold]

theorem tracks_after {w : World} {r : Manager.Ran} (h : Tracks (w.log++r.2) r.1) :
    Tracks (w.after r).log (w.after r).manager := by
  rw [log_after]
  exact h

theorem tracks_next (h : Tracks w.log w.manager) (b : Block × Inputs) :
    Tracks (w.next L S b).log (w.next L S b).manager := by
  obtain ⟨block,i⟩:=b
  unfold next
  split
  · exact h
  next hskip =>
    have hcrash : w.manager.crashed=false := by
      cases hc : w.manager.crashed with
      | false => rfl
      | true => simp [hc] at hskip
    cases block with
    | start => exact tracks_after (h.connect S w.tasks i hcrash)
    | timer => exact tracks_after (h.connect S w.tasks i hcrash)
    | message t frame => exact tracks_after (h.onMessage L t frame i)
    | lost t code => exact tracks_after h.onFailure
    | send id plaintext => exact tracks_after (h.send L id plaintext i)
    | close => exact tracks_after h.close
    | refreshed reply =>
      cases reply with
      | none => exact h
      | some r =>
        apply tracks_after
        apply Tracks.write
        exact h.same rfl rfl

theorem tracks_run (token refresh : String) (bs : List (Block × Inputs)) :
    let w := Machine.run (next L S) (fresh token refresh) bs
    Tracks w.log w.manager := by
  apply Machine.run_invariant (next L S) (fun w => Tracks w.log w.manager)
  · intro w b h
    exact tracks_next h b
  constructor
  · rfl
  · rfl
  · intro pre a b post heq
    simp [fresh] at heq

/-! ### Backoff -/

def BacksOff (log : List Effect) : Prop :=
  ∀ pre a b post, log = pre ++ .retry a b :: post →
    a = sinceFrame pre ∧ b = min 60000 (1000 * 2 ^ sinceFrame pre)

/-- The delays are right exactly in the runs in which, between any two reconnects that are
scheduled, a task is created if and only if a frame is received. Two connections that fail
one after the other are enough to go wrong. -/
theorem backoff_counts_failures (L : Library) (S : Setup) (token refresh : String)
    (bs : List (Block × Inputs)) :
    BacksOff (Machine.run (next L S) (fresh token refresh) bs).log ↔
      ∀ x a b y a' b' z, (Machine.run (next L S) (fresh token refresh) bs).log =
          x ++ .retry a b :: (y ++ .retry a' b' :: z) →
        y.any Effect.isTask = y.any Effect.isReceived := by
  have htracks := tracks_run (L := L) (S := S) token refresh bs
  simp only at htracks
  generalize (Machine.run (next L S) (fresh token refresh) bs).log = log at htracks ⊢
  constructor
  · intro hback x a b y a' b' z hlog
    have hsplit : log = (x ++ .retry a b :: y) ++ .retry a' b' :: z := by
      rw [hlog,List.append_assoc,List.cons_append]
    have hframe := (hback _ _ _ _ hsplit).1
    have htask := (htracks.draws _ _ _ _ hsplit).1
    exact (Since.since_eq_iff _ _ _ _).mp (htask.symm.trans hframe) x _ y rfl rfl
  intro hboth pre a b post hlog
  obtain ⟨htask,hbound⟩ := htracks.draws pre a b post hlog
  have hsame : sinceTask pre = sinceFrame pre := by
    apply (Since.since_eq_iff _ _ _ _).mpr
    intro x e y hpre he
    cases e with
    | retry a₀ b₀ =>
      apply hboth x a₀ b₀ y a b post
      rw [hlog,hpre,List.append_assoc,List.cons_append]
    | createTask | receive | received | send | cancel | refresh | report | message | resume =>
      cases he
  rw [← hsame,← htask]
  exact ⟨rfl,hbound⟩

def unreachableRun : List (Block × Inputs) :=
  [(.start,{}),(.lost 0 none,{}),(.timer,{}),(.lost 1 none,{})]

theorem backoff_never_grows :
    ¬ BacksOff (Machine.run (next E2ee.transparentSwift ⟨.mobile,[],[]⟩) (fresh "" "")
      unreachableRun).log := by
  intro h
  generalize hlog : (Machine.run (next E2ee.transparentSwift ⟨.mobile,[],[]⟩) (fresh "" "")
    unreachableRun).log = log at h
  have hsplit : log = log.take 11 ++ .retry 0 1000 :: log.drop 12 := by
    rw [← hlog]
    decide +kernel
  have hcount : sinceFrame (log.take 11) = 1 := by
    rw [← hlog]
    decide +kernel
  have hdraw := (h _ _ _ _ hsplit).1
  rw [hcount] at hdraw
  cases hdraw

/-! ### Terminal closes -/

/-- The state a block should leave the manager in, if it is the end of the current socket
after the relay closed it with 4001 or 4004. -/
def terminalClose (w : World) : Block → Option ConnectionState
  | .lost t (some code) =>
    if w.manager.task = some t ∧ t ∈ w.receives ∧ w.manager.crashed=false then
      if code=closeSuperseded then some .superseded
      else if code=closeRevoked then some .revoked
      else none
    else none
  | _ => none

theorem terminalClose_isTerminal {w : World} {b : Block} {s : ConnectionState}
    (h : w.terminalClose b=some s) : s.isTerminal=true := by
  unfold terminalClose at h
  split at h
  · split at h
    · split at h
      · cases h
        rfl
      split at h
      · cases h
        rfl
      · cases h
    · cases h
  · cases h

def HonoursCloses (L : Library) (S : Setup) (w : World) (bs : List (Block × Inputs)) : Prop :=
  ∀ pre b post s, bs = pre ++ b :: post →
    (Machine.run (next L S) w pre).terminalClose b.1 = some s →
    (Machine.run (next L S) w bs).manager.state = s ∧
      (Machine.run (next L S) w bs).tasks = (Machine.run (next L S) w pre).tasks

/-- No terminal close is ever honoured: the runs that have the property are those in which
the relay closes no current socket with a terminal code. -/
theorem terminal_closes_honoured (L : Library) (S : Setup) (token refresh : String)
    (bs : List (Block × Inputs)) :
    HonoursCloses L S (fresh token refresh) bs ↔
      Machine.Guarded (next L S) (fun w b => w.terminalClose b.1 = none) (fresh token refresh)
        bs := by
  rw [Machine.guarded_iff]
  constructor
  · intro h pre b post hbs
    cases hclose : (Machine.run (next L S) (fresh token refresh) pre).terminalClose b.1 with
    | none => rfl
    | some s =>
      have hstate := (h pre b post s hbs hclose).1
      have hshown := (tracks_run (L := L) (S := S) token refresh bs).shown
      rw [hstate,terminalClose_isTerminal hclose] at hshown
      cases hshown
  · intro h pre b post s hbs hclose
    rw [h pre b post hbs] at hclose
    cases hclose

theorem superseded_client_reconnects :
    let w := Machine.run (next E2ee.transparentSwift ⟨.mobile,[],[]⟩) (fresh "" "") [(.start,{})]
    w.terminalClose (.lost 0 (some 4001)) = some .superseded ∧
    (Machine.run (next E2ee.transparentSwift ⟨.mobile,[],[]⟩) w
      [(.lost 0 (some 4001),{}),(.timer,{})]).manager.state = .connected ∧
    (Machine.run (next E2ee.transparentSwift ⟨.mobile,[],[]⟩) w
      [(.lost 0 (some 4001),{}),(.timer,{})]).tasks = w.tasks + 1 := by
  decide +kernel

end World
end SecureGateway.Ios
