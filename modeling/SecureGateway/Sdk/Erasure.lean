import SecureGateway.Sdk.Lifecycle

/-!
# The connection loop is the manager with timers, sends and callbacks erased

`ConnectionManager`, which `Relay.Network` runs, keeps of `Manager` the active transport, the
coordinator and the buffered frames, and of its effects the handshakes and acks it writes. The
client's own messages are data frames, which `Network.write` sends. Until a session ends, a task
opens a transport, hears an envelope, tears the connection down, or shows nothing.
-/

namespace SecureGateway.Sdk
open E2ee

/- `sys` shutdown tears down; the manager drops the others. -/
def WireFrame.envelope : WireFrame JavaString → Option Envelope
  | msg payload id ts => some (.msg payload id ts)
  | ack id _ => some (.ack id)
  | sys .peerOnline => some (.sys .peerOnline)
  | sys .peerOffline => some (.sys .peerOffline)
  | errorPeerOffline => some .errorPeerOffline
  | sys .shutdown | authRefresh _ _ _ | unread => none

namespace ConnectionManager
variable (N : Native) (cred : Credentials)

/- The envelopes of a handler go out on the active transport, as in `Network.send`. -/
def written (r : ConnectionManager TransportID × List Envelope) : Shown :=
  (r.1,match r.1.active with
    | some t => r.2.map (t,·)
    | none => [])

@[simp] theorem written_nil (m : ConnectionManager TransportID) : written (m,[])=(m,[]) := by
  cases hact : m.active <;> simp [written,hact]

/-- The steps of a client in `Network`, `write` apart. -/
inductive Input
  | opened (t : TransportID) (ephPriv : Bytes) (id : JavaString) (ts : Int64)
  | message (env : Envelope) (id : JavaString) (ts : Int64)
  | teardown
  deriving DecidableEq

def step (m : ConnectionManager TransportID) : Input → Shown
  | .opened t ephPriv id ts => written (m.handleOpen N cred t ephPriv id ts)
  | .message env id ts => written (m.handleMessage N env id ts)
  | .teardown => (m.teardownActive,[])

def next (s : Shown) (a : Input) : Shown :=
  ((s.1.step N cred a).1,s.2 ++ (s.1.step N cred a).2)

end ConnectionManager

namespace Manager
open ConnectionManager (written written_nil)

theorem hidden_of_erase {m m' : Manager} (h : m'.erase=m.erase) : Hidden m (m',[]) :=
  Prod.ext h rfl

theorem hidden_setState (m : Manager) (s : ConnectionState) : Hidden m (m.setState s) := by
  unfold setState
  split <;> rfl

theorem erase_sendFrame (m : Manager) (frame : WireFrame JavaString) (envs : List Envelope)
    (h : ∀ t,(Effect.send t frame).wire=envs.map (t,·)) :
    Ran.erase (m,m.sendFrame frame)=written (m.erase,envs) := by
  unfold sendFrame
  cases hact : m.active with
  | none => simp [Ran.erase,written,erase,hact]
  | some t => simp [Ran.erase,written,erase,hact,h]

variable (N : Native) (S : Setup) (m : Manager) (c : HandshakeCoordinator) (i : Inputs)

theorem erase_scheduleConnect (delay : Int64) : (m.scheduleConnect delay).erase=m.erase := by
  unfold scheduleConnect
  split
  · rfl
  · split <;> rfl

theorem erase_start : (m.start S i).erase=m.erase := by
  unfold start
  split
  · rfl
  · rw [(silent_scheduleRefresh S _ i).hidden.same,erase_scheduleConnect]
    rfl

/-! ### Opening and tearing down -/

theorem erase_handleOpen (t : TransportID) :
    (m.handleOpen N S t i).erase=written (m.erase.handleOpen N S.cred t i.ephPriv i.uuid i.ts) := by
  unfold handleOpen ConnectionManager.handleOpen
  cases HandshakeCoordinator.new N S.cred.myPrivateKey S.cred.peerPublicKey S.cred.role i.ephPriv with
  | error e => rfl
  | ok c =>
    simp only
    rw [greet,erase_andThen_hidden]
    · exact erase_sendFrame _ _ [.msg c.handshakeFrame i.uuid i.ts] fun t => rfl
    · apply (hidden_setState _ _).andThen
      apply hidden_of_erase
      simp only [startWatchdog]
      split
      · rfl
      · split <;> rfl

theorem erase_closeActive (reason : String) :
    (m.closeActive reason).erase=({ m.erase with active := none },[]) := by
  unfold closeActive
  cases hact : m.active with
  | none => simp [Ran.erase,erase,hact]
  | some t => rfl

theorem erase_teardownActive : m.teardownActive.erase=(.idle,[]) := by
  have hclosed : (m.cancelWatchdog.closeActive "reconnecting").erase = _ :=
    erase_closeActive m.cancelWatchdog "reconnecting"
  have hactive : (m.cancelWatchdog.closeActive "reconnecting").1.active=none :=
    congrArg (fun r => r.1.active) hclosed
  rw [teardownActive,erase_andThen,hclosed,(silent_failPendingAcks _ _).hidden]
  exact Prod.ext (congrArg (ConnectionManager.mk · none []) hactive) rfl

theorem erase_scheduleReconnect (h : (!m.running || m.terminal)=false) :
    (m.scheduleReconnect i).erase=(.idle,[]) := by
  rw [scheduleReconnect,if_neg (by rw [h]; exact Bool.false_ne_true),erase_andThen_hidden]
  · exact erase_teardownActive m
  · exact (hidden_setState _ _).andThen (hidden_of_erase (erase_scheduleConnect _ _))

/- Nothing is shown, or the connection is torn down. -/
def Unheard (m : Manager) (r : Ran) : Prop := Hidden m r ∨ r.erase=(.idle,[])

theorem unheard_scheduleReconnect : Unheard m (m.scheduleReconnect i) := by
  cases h : (!m.running || m.terminal) with
  | false => exact .inr (erase_scheduleReconnect m i h)
  | true =>
    rw [scheduleReconnect,if_pos h]
    exact .inl rfl

theorem Unheard.after {m : Manager} {r : Ran} {f : Manager → Ran} (h : Hidden m r)
    (h' : Unheard r.1 (f r.1)) : Unheard m (r.andThen f) := by
  rcases h' with hhidden | htorn
  · exact .inl (h.andThen hhidden)
  · exact .inr ((h.erase_andThen f).trans htorn)

theorem unheard_attemptConnect (t : TransportID) (dial : Dial) :
    Unheard m (m.attemptConnect S t dial i) := by
  unfold attemptConnect
  split
  · exact .inl rfl
  cases dial with
  | noTransport => exact .inl rfl
  | returns => exact .inl rfl
  | throws =>
    apply Unheard.after
    · rfl
    · exact unheard_scheduleReconnect m i

theorem unheard_watchdogTask : Unheard m (m.watchdogTask i) := by
  unfold watchdogTask
  split
  · exact .inl rfl
  apply Unheard.after
  · rfl
  split
  · exact unheard_scheduleReconnect m i
  · exact .inl rfl

/-! ### Messages -/

/- What a handler leaves that makes the coordinator `r.1` and writes `r.2`. -/
def coordinated (cm : ConnectionManager TransportID) (r : HandshakeCoordinator × List Envelope) :
    Shown :=
  written ({ cm with handshake := some r.1 },r.2)

theorem coordinated_append (cm : ConnectionManager TransportID) (c₁ c₂ : HandshakeCoordinator)
    (envs envs' : List Envelope) :
    (coordinated cm (c₂,envs++envs')).2 =
      (coordinated cm (c₁,envs)).2++(coordinated cm (c₂,envs')).2 := by
  cases hact : cm.active <;> simp [coordinated,written,hact]

variable {c}

theorem erase_deliverData (hc : m.handshake=some c) (payload : Bytes) (id : JavaString)
    (ts : Int64) :
    (m.deliverData N payload id ts i).erase =
      coordinated m.erase (ConnectionManager.deliverData N c payload id ts) := by
  simp only [deliverData,hc,ConnectionManager.deliverData]
  rcases c.onFrame N payload id ts with ⟨c',_ | _ | plaintext⟩
  · exact (written_nil _).symm
  · exact (written_nil _).symm
  · have hack : Ran.erase (m,m.sendFrame (.ack id i.ts)) = _ :=
      erase_sendFrame m _ [.ack id] fun _ => rfl
    have hsent : ((m.sendFrame (.ack id i.ts)).flatMap Effect.wire) = _ :=
      congrArg Prod.snd hack
    simp only [Ran.erase,List.flatMap_append,hsent]
    exact Prod.ext rfl (List.append_nil _)

theorem erase_deliverBuffered (hc : m.handshake=some c) (buf : List (Bytes × JavaString × Int64)) :
    (deliverBuffered N i m buf).erase =
      coordinated m.erase (ConnectionManager.drainBufferedData N c buf) := by
  induction buf generalizing m c with
  | nil =>
    rw [ConnectionManager.drainBufferedData,coordinated,written_nil,← hc]
    rfl
  | cons d rest ih =>
    obtain ⟨payload,id,ts⟩:=d
    have hfirst : (m.deliverData N payload id ts i).erase = _ :=
      erase_deliverData N m i hc payload id ts
    have hrest:=ih (m.deliverData N payload id ts i).1
      (congrArg (fun r => r.1.handshake) hfirst)
    have hmid : (m.deliverData N payload id ts i).1.erase = _ := congrArg Prod.fst hfirst
    rw [hmid] at hrest
    have hlast : (deliverBuffered N i (m.deliverData N payload id ts i).1 rest).1.erase = _ :=
      congrArg Prod.fst hrest
    rw [deliverBuffered,erase_andThen,hrest,hfirst,hlast]
    exact Prod.ext rfl (coordinated_append _ _ _ _ _).symm

theorem erase_drainBufferedData (hc : m.handshake=some c) :
    (m.drainBufferedData N i).erase = coordinated { m.erase with bufferedData := [] }
      (ConnectionManager.drainBufferedData N c m.bufferedData) :=
  erase_deliverBuffered N { m with bufferedData := [] } i hc m.bufferedData

theorem erase_handleMsg (hc : m.handshake=some c) (payload : Bytes) (id : JavaString)
    (ts : Int64) :
    (m.handleMsg N payload id ts i).erase =
      written (m.erase.handleMsg N c payload id ts) := by
  cases payload with
  | nil => simp [handleMsg,ConnectionManager.handleMsg,Ran.erase]
  | cons tag body =>
    simp only [handleMsg,hc,ConnectionManager.handleMsg]
    by_cases htag : tag=tagHandshake
    · simp only [htag,if_true]
      rcases c.onFrame N (tagHandshake::body) id ts with ⟨c',_ | res⟩
      · exact (written_nil _).symm
      by_cases hdone : c'.isComplete=true
      · simp only [hdone,if_true]
        have hflush : Hidden { m with handshake := some c' }
            (flushSendQueue N { m with handshake := some c' } c' i) :=
          (silent_writeDrained N c' i { m with handshake := some c', sendQueue := [] } _).hidden
        have hsession:=congrArg ConnectionManager.handshake hflush.same
        have hbuffer:=congrArg ConnectionManager.bufferedData hflush.same
        rw [hflush.erase_andThen,erase_drainBufferedData N _ i hsession,hflush.same]
        simp only [erase] at hbuffer
        rw [hbuffer]
        rfl
      · simp only [hdone]
        exact (written_nil _).symm
    simp only [htag,if_false]
    by_cases hdone : c.isComplete=true
    · simp only [hdone]
      exact erase_deliverData N m i hc (tag::body) id ts
    · rw [Bool.not_eq_true] at hdone
      simp only [hdone,Bool.not_false,if_true,written_nil]
      simp [Ran.erase,erase,hc]

theorem erase_handleMessage (frame : WireFrame JavaString) (env : Envelope)
    (h : frame.envelope=some env) :
    (m.handleMessage N frame i).erase=written (m.erase.handleMessage N env i.uuid i.ts) := by
  have hnow : m.erase={ m with lastActivityMs := i.now }.erase := rfl
  rw [hnow]
  unfold handleMessage
  generalize ({ m with lastActivityMs := i.now } : Manager)=m
  -- frames that only show a state or settle a future
  have hshown : ∀ r,Hidden m r → m.erase.handleMessage N env i.uuid i.ts=(m.erase,[]) →
      r.erase=written (m.erase.handleMessage N env i.uuid i.ts) := by
    intro r hr hskip
    rw [hskip,written_nil,hr]
  cases frame with
  | authRefresh | unread => cases h
  | msg payload id ts =>
    cases h
    obtain hc | ⟨c,hc⟩:=Option.eq_none_or_eq_some m.handshake
    · apply hshown
      · cases payload <;> simp only [handleMsg,hc] <;> rfl
      · rw [ConnectionManager.handleMessage,show m.erase.handshake=none from hc]
    · rw [ConnectionManager.handleMessage,show m.erase.handshake=some c from hc]
      exact erase_handleMsg N m i hc payload id ts
  | ack id ts =>
    cases h
    apply hshown _ (silent_settle m id none).hidden
    simp only [ConnectionManager.handleMessage]
    split <;> rfl
  | errorPeerOffline =>
    cases h
    apply hshown _ ((hidden_setState m _).andThen (silent_failPendingAcks _ _).hidden)
    simp only [ConnectionManager.handleMessage]
    split <;> rfl
  | sys kind =>
    cases kind with
    | shutdown => cases h
    | peerOffline =>
      cases h
      apply hshown _ (hidden_setState m _)
      simp only [ConnectionManager.handleMessage]
      split <;> rfl
    | peerOnline =>
      cases h
      simp only [handleSys,(hidden_setState m _).erase_andThen]
      have hsame:=(hidden_setState m .connected).same
      generalize (m.setState .connected).1=m' at hsame
      rw [← hsame,ConnectionManager.handleMessage]
      obtain hc | ⟨c,hc⟩:=Option.eq_none_or_eq_some m'.handshake
      · simp only [hc,show m'.erase.handshake=none from hc,written_nil]
        rfl
      · simp only [hc,show m'.erase.handshake=some c from hc]
        exact erase_sendFrame m' _ [.msg c.handshakeFrame i.uuid i.ts] fun _ => rfl

theorem unheard_handleMessage (frame : WireFrame JavaString) (h : frame.envelope=none) :
    Unheard m (m.handleMessage N frame i) := by
  cases frame with
  | msg | ack | errorPeerOffline => cases h
  | authRefresh | unread => exact .inl rfl
  | sys kind =>
    cases kind with
    | peerOnline | peerOffline => cases h
    | shutdown => exact unheard_scheduleReconnect { m with lastActivityMs := i.now } i

theorem erase_handleClosed (h : (!m.running || m.terminal)=false) (code : Int32)
    (hcode : closeState code=none) : (m.handleClosed S code i).erase=(.idle,[]) := by
  have hsup : code≠closeSuperseded := by
    rintro rfl
    exact absurd hcode (by decide)
  have hrev : code≠closeRevoked := by
    rintro rfl
    exact absurd hcode (by decide)
  simp only [handleClosed,hsup,hrev,if_false]
  rw [(silent_failPendingAcks _ _).hidden.erase_andThen]
  split
  · rw [(silent_refreshNow S _ i).hidden.erase_andThen]
    apply erase_scheduleReconnect
    have hkeep:=congrArg Link.stopped ((silent_refreshNow S
      (failPendingAcks { m.cancelWatchdog with active := none, handshake := none }
        (.thrown (.illegalState ("connection closed: " ++ toString code.toInt)))).1 i).same 0 [])
    exact hkeep.trans h
  · exact erase_scheduleReconnect _ i h

end Manager

/-! ### Tasks -/

/- The tasks after which nothing is connected any more. -/
def Task.ends : Task → Bool
  | .close => true
  | .closed _ code => (closeState code).isSome
  | _ => false

/- The session has not ended: a transport is known only to a manager that runs. -/
def Link.Up (l : Link) : Prop := l.terminal=false ∧ (0<l.transports → l.running=true)

theorem Link.Reconnects.up {l l' : Link} (hr : l.Reconnects l') (h : l.Up) : l'.Up := by
  cases hr with
  | stopped => exact h
  | again _ delay =>
    unfold Link.schedule Link.teardown
    split <;> split <;> exact h

theorem Link.Up.moves {l l' : Link} {task : Task} (h : l.Up) (hends : task.ends=false)
    (hmove : Moves l task l') : l'.Up := by
  have hgo : l.stopped=false → l.terminal=false ∧ l.running=true := by simp [Link.stopped,and_comm]
  cases hmove with
  | startedAfterEnd hend => exact absurd (h.1.symm.trans hend) Bool.false_ne_true
  | started =>
    unfold Link.schedule
    split <;> exact ⟨h.1,fun _ => rfl⟩
  | dialled delay hd hs => exact ⟨h.1,fun _ => (hgo hs).2⟩
  | dialFailed delay hd hs l' hr => exact hr.up ⟨h.1,fun _ => (hgo hs).2⟩
  | draining t ht l' hr => exact hr.up h
  | terminated t ht code hh s hc => simp [Task.ends,hc] at hends
  | closed t ht code hh hc l' hr => exact hr.up h
  | failed t ht hh l' hr => exact hr.up h
  | silent hh l' hr => exact hr.up h
  | closing => cases hends
  | _ => exact h

/- What the connection loop hears of a task; one that is not heard may still tear down. -/
def Occurrence.input (o : Occurrence) : Option ConnectionManager.Input :=
  match o.task with
  | .opened t => some (.opened t o.inputs.ephPriv o.inputs.uuid o.inputs.ts)
  | .message _ frame => frame.envelope.map (.message · o.inputs.uuid o.inputs.ts)
  | _ => none

namespace World

def erase (w : World) : Shown := (w.manager.erase,w.log.flatMap Effect.wire)

variable (N : Native) (S : Setup)

theorem erase_after (w : World) (r : Manager.Ran) :
    (w.after r).erase=(r.erase.1,w.erase.2++r.erase.2) := by
  simp only [erase,after,Manager.Ran.erase,List.flatMap_append]

/-- What `w'` shows is what the connection loop makes of some of `heard`, in their order, with
teardowns between them. -/
def Follows (w w' : World) (heard : List ConnectionManager.Input) : Prop :=
  ∃ as : List ConnectionManager.Input, (as.filter (· ≠ .teardown)).Sublist heard ∧
    w'.erase = Machine.run (ConnectionManager.next N S.cred) w.erase as

theorem follows_unheard {w : World} {m : Manager} {r : Manager.Ran} (h : m.Unheard r)
    (hm : m.erase=w.manager.erase) (heard : List ConnectionManager.Input) :
    w.Follows N S (w.after r) heard := by
  rcases h with hhidden | htorn
  · refine ⟨[],by simp,?_⟩
    rw [erase_after,hhidden,hm,List.append_nil]
    rfl
  · refine ⟨[.teardown],by simp,?_⟩
    rw [erase_after,htorn]
    rfl

theorem follows_heard {w : World} {r : Manager.Ran} (a : ConnectionManager.Input)
    (h : r.erase=w.manager.erase.step N S.cred a) {heard : List ConnectionManager.Input}
    (ha : a∈heard) : w.Follows N S (w.after r) heard := by
  refine ⟨[a],List.filter_sublist.trans (List.singleton_sublist.mpr ha),?_⟩
  rw [erase_after,h]
  rfl

theorem follows_next (w : World) (o : Occurrence) (hup : w.link.Up) (hends : o.task.ends=false) :
    w.Follows N S (w.next N S o) o.input.toList := by
  have hstill : w.Follows N S w o.input.toList := ⟨[],by simp,rfl⟩
  have hif {c : Prop} [Decidable c] {w' : World} (h : c → w.Follows N S w' o.input.toList) :
      w.Follows N S (if c then w' else w) o.input.toList := by
    split
    · exact h ‹c›
    · exact hstill
  have hquiet : ∀ r,w.manager.Hidden r → w.Follows N S (w.after r) o.input.toList :=
    fun r h => follows_unheard N S (.inl h) rfl _
  unfold next
  cases htask : o.task with
  | start => exact hquiet _ (Manager.hidden_of_erase (w.manager.erase_start S o.inputs))
  | attemptConnect delay dial =>
    exact hif fun _ => follows_unheard N S (Manager.unheard_attemptConnect S
      { w.manager with scheduled := w.manager.scheduled.erase delay } o.inputs _ dial) rfl _
  | opened t =>
    exact hif fun _ => follows_heard N S (.opened _ _ _ _)
      (w.manager.erase_handleOpen N S o.inputs t) (by simp [Occurrence.input,htask])
  | message t frame =>
    refine hif fun _ => ?_
    cases henv : frame.envelope with
    | none =>
      exact follows_unheard N S (w.manager.unheard_handleMessage N o.inputs frame henv) rfl _
    | some env =>
      exact follows_heard N S (.message env _ _)
        (w.manager.erase_handleMessage N o.inputs frame env henv)
        (by simp [Occurrence.input,htask,henv])
  | activity t => exact hif fun _ => hquiet _ rfl
  | closed t code =>
    have hcode : closeState code=none := by simpa [htask,Task.ends] using hends
    refine hif fun ht => ?_
    have hgo : w.link.stopped=false := by simp [Link.stopped,hup.1,hup.2 (Nat.zero_lt_of_lt ht)]
    apply follows_unheard N S (w := w.lose t) (m := w.manager) ?_ rfl
    unfold Manager.onClosed
    split
    · exact .inr (w.manager.erase_handleClosed S o.inputs hgo code hcode)
    · exact .inl rfl
  | failed t =>
    refine hif fun _ => ?_
    apply follows_unheard N S (w := w.lose t) (m := w.manager) ?_ rfl
    unfold Manager.onError
    split
    · exact w.manager.unheard_scheduleReconnect o.inputs
    · exact .inl rfl
  | watchdog =>
    exact hif fun _ => follows_unheard N S (w.manager.unheard_watchdogTask o.inputs) rfl _
  | refresh =>
    exact hif fun _ => hquiet _ (w.manager.silent_refreshTaskRun S o.inputs).hidden
  | call ps cleared => exact hquiet _ (w.manager.silent_call ps cleared).hidden
  | send id =>
    simp only
    split
    · exact hquiet _ (Manager.silent_sendTask N _ _ _).hidden
    · exact hstill
  | close => simp [htask,Task.ends] at hends
  | shutdown => exact hquiet _ rfl

/-- Until a session ends, what its manager shows is a run of the connection loop, which hears
nothing but what the manager hears, in the same order. -/
theorem follows_run (w : World) (os : List Occurrence) (hup : w.link.Up)
    (hends : ∀ o∈os,o.task.ends=false) :
    w.Follows N S (Machine.run (next N S) w os) (os.filterMap Occurrence.input) := by
  induction os generalizing w with
  | nil => exact ⟨[],by simp,rfl⟩
  | cons o os ih =>
    have ho:=hends o List.mem_cons_self
    obtain ⟨as,has,hstep⟩:=follows_next N S w o hup ho
    obtain ⟨bs,hbs,hrun⟩:=ih (w.next N S o) (hup.moves ho (moves_next N S w o))
      fun o' ho' => hends o' (List.mem_cons_of_mem o ho')
    have hsplit : (o::os).filterMap Occurrence.input =
        o.input.toList++os.filterMap Occurrence.input := by
      rw [List.filterMap_cons]
      cases o.input <;> rfl
    refine ⟨as++bs,?_,by rw [Machine.run_cons,hrun,hstep,Machine.run_append]⟩
    rw [List.filter_append,hsplit]
    exact has.append hbs

end World
end SecureGateway.Sdk
