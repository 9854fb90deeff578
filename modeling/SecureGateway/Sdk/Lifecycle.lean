import SecureGateway.Sdk.Manager

/-!
# The life of a client's connections

`Link` is the part of the world that decides which connections there are: what the manager
knows of itself, the scheduled connects, and the transports. `Moves` lists everything a task
can do to it, and every task of the manager is one of its moves. `Manager.erase` is what a
handler shows to the network; one that is `Silent` shows nothing and leaves the link alone.
-/

namespace SecureGateway.Sdk
open E2ee

structure Link where
  running : Bool
  terminal : Bool
  active : Option TransportID
  state : Option ConnectionState
  scheduled : List Int64
  isShutdown : Bool
  transports : ℕ
  live : List TransportID
  deriving DecidableEq

namespace Link

def stopped (l : Link) : Bool := !l.running || l.terminal

def drop (l : Link) (t : TransportID) : Link := { l with live := l.live.filter (· ≠ t) }

def teardown (l : Link) : Link :=
  match l.active with
  | some t => { l.drop t with active := none }
  | none => l

/- The executor refuses new tasks once it is shut down. -/
def schedule (l : Link) (delay : Int64) : Link :=
  if l.isShutdown then l else { l with scheduled := l.scheduled ++ [delay] }

def terminated (l : Link) (s : ConnectionState) : Link :=
  { l with active := none, running := false, terminal := true, state := some s }

def connect (l : Link) : Link :=
  { l with transports := l.transports + 1, live := l.transports :: l.live }

def take (l : Link) (delay : Int64) : Link := { l with scheduled := l.scheduled.erase delay }

def heeds (l : Link) (t : TransportID) : Prop := l.active = some t ∨ l.active=none

instance (l : Link) (t : TransportID) : Decidable (l.heeds t) :=
  inferInstanceAs (Decidable (_ ∨ _))

theorem stopped_teardown (l : Link) : l.teardown.stopped=l.stopped := by
  unfold teardown
  cases l.active <;> rfl

inductive Reconnects (l : Link) : Link → Prop
  | stopped (h : l.stopped=true) : Reconnects l l
  | again (h : l.stopped=false) (delay : Int64) :
      Reconnects l ({ l.teardown with state := some .reconnecting }.schedule delay)

end Link

namespace Effect

def aside : Effect → Bool
  | connect _ _ _ | dialFailed _ | close _ _ _ => false
  | send _ _ | ping _ | report _ | message _ _ | settle _ _ => true

theorem dialled_of_aside {n : ℕ} {e : Effect} (h : e.aside=true) : dialled n e=n := by
  cases e <;> first | rfl | cases h

theorem survivors_of_aside {live : List TransportID} {e : Effect} (h : e.aside=true) :
    survivors live e=live := by
  cases e <;> first | rfl | cases h

theorem foldl_of_aside {β : Type} {f : β → Effect → β} (hf : ∀ {b e},e.aside=true → f b e=b)
    (es : List Effect) (b : β) (h : ∀ e∈es,e.aside=true) : es.foldl f b=b := by
  induction es with
  | nil => rfl
  | cons e es ih =>
    rw [List.foldl_cons,hf (h e List.mem_cons_self)]
    exact ih fun e he => h e (List.mem_cons_of_mem _ he)

/- The handshakes and acks that go out. -/
def wire : Effect → List (TransportID × Envelope)
  | send t (.msg (tag :: body) id ts) =>
    if tag=tagHandshake then [(t,.msg (tag :: body) id ts)] else []
  | send t (.ack id _) => [(t,.ack id)]
  | _ => []

end Effect

/- A connection loop, and what it has written on its transports. -/
abbrev Shown := ConnectionManager TransportID × List (TransportID × Envelope)

namespace Manager

def link (m : Manager) (transports : ℕ) (live : List TransportID) : Link :=
  ⟨m.running,m.terminal,m.active,m.state,m.scheduled,m.isShutdown,transports,live⟩

def Ran.link (r : Ran) (transports : ℕ) (live : List TransportID) : Link :=
  r.1.link (r.2.foldl Effect.dialled transports) (r.2.foldl Effect.survivors live)

variable (n : ℕ) (live : List TransportID)

theorem link_nil (m : Manager) : Ran.link (m,[]) n live=m.link n live := rfl

theorem link_andThen (r : Ran) (f : Manager → Ran) :
    (r.andThen f).link n live =
      (f r.1).link (r.2.foldl Effect.dialled n) (r.2.foldl Effect.survivors live) := by
  simp only [Ran.link,Ran.andThen,List.foldl_append]

def erase (m : Manager) : ConnectionManager TransportID := ⟨m.active,m.handshake,m.bufferedData⟩

def Ran.erase (r : Ran) : Shown := (r.1.erase,r.2.flatMap Effect.wire)

theorem erase_andThen (r : Ran) (f : Manager → Ran) :
    (r.andThen f).erase=((f r.1).1.erase,r.erase.2++(f r.1).erase.2) := by
  simp only [Ran.erase,Ran.andThen,List.flatMap_append]

/-! ### Work that shows nothing -/

def Hidden (m : Manager) (r : Ran) : Prop := r.erase=(m.erase,[])

theorem Hidden.same {m : Manager} {r : Ran} (h : Hidden m r) : r.1.erase=m.erase :=
  congrArg Prod.fst h

theorem Hidden.erase_andThen {m : Manager} {r : Ran} (h : Hidden m r) (f : Manager → Ran) :
    (r.andThen f).erase=(f r.1).erase := by
  rw [Manager.erase_andThen,show r.erase.2=[] from congrArg Prod.snd h]
  rfl

theorem erase_andThen_hidden (r : Ran) (f : Manager → Ran) (h : Hidden r.1 (f r.1)) :
    (r.andThen f).erase=r.erase := by
  rw [Manager.erase_andThen,h.same,h,List.append_nil]
  rfl

theorem Hidden.andThen {m : Manager} {r : Ran} {f : Manager → Ran} (h : Hidden m r)
    (h' : Hidden r.1 (f r.1)) : Hidden m (r.andThen f) :=
  (erase_andThen_hidden r f h').trans h

/-! ### Work that leaves the link alone -/

/-- The manager's part of the link is as before, and no transport was touched. -/
structure Quiet (m : Manager) (r : Ran) : Prop where
  same : ∀ n live, r.1.link n live = m.link n live
  aside : ∀ e ∈ r.2, e.aside=true

theorem Quiet.link {m : Manager} {r : Ran} (h : Quiet m r) : r.link n live=m.link n live := by
  rw [Ran.link,Effect.foldl_of_aside Effect.dialled_of_aside _ _ h.aside,
    Effect.foldl_of_aside Effect.survivors_of_aside _ _ h.aside]
  exact h.same n live

theorem Quiet.andThen {m : Manager} {r : Ran} {f : Manager → Ran} (h : Quiet m r)
    (h' : Quiet r.1 (f r.1)) : Quiet m (r.andThen f) where
  same n live := (h'.same n live).trans (h.same n live)
  aside e he := by
    rcases List.mem_append.mp he with he | he
    · exact h.aside e he
    · exact h'.aside e he

theorem Quiet.of_nil {m m' : Manager} (h : ∀ n live,m'.link n live=m.link n live) :
    Quiet m (m',[]) :=
  ⟨h,fun _ he => absurd he List.not_mem_nil⟩

theorem aside_sendFrame (m : Manager) (frame : WireFrame JavaString) :
    ∀ e∈m.sendFrame frame,e.aside=true := by
  unfold sendFrame
  cases m.active <;> simp [Effect.aside]

/-- The manager shows nothing either. -/
structure Silent (m : Manager) (r : Ran) : Prop extends Quiet m r where
  hidden : Hidden m r

theorem Silent.andThen {m : Manager} {r : Ran} {f : Manager → Ran} (h : Silent m r)
    (h' : Silent r.1 (f r.1)) : Silent m (r.andThen f) :=
  ⟨h.toQuiet.andThen h'.toQuiet,h.hidden.andThen h'.hidden⟩

theorem silent_refl (m : Manager) : Silent m (m,[]) := ⟨.of_nil fun _ _ => rfl,rfl⟩

theorem hidden_sendFrame (m : Manager) (frame : WireFrame JavaString)
    (h : ∀ t,(Effect.send t frame).wire=[]) : Hidden m (m,m.sendFrame frame) := by
  unfold sendFrame
  cases m.active <;> simp [Hidden,Ran.erase,h]

theorem silent_settle (m : Manager) (id : JavaString) (failure : Option Cause) :
    Silent m (m.settle id failure) := by
  unfold settle
  split
  · exact ⟨⟨fun _ _ => rfl,by simp [Effect.aside]⟩,rfl⟩
  · exact silent_refl m

theorem silent_failPendingAcks (m : Manager) (cause : Cause) :
    Silent m (m.failPendingAcks cause) where
  same _ _ := rfl
  aside := by simp [failPendingAcks,Effect.aside]
  hidden := by simp [Hidden,Ran.erase,erase,failPendingAcks,List.flatMap_map,Effect.wire]

theorem quiet_failAllPending (m : Manager) (cause : Cause) : Quiet m (m.failAllPending cause) :=
  (silent_failPendingAcks m cause).toQuiet.andThen ⟨fun _ _ => rfl,by simp [Effect.aside]⟩

variable (N : Native) (S : Setup)

variable (m : Manager) (c : HandshakeCoordinator) (i : Inputs) (ps : PendingSend)

theorem silent_writeData (i : Inputs) : Silent m (m.writeData N c ps i) := by
  unfold writeData
  split
  next frame hseal =>
    obtain ⟨s,ct,-,-,rfl⟩:=HandshakeCoordinator.sealFrame_eq_ok N c _ _ _ _ _ hseal
    exact ⟨⟨fun _ _ => rfl,aside_sendFrame m _⟩,hidden_sendFrame m _ fun _ => rfl⟩
  next => exact silent_settle m _ _

theorem silent_writeDrained (m : Manager) (queue : List PendingSend) :
    Silent m (writeDrained N c i m queue) := by
  induction queue generalizing m with
  | nil => exact silent_refl m
  | cons ps rest ih =>
    rw [writeDrained]
    apply Silent.andThen
    · split
      · exact silent_writeData N m c ps i
      · exact silent_refl m
    · exact ih _

theorem quiet_deliverData (payload : Bytes) (id : JavaString) (ts : Int64) (i : Inputs) :
    Quiet m (m.deliverData N payload id ts i) := by
  unfold deliverData
  split
  · exact .of_nil fun _ _ => rfl
  split
  · refine ⟨fun _ _ => rfl,?_⟩
    intro e he
    rcases List.mem_append.mp he with he | he
    · exact aside_sendFrame m _ e he
    · rw [List.mem_singleton.mp he]
      rfl
  · exact .of_nil fun _ _ => rfl

theorem quiet_deliverBuffered (m : Manager) (buffer : List (Bytes × JavaString × Int64)) :
    Quiet m (deliverBuffered N i m buffer) := by
  induction buffer generalizing m with
  | nil => exact .of_nil fun _ _ => rfl
  | cons d rest ih =>
    rw [deliverBuffered]
    exact (quiet_deliverData N m _ _ _ i).andThen (ih _)

theorem Quiet.after {m m' : Manager} {r : Ran} (hr : Quiet m' r)
    (h : ∀ n live,m'.link n live=m.link n live) : Quiet m r :=
  ⟨fun n live => (hr.same n live).trans (h n live),hr.aside⟩

theorem quiet_flushSendQueue : Quiet m (m.flushSendQueue N c i) :=
  (silent_writeDrained N c i _ m.sendQueue).after fun _ _ => rfl

theorem quiet_drainBufferedData : Quiet m (m.drainBufferedData N i) :=
  (quiet_deliverBuffered N i _ m.bufferedData).after fun _ _ => rfl

theorem quiet_handleMsg (payload : Bytes) (id : JavaString) (ts : Int64) (i : Inputs) :
    Quiet m (m.handleMsg N payload id ts i) := by
  unfold handleMsg
  split
  · exact .of_nil fun _ _ => rfl
  · exact .of_nil fun _ _ => rfl
  split
  · split
    · exact .of_nil fun _ _ => rfl
    split
    · apply Quiet.andThen
      · exact (quiet_flushSendQueue N _ _ i).after fun _ _ => rfl
      · exact quiet_drainBufferedData N _ i
    · exact .of_nil fun _ _ => rfl
  · split
    · exact .of_nil fun _ _ => rfl
    · exact quiet_deliverData N m _ id ts i

theorem silent_refreshNow : Silent m (m.refreshNow S i) := by
  unfold refreshNow
  split
  · exact silent_refl m
  split
  · exact ⟨.of_nil fun _ _ => rfl,rfl⟩
  · exact ⟨⟨fun _ _ => rfl,aside_sendFrame m _⟩,hidden_sendFrame m _ fun _ => rfl⟩

theorem silent_scheduleRefresh : Silent m (m.scheduleRefresh S i,[]) := by
  unfold scheduleRefresh
  split
  · exact silent_refl m
  · split <;> exact ⟨.of_nil fun _ _ => rfl,rfl⟩

theorem silent_refreshTaskRun : Silent m (m.refreshTaskRun S i) :=
  (silent_refreshNow S m i).andThen (silent_scheduleRefresh S _ i)

theorem silent_call (cleared : Bool) : Silent m (m.call ps cleared) := by
  unfold call
  split
  · exact ⟨⟨fun _ _ => rfl,by simp [Effect.aside]⟩,rfl⟩
  · exact ⟨.of_nil fun _ _ => rfl,rfl⟩

theorem silent_sendTask (i : Inputs) : Silent m (m.sendTask N ps i) := by
  unfold sendTask
  split
  · exact ⟨⟨fun _ _ => rfl,by simp [Effect.aside]⟩,rfl⟩
  split
  · exact silent_writeData N m _ ps i
  · exact ⟨.of_nil fun _ _ => rfl,rfl⟩

/-! ### Work on the link -/

theorem link_andThen_of_quiet {r : Ran} {f : Manager → Ran} (h : Quiet r.1 (f r.1)) :
    (r.andThen f).link n live=r.link n live := by
  rw [link_andThen,h.link]
  rfl

theorem Quiet.link_andThen {m : Manager} {r : Ran} (h : Quiet m r) (f : Manager → Ran) :
    (r.andThen f).link n live=(f r.1).link n live := by
  rw [Manager.link_andThen,Effect.foldl_of_aside Effect.dialled_of_aside _ _ h.aside,
    Effect.foldl_of_aside Effect.survivors_of_aside _ _ h.aside]

theorem link_setState (s : ConnectionState) :
    (m.setState s).link n live = { m.link n live with state := some s } := by
  unfold setState
  split
  next h =>
    rw [link_nil,← h]
    rfl
  next => rfl

theorem link_terminate (s : ConnectionState) :
    (m.terminate s).link n live =
      { m.link n live with running := false, terminal := true, state := some s } := by
  rw [terminate,(quiet_failAllPending _ _).link_andThen,link_setState,
    (quiet_failAllPending _ _).same]
  rfl

theorem link_closeActive (reason : String) :
    (m.closeActive reason).link n live=(m.link n live).teardown := by
  unfold closeActive
  cases h : m.active with
  | none => simp [link_nil,link,Link.teardown,h]
  | some t => simp [Ran.link,link,Link.teardown,Link.drop,h,Effect.dialled,Effect.survivors]

theorem link_teardownActive : m.teardownActive.link n live=(m.link n live).teardown := by
  rw [teardownActive,link_andThen_of_quiet]
  · exact link_closeActive n live m.cancelWatchdog _
  · exact (silent_failPendingAcks _ _).after fun _ _ => rfl

theorem link_scheduleConnect (delay : Int64) (h : (m.link n live).stopped=false) :
    (m.scheduleConnect delay).link n live=(m.link n live).schedule delay := by
  have hs : (!m.running || m.terminal)=false := h
  rw [scheduleConnect,if_neg (by rw [hs]; exact Bool.false_ne_true)]
  cases hdown : m.isShutdown <;> simp [link,Link.schedule,hdown]

theorem link_startWatchdog : (m.startWatchdog S).link n live=m.link n live := by
  simp only [startWatchdog]
  split
  · rfl
  · split <;> rfl

theorem link_greet :
    (m.greet S c i).link n live = { m.link n live with state := some .connected } := by
  have hsend : m.Quiet (m,m.sendFrame (.msg c.handshakeFrame i.uuid i.ts)) :=
    ⟨fun _ _ => rfl,m.aside_sendFrame _⟩
  rw [greet,hsend.link_andThen,link_andThen_of_quiet,link_setState]
  exact .of_nil fun n live => link_startWatchdog n live S _

theorem reconnects_scheduleReconnect :
    (m.link n live).Reconnects ((m.scheduleReconnect i).link n live) := by
  rw [scheduleReconnect]
  by_cases hs : (!m.running || m.terminal)=true
  · rw [if_pos hs]
    exact .stopped hs
  rw [if_neg hs,link_andThen,link_andThen,link_nil]
  have htorn:=link_teardownActive n live m
  rw [Ran.link] at htorn
  generalize m.teardownActive=r at htorn
  generalize r.2.foldl Effect.dialled n=n₁ at htorn
  generalize r.2.foldl Effect.survivors live=live₁ at htorn
  have hstate:=link_setState n₁ live₁ r.1 .reconnecting
  rw [htorn,Ran.link] at hstate
  have hgo : (m.link n live).stopped=false := by simpa [Link.stopped,link] using hs
  rw [link_scheduleConnect]
  · rw [show ∀ m' : Manager,Manager.link { m' with attempt := m'.attempt+1 } = m'.link from
      fun _ => rfl,hstate]
    exact .again hgo _
  · have hsame:=congrArg Link.stopped hstate
    exact hsame.trans ((m.link n live).stopped_teardown.trans hgo)

theorem reconnects_from {l : Link} (h : m.link n live=l) :
    l.Reconnects ((m.scheduleReconnect i).link n live) :=
  h ▸ reconnects_scheduleReconnect n live m i

end Manager

def Task.speaker : Task → Option TransportID
  | .opened t | .message t _ | .activity t | .closed t _ | .failed t => some t
  | .start | .attemptConnect _ _ | .watchdog | .refresh | .call _ _ | .send _ | .close
  | .shutdown => none

def WireFrame.shows : WireFrame JavaString → Option ConnectionState
  | sys .peerOnline => some .connected
  | sys .peerOffline | errorPeerOffline => some .peerOffline
  | _ => none

def Task.quiet : Task → Bool
  | .message _ frame => frame.shows.isNone && frame != .sys .shutdown
  | .activity _ | .refresh | .call _ _ | .send _ => true
  | _ => false

def closeState (code : Int32) : Option ConnectionState :=
  if code=closeSuperseded then some .superseded
  else if code=closeRevoked then some .revoked
  else none

/-- Everything a task can do to the link. -/
inductive Moves (l : Link) : Task → Link → Prop
  | quiet (task : Task) (h : task.quiet=true) : Moves l task l
  | unknown (task : Task) (t : TransportID) (h : task.speaker = some t) (ht : l.transports≤t) :
      Moves l task l
  | startedBefore (h : l.running=true) : Moves l .start l
  | startedAfterEnd (h : l.terminal=true) : Moves l .start { l with running := true }
  | started (h : l.running=false) (hend : l.terminal=false) :
      Moves l .start ({ l with running := true }.schedule 0)
  | notScheduled (delay : Int64) (dial : Manager.Dial) (h : delay ∉ l.scheduled) :
      Moves l (.attemptConnect delay dial) l
  | notDialled (delay : Int64) (dial : Manager.Dial) (h : delay ∈ l.scheduled)
      (hs : l.stopped=true ∨ dial=.noTransport) :
      Moves l (.attemptConnect delay dial) (l.take delay)
  | dialled (delay : Int64) (h : delay ∈ l.scheduled) (hs : l.stopped=false) :
      Moves l (.attemptConnect delay .returns) (l.take delay).connect
  | dialFailed (delay : Int64) (h : delay ∈ l.scheduled) (hs : l.stopped=false) (l' : Link)
      (hr : ((l.take delay).connect.drop l.transports).Reconnects l') :
      Moves l (.attemptConnect delay .throws) l'
  | opened (t : TransportID) (ht : t<l.transports) (s : Option ConnectionState)
      (hs : s = some .connected ∨ s=l.state) :
      Moves l (.opened t) { l with active := some t, state := s }
  | shown (t : TransportID) (ht : t<l.transports) (frame : WireFrame JavaString) (s : ConnectionState)
      (hs : frame.shows = some s) : Moves l (.message t frame) { l with state := some s }
  | draining (t : TransportID) (ht : t<l.transports) (l' : Link) (hr : l.Reconnects l') :
      Moves l (.message t (.sys .shutdown)) l'
  | closeUnheeded (t : TransportID) (ht : t<l.transports) (code : Int32) (h : ¬ l.heeds t) :
      Moves l (.closed t code) (l.drop t)
  | terminated (t : TransportID) (ht : t<l.transports) (code : Int32) (h : l.heeds t)
      (s : ConnectionState) (hc : closeState code = some s) :
      Moves l (.closed t code) ((l.drop t).terminated s)
  | closed (t : TransportID) (ht : t<l.transports) (code : Int32) (h : l.heeds t)
      (hc : closeState code = none) (l' : Link)
      (hr : { l.drop t with active := none }.Reconnects l') : Moves l (.closed t code) l'
  | errorUnheeded (t : TransportID) (ht : t<l.transports) (h : ¬ l.heeds t) :
      Moves l (.failed t) (l.drop t)
  | failed (t : TransportID) (ht : t<l.transports) (h : l.heeds t) (l' : Link)
      (hr : (l.drop t).Reconnects l') : Moves l (.failed t) l'
  | watched : Moves l .watchdog l
  | silent (h : l.active≠none) (l' : Link) (hr : l.Reconnects l') : Moves l .watchdog l'
  | closing : Moves l .close { l with running := false }.teardown
  | shutdown : Moves l .shutdown { l with isShutdown := true }

namespace World

def link (w : World) : Link := w.manager.link w.transports w.live

theorem link_after (w : World) (r : Manager.Ran) :
    (w.after r).link=r.link w.transports w.live := rfl

theorem link_after_quiet {w : World} {m : Manager} {r : Manager.Ran} (h : m.Quiet r)
    (hm : m.link w.transports w.live=w.link) : (w.after r).link=w.link := by
  rw [link_after,h.link]
  exact hm

variable (N : Native) (S : Setup) (w : World) (i : Inputs)

theorem heeds_iff (m : Manager) (n : ℕ) (live : List TransportID) (t : TransportID) :
    m.heeds t=true ↔ (m.link n live).heeds t := by
  simp [Manager.heeds,Link.heeds,Manager.link]

theorem moves_start : Moves w.link .start (w.after (w.manager.start S i,[])).link := by
  rw [link_after,Manager.link_nil,Manager.start]
  by_cases hrun : w.manager.running=true
  · rw [if_pos hrun]
    exact .startedBefore hrun
  rw [if_neg hrun,(Manager.silent_scheduleRefresh S _ i).same]
  rw [Bool.not_eq_true] at hrun
  by_cases hend : w.manager.terminal=true
  · rw [Manager.scheduleConnect,if_pos (by simp [hend])]
    exact .startedAfterEnd hend
  rw [Bool.not_eq_true] at hend
  rw [Manager.link_scheduleConnect]
  · exact .started hrun hend
  · simp [Link.stopped,Manager.link,hend]

theorem moves_attemptConnect (delay : Int64) (dial : Manager.Dial) (h : delay∈w.manager.scheduled) :
    Moves w.link (.attemptConnect delay dial)
      (w.after (Manager.attemptConnect S
        { w.manager with scheduled := w.manager.scheduled.erase delay } w.transports dial i)).link
      := by
  rw [link_after]
  unfold Manager.attemptConnect
  by_cases hs : (!w.manager.running || w.manager.terminal)=true
  · rw [if_pos hs]
    exact .notDialled delay dial h (.inl hs)
  rw [if_neg hs]
  have hgo : w.link.stopped=false := Bool.not_eq_true _ ▸ hs
  cases dial with
  | noTransport => exact .notDialled delay _ h (.inr rfl)
  | returns => exact .dialled delay h hgo
  | throws =>
    simp only [Manager.link_andThen]
    exact .dialFailed delay h hgo _ (Manager.reconnects_from _ _ _ i rfl)

variable (t : TransportID)

theorem moves_handleOpen (ht : t<w.transports) :
    Moves w.link (.opened t) (w.after (w.manager.handleOpen N S t i)).link := by
  rw [link_after]
  unfold Manager.handleOpen
  split
  · exact .opened t ht _ (.inr rfl)
  · rw [Manager.link_greet]
    exact .opened t ht _ (.inl rfl)

theorem moves_handleMessage (ht : t<w.transports) (frame : WireFrame JavaString) :
    Moves w.link (.message t frame) (w.after (w.manager.handleMessage N frame i)).link := by
  have hquiet : ∀ r,Manager.Quiet { w.manager with lastActivityMs := i.now } r →
      (w.after r).link=w.link := fun r h => link_after_quiet h rfl
  cases frame with
  | msg payload id ts =>
    simp only [Manager.handleMessage]
    rw [hquiet _ (Manager.quiet_handleMsg N _ payload id ts i)]
    exact .quiet _ rfl
  | ack id ts =>
    simp only [Manager.handleMessage,Manager.completeAck]
    rw [hquiet _ (Manager.silent_settle _ id none).toQuiet]
    exact .quiet _ rfl
  | authRefresh id ts token =>
    simp only [Manager.handleMessage]
    rw [hquiet _ (.of_nil fun _ _ => rfl)]
    exact .quiet _ rfl
  | unread =>
    simp only [Manager.handleMessage]
    rw [hquiet _ (.of_nil fun _ _ => rfl)]
    exact .quiet _ rfl
  | errorPeerOffline =>
    simp only [Manager.handleMessage]
    rw [link_after,Manager.handleErrorPeerOffline,
      Manager.link_andThen_of_quiet _ _ (Manager.silent_failPendingAcks _ _).toQuiet,
      Manager.link_setState]
    exact .shown t ht _ _ rfl
  | sys kind =>
    cases kind with
    | peerOnline =>
      rw [link_after]
      simp only [Manager.handleMessage,Manager.handleSys]
      rw [Manager.link_andThen_of_quiet,Manager.link_setState]
      · exact .shown t ht _ _ rfl
      split
      · exact ⟨fun _ _ => rfl,Manager.aside_sendFrame _ _⟩
      · exact .of_nil fun _ _ => rfl
    | peerOffline =>
      rw [link_after]
      simp only [Manager.handleMessage,Manager.handleSys]
      rw [Manager.link_setState]
      exact .shown t ht _ _ rfl
    | shutdown =>
      simp only [Manager.handleMessage,Manager.handleSys]
      exact .draining t ht _ (Manager.reconnects_from _ _ _ i rfl)

theorem moves_onClosed (ht : t<w.transports) (code : Int32) :
    Moves w.link (.closed t code) ((w.lose t).after (w.manager.onClosed S t code i)).link := by
  rw [link_after,Manager.onClosed]
  by_cases h : w.manager.heeds t=true
  · rw [if_pos h,Manager.handleClosed,(Manager.silent_failPendingAcks _ _).link_andThen]
    rw [heeds_iff _ w.transports w.live] at h
    by_cases hsup : code=closeSuperseded
    · rw [if_pos hsup,Manager.link_terminate,(Manager.silent_failPendingAcks _ _).same]
      exact .terminated t ht code h .superseded (by simp [closeState,hsup])
    rw [if_neg hsup]
    by_cases hrev : code=closeRevoked
    · rw [if_pos hrev,Manager.link_terminate,(Manager.silent_failPendingAcks _ _).same]
      exact .terminated t ht code h .revoked (by simp [closeState,hrev]; decide)
    rw [if_neg hrev]
    apply Moves.closed t ht code h (by simp [closeState,hsup,hrev])
    split
    · rw [(Manager.silent_refreshNow S _ i).link_andThen]
      exact Manager.reconnects_from _ _ _ i ((Manager.silent_refreshNow S _ i).same _ _)
    · exact Manager.reconnects_from _ _ _ i rfl
  · rw [if_neg h]
    rw [heeds_iff _ w.transports w.live] at h
    exact .closeUnheeded t ht code h

theorem moves_onError (ht : t<w.transports) :
    Moves w.link (.failed t) ((w.lose t).after (w.manager.onError t i)).link := by
  rw [link_after,Manager.onError]
  by_cases h : w.manager.heeds t=true
  · rw [if_pos h]
    rw [heeds_iff _ w.transports w.live] at h
    exact .failed t ht h _ (Manager.reconnects_from _ _ _ i rfl)
  · rw [if_neg h]
    rw [heeds_iff _ w.transports w.live] at h
    exact .errorUnheeded t ht h

theorem moves_watchdogTask : Moves w.link .watchdog (w.after (w.manager.watchdogTask i)).link := by
  rw [link_after]
  unfold Manager.watchdogTask
  split
  next => exact .watched
  next t hact =>
    have hping : w.manager.Quiet (w.manager,[.ping t]) := ⟨fun _ _ => rfl,by simp [Effect.aside]⟩
    rw [hping.link_andThen]
    split
    · apply Moves.silent
      · show w.manager.active≠none
        rw [hact]
        exact Option.some_ne_none t
      · exact Manager.reconnects_from _ _ _ i rfl
    · exact .watched

theorem moves_closeTask : Moves w.link .close (w.after w.manager.closeTask).link := by
  rw [link_after,Manager.closeTask,
    Manager.link_andThen_of_quiet _ _ (Manager.quiet_failAllPending _ _),Manager.link_closeActive]
  exact .closing

theorem moves_next (o : Occurrence) : Moves w.link o.task (w.next N S o).link := by
  unfold next
  cases h : o.task with
  | start => exact moves_start S w o.inputs
  | attemptConnect delay dial =>
    simp only
    split
    next hd => exact moves_attemptConnect S w o.inputs delay dial hd
    next hd => exact .notScheduled delay dial hd
  | opened t =>
    simp only
    split
    next ht => exact moves_handleOpen N S w o.inputs t ht
    next ht => exact .unknown _ t rfl (Nat.le_of_not_lt ht)
  | message t frame =>
    simp only
    split
    next ht => exact moves_handleMessage N w o.inputs t ht frame
    next ht => exact .unknown _ t rfl (Nat.le_of_not_lt ht)
  | activity t =>
    simp only
    split <;> exact .quiet _ rfl
  | closed t code =>
    simp only
    split
    next ht => exact moves_onClosed S w o.inputs t ht code
    next ht => exact .unknown _ t rfl (Nat.le_of_not_lt ht)
  | failed t =>
    simp only
    split
    next ht => exact moves_onError w o.inputs t ht
    next ht => exact .unknown _ t rfl (Nat.le_of_not_lt ht)
  | watchdog =>
    simp only
    split
    · exact moves_watchdogTask w o.inputs
    · exact .watched
  | refresh =>
    simp only
    split
    · rw [link_after_quiet (w.manager.silent_refreshTaskRun S o.inputs).toQuiet rfl]
      exact .quiet _ rfl
    · exact .quiet _ rfl
  | call ps cleared =>
    simp only
    rw [link_after_quiet (w.manager.silent_call ps cleared).toQuiet rfl]
    exact .quiet _ rfl
  | send id =>
    simp only
    split
    next ps _ =>
      have hsend:=Manager.silent_sendTask N
        { w.manager with posted := w.manager.posted.erase ps } ps o.inputs
      rw [link_after_quiet hsend.toQuiet rfl]
      exact .quiet _ rfl
    next => exact .quiet _ rfl
  | close => exact moves_closeTask w
  | shutdown => exact .shutdown

end World
end SecureGateway.Sdk
