import SecureGateway.Sdk.Manager
import Mathlib.Data.List.Perm.Subperm

/-!
# Where a message is

A message waits in a posted task or in the send queue, is sealed into a frame, waits in the
peer's buffer, and is handed to the host. `Traffic` says of some work of a manager that it
never doubles what it holds, acknowledges only what it hands over, and completes a future with
success only on an acknowledgement. Every task is such work.
-/

namespace SecureGateway.Sdk
open E2ee

abbrev Entry := Bytes × JavaString × Int64

def WireFrame.entry : WireFrame JavaString → Option Entry
  | .msg (tag::body) id ts => if tag=tagHandshake then none else some (tag::body,id,ts)
  | _ => none

def WireFrame.acks : WireFrame JavaString → List JavaString
  | .ack id _ => [id]
  | _ => []

namespace Effect

def entry : Effect → Option Entry
  | send _ frame => frame.entry
  | _ => none

def reads (id : JavaString) : Effect → Bool
  | message id' _ => id' == id
  | _ => false

def plain : Effect → Bool
  | send _ (.ack _ _) => false
  | send _ frame => frame.entry.isNone
  | message _ _ => false
  | settle _ none => false
  | _ => true

end Effect

def entriesFor (id : JavaString) (es : List Entry) : ℕ := es.countP (·.2.1 == id)

def sendsFor (id : JavaString) (pss : List PendingSend) : ℕ := pss.countP (·.id == id)

def Manager.outbox (m : Manager) : List PendingSend := m.posted ++ m.sendQueue

section
variable (N : Native)

def Seals (ps : PendingSend) (e : Entry) : Prop :=
  ps.id = e.2.1 ∧ ∃ key nonce ct, aeadEncrypt N key nonce (aad e.2.1 e.2.2) ps.plaintext = .ok ct ∧
    e.1 = tagData :: (nonce ++ ct)

def Opens (e : Entry) (id : JavaString) (plaintext : Bytes) : Prop :=
  e.2.1 = id ∧ ∃ key wire, e.1=tagData :: wire ∧
    aeadDecrypt N key (wire.take nonceSize) (aad e.2.1 e.2.2) (wire.drop nonceSize) = .ok plaintext

/-- Work that begins with the messages of `outbox` unwritten and the data frames of `stock`
at hand, and has read the acknowledgements `acks`. -/
structure Traffic (outbox : List PendingSend) (stock : List Entry) (acks : List JavaString)
    (r : Manager.Ran) : Prop where
  written : ∀ id, entriesFor id (r.2.filterMap Effect.entry) + sendsFor id r.1.outbox ≤
    sendsFor id outbox
  waiting : ∀ ps ∈ r.1.outbox, ps ∈ outbox
  sealed : ∀ e ∈ r.2.filterMap Effect.entry, ∃ ps ∈ outbox, Seals N ps e
  read : ∀ id, r.2.countP (Effect.reads id) + entriesFor id r.1.bufferedData ≤ entriesFor id stock
  buffered : ∀ e ∈ r.1.bufferedData, e ∈ stock
  opened : ∀ id p, Effect.message id p ∈ r.2 → ∃ e ∈ stock, Opens N e id p
  acked : ∀ t id ts, Effect.send t (.ack id ts) ∈ r.2 → ∃ p, Effect.message id p ∈ r.2
  settled : ∀ id, Effect.settle id none ∈ r.2 → id ∈ acks

end

namespace Traffic
variable {N : Native} {outbox outbox' : List PendingSend} {stock stock' : List Entry}
  {acks : List JavaString} {r : Manager.Ran}

theorem mono (h : Traffic N outbox stock acks r) (hout : outbox.Subperm outbox')
    (hstock : stock.Subperm stock') : Traffic N outbox' stock' acks r where
  written id := (h.written id).trans (hout.countP_le _)
  waiting ps hps := hout.subset (h.waiting ps hps)
  sealed e he := by
    obtain ⟨ps,hps,hseals⟩:=h.sealed e he
    exact ⟨ps,hout.subset hps,hseals⟩
  read id := (h.read id).trans (hstock.countP_le _)
  buffered e he := hstock.subset (h.buffered e he)
  opened id p hp := by
    obtain ⟨e,he,hopens⟩:=h.opened id p hp
    exact ⟨e,hstock.subset he,hopens⟩
  acked := h.acked
  settled := h.settled

theorem andThen_more {f : Manager → Manager.Ran} (more : List PendingSend) (extra : List Entry)
    (h : Traffic N outbox stock acks r)
    (h' : Traffic N (more++r.1.outbox) (extra++r.1.bufferedData) [] (f r.1)) :
    Traffic N (more++outbox) (extra++stock) acks (r.andThen f) := by
  have hwaiting : ∀ ps∈more++r.1.outbox,ps∈more++outbox := by
    intro ps hps
    rw [List.mem_append] at hps ⊢
    exact hps.imp_right (h.waiting ps)
  have hbuffered : ∀ e∈extra++r.1.bufferedData,e∈extra++stock := by
    intro e he
    rw [List.mem_append] at he ⊢
    exact he.imp_right (h.buffered e)
  constructor
  case written =>
    intro id
    have h₁:=h.written id
    have h₂:=h'.written id
    simp only [Manager.Ran.andThen,List.filterMap_append,entriesFor,sendsFor,
      List.countP_append] at *
    omega
  case waiting => exact fun ps hps => hwaiting ps (h'.waiting ps hps)
  case sealed =>
    intro e he
    rw [Manager.Ran.andThen,List.filterMap_append,List.mem_append] at he
    cases he with
    | inl he =>
      obtain ⟨ps,hps,hseals⟩:=h.sealed e he
      exact ⟨ps,List.mem_append_right _ hps,hseals⟩
    | inr he =>
      obtain ⟨ps,hps,hseals⟩:=h'.sealed e he
      exact ⟨ps,hwaiting ps hps,hseals⟩
  case read =>
    intro id
    have h₁:=h.read id
    have h₂:=h'.read id
    simp only [Manager.Ran.andThen,entriesFor,List.countP_append] at *
    omega
  case buffered => exact fun e he => hbuffered e (h'.buffered e he)
  case opened =>
    intro id p hp
    cases List.mem_append.mp hp with
    | inl hp =>
      obtain ⟨e,he,hopens⟩:=h.opened id p hp
      exact ⟨e,List.mem_append_right _ he,hopens⟩
    | inr hp =>
      obtain ⟨e,he,hopens⟩:=h'.opened id p hp
      exact ⟨e,hbuffered e he,hopens⟩
  case acked =>
    intro t id ts ht
    cases List.mem_append.mp ht with
    | inl ht =>
      obtain ⟨p,hp⟩:=h.acked t id ts ht
      exact ⟨p,List.mem_append_left _ hp⟩
    | inr ht =>
      obtain ⟨p,hp⟩:=h'.acked t id ts ht
      exact ⟨p,List.mem_append_right _ hp⟩
  case settled =>
    intro id hid
    cases List.mem_append.mp hid with
    | inl hid => exact h.settled id hid
    | inr hid => exact absurd (h'.settled id hid) List.not_mem_nil

theorem andThen {f : Manager → Manager.Ran} (h : Traffic N outbox stock acks r)
    (h' : Traffic N r.1.outbox r.1.bufferedData [] (f r.1)) :
    Traffic N outbox stock acks (r.andThen f) := h.andThen_more [] [] h'

theorem of_plain (hout : r.1.outbox.Subperm outbox) (hbuf : r.1.bufferedData.Subperm stock)
    (h : ∀ e∈r.2,e.plain=true) : Traffic N outbox stock acks r := by
  have hentry : r.2.filterMap Effect.entry = [] := by
    rw [List.filterMap_eq_nil_iff]
    intro e he
    have hp:=h e he
    cases e with
    | send t frame => cases frame <;> simp_all [Effect.plain,Effect.entry,WireFrame.entry]
    | _ => rfl
  have hread : ∀ id,r.2.countP (Effect.reads id)=0 := by
    intro id
    rw [List.countP_eq_zero]
    intro e he
    have hp:=h e he
    cases e <;> simp_all [Effect.plain,Effect.reads]
  constructor
  · intro id
    rw [hentry]
    simpa [entriesFor,sendsFor] using hout.countP_le _
  · exact fun ps hps => hout.subset hps
  · intro e he
    rw [hentry] at he
    cases he
  · intro id
    rw [hread id,Nat.zero_add]
    exact hbuf.countP_le _
  · exact fun e he => hbuf.subset he
  · intro id p hp
    cases h _ hp
  · intro t id ts ht
    cases h _ ht
  · intro id hid
    cases h _ hid

end Traffic

namespace Manager

structure Plain (m : Manager) (r : Ran) : Prop where
  outbox : r.1.outbox.Subperm m.outbox
  buffer : r.1.bufferedData.Subperm m.bufferedData
  effects : ∀ e ∈ r.2, e.plain=true

theorem Plain.traffic {N : Native} {m : Manager} {r : Ran} (h : Plain m r) (acks : List JavaString) :
    Traffic N m.outbox m.bufferedData acks r := .of_plain h.outbox h.buffer h.effects

theorem Plain.andThen {m : Manager} {r : Ran} {f : Manager → Ran} (h : Plain m r)
    (h' : Plain r.1 (f r.1)) : Plain m (r.andThen f) where
  outbox := h'.outbox.trans h.outbox
  buffer := h'.buffer.trans h.buffer
  effects e he := by
    cases List.mem_append.mp he with
    | inl he => exact h.effects e he
    | inr he => exact h'.effects e he

theorem Plain.of_same {m : Manager} {r : Ran} (hposted : r.1.posted=m.posted)
    (hqueue : r.1.sendQueue=m.sendQueue) (hbuf : r.1.bufferedData=m.bufferedData)
    (h : ∀ e∈r.2,e.plain=true) : Plain m r where
  outbox := by rw [Manager.outbox,Manager.outbox,hposted,hqueue]
  buffer := by rw [hbuf]
  effects := h

theorem Plain.of_nil {m m' : Manager} (hposted : m'.posted=m.posted)
    (hqueue : m'.sendQueue=m.sendQueue) (hbuf : m'.bufferedData=m.bufferedData) : Plain m (m',[]) :=
  .of_same hposted hqueue hbuf fun _ he => absurd he List.not_mem_nil

theorem Plain.after {m m' : Manager} {r : Ran} (h : Plain m' r) (hposted : m'.posted=m.posted)
    (hqueue : m'.sendQueue=m.sendQueue) (hbuf : m'.bufferedData=m.bufferedData) : Plain m r := by
  have hfirst : Plain m (m',[]) := .of_nil hposted hqueue hbuf
  exact ⟨h.outbox.trans hfirst.outbox,h.buffer.trans hfirst.buffer,h.effects⟩

theorem plain_sendFrame (m : Manager) (frame : WireFrame JavaString)
    (h : ∀ t,(Effect.send t frame).plain=true) : ∀ e∈m.sendFrame frame,e.plain=true := by
  unfold sendFrame
  cases m.active with
  | none => exact fun _ he => absurd he List.not_mem_nil
  | some t =>
    intro e he
    rw [List.mem_singleton.mp he]
    exact h t

theorem plain_handshake (m : Manager) (c : HandshakeCoordinator) (id : JavaString) (ts : Int64) :
    ∀ e∈m.sendFrame (.msg c.handshakeFrame id ts), e.plain=true :=
  plain_sendFrame m _ fun _ => by
    simp [Effect.plain,WireFrame.entry,HandshakeCoordinator.handshakeFrame]

theorem plain_setState (m : Manager) (s : ConnectionState) : Plain m (m.setState s) := by
  unfold setState
  split
  · exact .of_nil rfl rfl rfl
  · exact .of_same rfl rfl rfl (by simp [Effect.plain])

theorem plain_settle (m : Manager) (id : JavaString) (cause : Cause) :
    Plain m (m.settle id (some cause)) := by
  unfold settle
  split
  · exact .of_same rfl rfl rfl (by simp [Effect.plain])
  · exact .of_nil rfl rfl rfl

theorem plain_failPendingAcks (m : Manager) (cause : Cause) : Plain m (m.failPendingAcks cause) :=
  .of_same rfl rfl rfl (by simp [failPendingAcks,Effect.plain])

theorem plain_failAllPending (m : Manager) (cause : Cause) : Plain m (m.failAllPending cause) := by
  apply (plain_failPendingAcks m cause).andThen
  constructor
  · exact ((List.Sublist.refl _).append (List.nil_sublist _)).subperm
  · exact .refl _
  · simp [Effect.plain]

theorem plain_terminate (m : Manager) (s : ConnectionState) : Plain m (m.terminate s) := by
  simp only [terminate]
  apply Plain.andThen
  · exact (plain_failAllPending _ _).after rfl rfl rfl
  · exact plain_setState _ s

theorem plain_closeActive (m : Manager) (reason : String) : Plain m (m.closeActive reason) := by
  unfold closeActive
  split
  · exact .of_same rfl rfl rfl (by simp [Effect.plain])
  · exact .of_nil rfl rfl rfl

theorem plain_teardownActive (m : Manager) : Plain m m.teardownActive := by
  apply Plain.andThen
  · exact (plain_closeActive _ _).after rfl rfl rfl
  · exact ⟨.refl _,List.nil_subperm,by simp [failPendingAcks,Effect.plain]⟩

theorem plain_scheduleConnect (m : Manager) (delay : Int64) :
    Plain m (m.scheduleConnect delay,[]) := by
  unfold scheduleConnect
  split
  · exact .of_nil rfl rfl rfl
  · split <;> exact .of_nil rfl rfl rfl

theorem plain_scheduleReconnect (m : Manager) (i : Inputs) : Plain m (m.scheduleReconnect i) := by
  unfold scheduleReconnect
  split
  · exact .of_nil rfl rfl rfl
  apply (plain_teardownActive m).andThen
  apply (plain_setState _ _).andThen
  exact (plain_scheduleConnect _ _).after rfl rfl rfl

variable (N : Native) (S : Setup)

variable (m : Manager) (c : HandshakeCoordinator) (i : Inputs) (t : TransportID)

theorem plain_attemptConnect (dial : Dial) (i : Inputs) :
    Plain m (m.attemptConnect S t dial i) := by
  unfold attemptConnect
  split
  · exact .of_nil rfl rfl rfl
  cases dial with
  | noTransport => exact .of_nil rfl rfl rfl
  | returns => exact .of_same rfl rfl rfl (by simp [Effect.plain])
  | throws =>
    apply Plain.andThen
    · exact .of_same rfl rfl rfl (by simp [Effect.plain])
    · exact plain_scheduleReconnect _ i

theorem plain_scheduleRefresh : Plain m (m.scheduleRefresh S i,[]) := by
  unfold scheduleRefresh
  split
  · exact .of_nil rfl rfl rfl
  · split <;> exact .of_nil rfl rfl rfl

theorem plain_refreshNow : Plain m (m.refreshNow S i) := by
  unfold refreshNow
  split
  · exact .of_nil rfl rfl rfl
  split
  · exact .of_nil rfl rfl rfl
  · exact .of_same rfl rfl rfl (plain_sendFrame m _ fun _ => rfl)

theorem plain_start : Plain m (m.start S i,[]) := by
  unfold start
  split
  · exact .of_nil rfl rfl rfl
  have hconnect:=plain_scheduleConnect { m with running := true } 0
  have hrefresh:=plain_scheduleRefresh S (scheduleConnect { m with running := true } 0) i
  exact ⟨hrefresh.outbox.trans hconnect.outbox,hrefresh.buffer.trans hconnect.buffer,
    hrefresh.effects⟩

theorem plain_startWatchdog : Plain m (m.startWatchdog S,[]) := by
  simp only [startWatchdog]
  split
  · exact .of_nil rfl rfl rfl
  · split <;> exact .of_nil rfl rfl rfl

theorem plain_greet : Plain m (m.greet S c i) := by
  apply Plain.andThen
  · exact .of_same rfl rfl rfl (plain_handshake m c _ _)
  · exact (plain_setState _ _).andThen (plain_startWatchdog S _)

theorem plain_handleOpen (i : Inputs) : Plain m (m.handleOpen N S t i) := by
  unfold handleOpen
  split
  · exact .of_nil rfl rfl rfl
  · exact (plain_greet S _ _ i).after rfl rfl rfl

theorem plain_handleSys (kind : Notice) (i : Inputs) : Plain m (m.handleSys kind i) := by
  cases kind with
  | peerOnline =>
    simp only [handleSys]
    apply (plain_setState m _).andThen
    split
    · exact .of_same rfl rfl rfl (plain_handshake _ _ _ _)
    · exact .of_nil rfl rfl rfl
  | peerOffline => exact plain_setState m _
  | shutdown => exact plain_scheduleReconnect m i

theorem plain_handleErrorPeerOffline : Plain m m.handleErrorPeerOffline :=
  (plain_setState m _).andThen (plain_failPendingAcks _ _)

theorem plain_handleClosed (code : Int32) (i : Inputs) : Plain m (m.handleClosed S code i) := by
  simp only [handleClosed]
  apply Plain.andThen
  · exact (plain_failPendingAcks _ _).after rfl rfl rfl
  split
  · exact plain_terminate _ _
  split
  · exact plain_terminate _ _
  split
  · exact (plain_refreshNow S _ i).andThen (plain_scheduleReconnect _ i)
  · exact plain_scheduleReconnect _ i

theorem plain_onClosed (code : Int32) (i : Inputs) : Plain m (m.onClosed S t code i) := by
  unfold onClosed
  split
  · exact plain_handleClosed S m code i
  · exact .of_nil rfl rfl rfl

theorem plain_onError (i : Inputs) : Plain m (m.onError t i) := by
  unfold onError
  split
  · exact plain_scheduleReconnect m i
  · exact .of_nil rfl rfl rfl

theorem plain_watchdogTask : Plain m (m.watchdogTask i) := by
  unfold watchdogTask
  split
  · exact .of_nil rfl rfl rfl
  apply Plain.andThen
  · exact .of_same rfl rfl rfl (by simp [Effect.plain])
  split
  · exact plain_scheduleReconnect _ i
  · exact .of_nil rfl rfl rfl

theorem plain_refreshTaskRun : Plain m (m.refreshTaskRun S i) :=
  (plain_refreshNow S m i).andThen (plain_scheduleRefresh S _ i)

theorem plain_closeTask : Plain m m.closeTask := by
  apply Plain.andThen
  · exact (plain_closeActive _ _).after rfl rfl rfl
  · exact plain_failAllPending _ _

variable (ps : PendingSend)

theorem traffic_writeData (i : Inputs) :
    Traffic N (ps::m.outbox) m.bufferedData [] (m.writeData N c ps i) := by
  have hdropped : m.outbox.Subperm (ps::m.outbox) := (List.sublist_cons_self ps _).subperm
  unfold writeData
  split
  next frame hframe =>
    obtain ⟨s,ct,-,hct,rfl⟩:=HandshakeCoordinator.sealFrame_eq_ok N c _ _ _ _ _ hframe
    unfold sendFrame
    cases m.active with
    | none => exact .of_plain hdropped (.refl _) fun _ he => absurd he List.not_mem_nil
    | some t =>
      have hne : ¬ tagData=tagHandshake := by decide
      constructor
      · intro id
        simp only [List.filterMap_cons,List.filterMap_nil,Effect.entry,WireFrame.entry,
          if_neg hne,entriesFor,sendsFor,List.countP_cons,List.countP_nil]
        omega
      · exact fun ps' hps' => List.mem_cons_of_mem _ hps'
      · intro e he
        simp only [List.filterMap_cons,List.filterMap_nil,Effect.entry,WireFrame.entry,
          if_neg hne,List.mem_singleton] at he
        subst he
        exact ⟨ps,List.mem_cons_self,rfl,_,_,ct,hct,rfl⟩
      all_goals simp [Effect.reads]
  next e _ => exact ((plain_settle m ps.id _).traffic []).mono hdropped (.refl _)

theorem traffic_writeDrained (m : Manager) (queue : List PendingSend) :
    Traffic N (queue++m.outbox) m.bufferedData [] (writeDrained N c i m queue) := by
  induction queue generalizing m with
  | nil => exact (Plain.of_nil rfl rfl rfl).traffic []
  | cons ps rest ih =>
    rw [writeDrained]
    have hone : Traffic N (ps::m.outbox) m.bufferedData []
        (if ps.id∈m.pendingAcks then m.writeData N c ps i else (m,[])) := by
      split
      · exact traffic_writeData N m c ps i
      · exact ((Plain.of_nil rfl rfl rfl).traffic []).mono
          (List.sublist_cons_self ps _).subperm (.refl _)
    have htwo:=hone.andThen_more (f := fun m => writeDrained N c i m rest) rest [] (ih _)
    exact htwo.mono List.perm_middle.subperm (.refl _)

theorem traffic_flushSendQueue : Traffic N m.outbox m.bufferedData [] (m.flushSendQueue N c i) := by
  apply (traffic_writeDrained N c i { m with sendQueue := [] } m.sendQueue).mono
  · simp only [outbox,List.append_nil]
    exact List.perm_append_comm.subperm
  · exact .refl _

theorem traffic_handOver (m m' : Manager) (payload : Bytes) (id : JavaString) (ts ackedAt : Int64)
    (plaintext : Bytes) (hout : m'.outbox=m.outbox) (hbuf : m'.bufferedData=m.bufferedData)
    (hopens : Opens N (payload,id,ts) id plaintext) :
    Traffic N m.outbox ((payload,id,ts)::m.bufferedData) []
      (m',m.sendFrame (.ack id ackedAt) ++ [.message id plaintext]) := by
  have hsent : ∀ e∈m.sendFrame (.ack id ackedAt), ∃ t,e = .send t (.ack id ackedAt) := by
    unfold sendFrame
    cases m.active <;> simp
  have hmem : ∀ e∈m.sendFrame (.ack id ackedAt) ++ [.message id plaintext],
      (∃ t,e = .send t (.ack id ackedAt)) ∨ e = .message id plaintext := by
    intro e he
    rw [List.mem_append,List.mem_singleton] at he
    exact he.imp_left (hsent e)
  have hentry : (m.sendFrame (.ack id ackedAt) ++ [Effect.message id plaintext]).filterMap
      Effect.entry = [] := by
    rw [List.filterMap_eq_nil_iff]
    intro e he
    rcases hmem e he with ⟨t,rfl⟩ | rfl <;> rfl
  have hread : ∀ id',(m.sendFrame (.ack id ackedAt)).countP (Effect.reads id')=0 := by
    intro id'
    rw [List.countP_eq_zero]
    intro e he
    obtain ⟨t,rfl⟩:=hsent e he
    exact Bool.false_ne_true
  constructor
  · intro id'
    simp only [hentry,hout,entriesFor,List.countP_nil]
    omega
  · intro ps hps
    rwa [← hout]
  · intro e he
    rw [hentry] at he
    cases he
  · intro id'
    have hone : [Effect.message id plaintext].countP (Effect.reads id') =
        entriesFor id' [(payload,id,ts)] := by simp [entriesFor,Effect.reads]
    rw [List.countP_append,hread,hbuf,hone,Nat.zero_add,entriesFor,entriesFor,entriesFor,
      ← List.countP_append]
    exact le_refl _
  · intro e he
    rw [hbuf] at he
    exact List.mem_cons_of_mem _ he
  · intro id' p hp
    refine ⟨(payload,id,ts),List.mem_cons_self,?_⟩
    rcases hmem _ hp with ⟨t,ht⟩ | hsame
    · cases ht
    · cases hsame
      exact hopens
  · intro t id' ts' ht
    rcases hmem _ ht with ⟨t',hsame⟩ | hsame
    · cases hsame
      exact ⟨plaintext,List.mem_append_right _ (List.mem_singleton_self _)⟩
    · cases hsame
  · intro id' hid
    rcases hmem _ hid with ⟨t',hsame⟩ | hsame <;> cases hsame

theorem traffic_deliverData (payload : Bytes) (id : JavaString) (ts : Int64) (i : Inputs) :
    Traffic N m.outbox ((payload,id,ts)::m.bufferedData) []
      (m.deliverData N payload id ts i) := by
  have hdropped : ∀ m',Plain m (m',[]) →
      Traffic N m.outbox ((payload,id,ts)::m.bufferedData) [] (m',[]) := fun m' h =>
    (h.traffic []).mono (.refl _) (List.sublist_cons_self _ _).subperm
  unfold deliverData
  split
  next => exact hdropped m (.of_nil rfl rfl rfl)
  next c _ =>
    have heff:=HandshakeCoordinator.onFrame_effect N c payload id ts
    split
    next c' plaintext hframe =>
      rw [hframe] at heff
      cases heff with
      | opened wire pt s s' hp hs ho =>
        obtain ⟨-,hdec,-⟩:=(Session.openWire_eq_ok N s s' id ts wire plaintext).mp ho
        exact traffic_handOver N m _ payload id ts i.ts plaintext rfl rfl
          ⟨rfl,s.recvKey,wire,hp,hdec⟩
    next => exact hdropped _ (.of_nil rfl rfl rfl)

theorem traffic_deliverBuffered (m : Manager) (buffer : List Entry) :
    Traffic N m.outbox (buffer++m.bufferedData) [] (deliverBuffered N i m buffer) := by
  induction buffer generalizing m with
  | nil => exact (Plain.of_nil rfl rfl rfl).traffic []
  | cons e rest ih =>
    obtain ⟨payload,id,ts⟩:=e
    rw [deliverBuffered]
    have hone:=traffic_deliverData N m payload id ts i
    have htwo:=hone.andThen_more (f := fun m => deliverBuffered N i m rest) [] rest (ih _)
    exact htwo.mono (.refl _) List.perm_middle.subperm

theorem traffic_drainBufferedData :
    Traffic N m.outbox m.bufferedData [] (m.drainBufferedData N i) := by
  have h:=traffic_deliverBuffered N i { m with bufferedData := [] } m.bufferedData
  rwa [List.append_nil] at h

theorem traffic_handleMsg (payload : Bytes) (id : JavaString) (ts : Int64) (i : Inputs) :
    Traffic N m.outbox (m.bufferedData++(WireFrame.msg payload id ts).entry.toList) []
      (m.handleMsg N payload id ts i) := by
  have hdropped : ∀ r,Traffic N m.outbox m.bufferedData [] r →
      Traffic N m.outbox (m.bufferedData++(WireFrame.msg payload id ts).entry.toList) [] r :=
    fun r h => h.mono (.refl _) (List.sublist_append_left _ _).subperm
  have hkept : ∀ m',Plain m (m',[]) →
      Traffic N m.outbox (m.bufferedData++(WireFrame.msg payload id ts).entry.toList) [] (m',[]) :=
    fun m' h => hdropped _ (h.traffic [])
  unfold handleMsg
  split
  next => exact hkept _ (.of_nil rfl rfl rfl)
  next => exact hkept _ (.of_nil rfl rfl rfl)
  next tag body c _ =>
    split
    next htag =>
      split
      next => exact hkept _ (.of_nil rfl rfl rfl)
      next c' _ _ =>
        split
        next =>
          apply hdropped
          have hflush:=traffic_flushSendQueue N { m with handshake := some c' } c' i
          exact hflush.andThen (traffic_drainBufferedData N _ i)
        next => exact hkept _ (.of_nil rfl rfl rfl)
    next htag =>
      have hentry : (WireFrame.msg (tag::body) id ts).entry.toList = [(tag::body,id,ts)] := by
        simp [WireFrame.entry,htag]
      rw [hentry]
      split
      next =>
        apply Traffic.of_plain
        · exact .refl _
        · exact .refl _
        · exact fun _ he => absurd he List.not_mem_nil
      next =>
        have hone:=traffic_deliverData N m (tag::body) id ts i
        exact hone.mono (.refl _) (List.perm_append_singleton _ _).symm.subperm

theorem traffic_completeAck (id : JavaString) :
    Traffic N m.outbox m.bufferedData [id] (m.completeAck id) := by
  unfold completeAck settle
  split
  · constructor <;> simp [Effect.entry,Effect.reads,entriesFor,outbox]
  · exact (Plain.of_nil rfl rfl rfl).traffic [id]

theorem traffic_handleMessage (frame : WireFrame JavaString) (i : Inputs) :
    Traffic N m.outbox (m.bufferedData++frame.entry.toList) frame.acks
      (m.handleMessage N frame i) := by
  have hplain : ∀ r,Plain { m with lastActivityMs := i.now } r →
      Traffic N m.outbox (m.bufferedData ++ []) [] r := by
    intro r h
    rw [List.append_nil]
    exact h.traffic []
  cases frame with
  | msg payload id ts => exact traffic_handleMsg N { m with lastActivityMs := i.now } payload id ts i
  | ack id ts =>
    have h:=traffic_completeAck N { m with lastActivityMs := i.now } id
    exact h.mono (.refl _) (List.sublist_append_left _ _).subperm
  | sys kind => exact hplain _ (plain_handleSys _ kind i)
  | errorPeerOffline => exact hplain _ (plain_handleErrorPeerOffline _)
  | authRefresh id ts token => exact hplain _ (.of_nil rfl rfl rfl)
  | unread => exact hplain _ (.of_nil rfl rfl rfl)

theorem traffic_refused : Traffic N (ps::m.outbox) m.bufferedData []
    ({ m with pendingAcks := m.pendingAcks.erase ps.id },
      [.settle ps.id (some (.thrown (.illegalState "session is not active")))]) := by
  apply Traffic.of_plain
  · exact (List.sublist_cons_self ps _).subperm
  · exact .refl _
  · simp [Effect.plain]

theorem traffic_call (cleared : Bool) :
    Traffic N (ps::m.outbox) m.bufferedData [] (m.call ps cleared) := by
  unfold call
  split
  · exact traffic_refused N m ps
  · apply Traffic.of_plain
    · simp only [outbox,List.append_assoc,List.singleton_append]
      exact List.perm_middle.subperm
    · exact .refl _
    · exact fun _ he => absurd he List.not_mem_nil

theorem traffic_sendTask (i : Inputs) :
    Traffic N (ps::m.outbox) m.bufferedData [] (m.sendTask N ps i) := by
  unfold sendTask
  split
  · exact traffic_refused N m ps
  split
  · exact traffic_writeData N m _ ps i
  apply Traffic.of_plain
  · simp only [outbox]
    rw [← List.append_assoc]
    exact (List.perm_append_singleton _ _).subperm
  · exact .refl _
  · exact fun _ he => absurd he List.not_mem_nil

end Manager

def Task.sends : Task → List PendingSend
  | .call ps _ => [ps]
  | _ => []

def Task.entries : Task → List Entry
  | .message _ frame => frame.entry.toList
  | _ => []

def Task.acks : Task → List JavaString
  | .message _ frame => frame.acks
  | _ => []

theorem Manager.Plain.traffic_more {N : Native} {m : Manager} {r : Manager.Ran} (h : m.Plain r)
    (sends : List PendingSend) (entries : List Entry) (acks : List JavaString) :
    Traffic N (sends++m.outbox) (m.bufferedData++entries) acks r :=
  (h.traffic acks).mono (List.sublist_append_right _ _).subperm
    (List.sublist_append_left _ _).subperm

theorem World.traffic_next (N : Native) (S : Setup) (w : World) (o : Occurrence) :
    ∃ es,(w.next N S o).log=w.log++es ∧
      Traffic N (o.task.sends++w.manager.outbox) (w.manager.bufferedData++o.task.entries)
        o.task.acks ((w.next N S o).manager,es) := by
  obtain ⟨task,i⟩:=o
  have hplain : ∀ r : Manager.Ran,w.manager.Plain r → ∃ es,w.log++r.2=w.log++es ∧
      Traffic N (task.sends++w.manager.outbox) (w.manager.bufferedData++task.entries)
        task.acks (r.1,es) := fun r h => ⟨r.2,rfl,h.traffic_more _ _ _⟩
  have hstill : ∃ es,w.log=w.log++es ∧
      Traffic N (task.sends++w.manager.outbox) (w.manager.bufferedData++task.entries)
        task.acks (w.manager,es) := by
    have h:=hplain (w.manager,[]) (.of_nil rfl rfl rfl)
    rwa [List.append_nil] at h
  unfold next
  cases task with
  | start => exact hplain _ (w.manager.plain_start S i)
  | attemptConnect delay dial =>
    simp only
    split
    · exact hplain _ ((Manager.plain_attemptConnect S _ _ dial i).after rfl rfl rfl)
    · exact hstill
  | opened t =>
    simp only
    split
    · exact hplain _ (w.manager.plain_handleOpen N S t i)
    · exact hstill
  | message t frame =>
    simp only
    split
    · exact ⟨_,rfl,w.manager.traffic_handleMessage N frame i⟩
    · exact hstill
  | activity t =>
    simp only
    split
    · exact hplain _ (.of_nil rfl rfl rfl)
    · exact hstill
  | closed t code =>
    simp only
    split
    · exact hplain _ (w.manager.plain_onClosed S t code i)
    · exact hstill
  | failed t =>
    simp only
    split
    · exact hplain _ (w.manager.plain_onError t i)
    · exact hstill
  | watchdog =>
    simp only
    split
    · exact hplain _ (w.manager.plain_watchdogTask i)
    · exact hstill
  | refresh =>
    simp only
    split
    · exact hplain _ (w.manager.plain_refreshTaskRun S i)
    · exact hstill
  | call ps cleared =>
    refine ⟨_,rfl,?_⟩
    simp only [Task.entries,List.append_nil]
    exact w.manager.traffic_call N ps cleared
  | send id =>
    simp only
    split
    next ps hfound =>
      have hmem:=List.mem_of_find?_eq_some hfound
      have h:=Manager.traffic_sendTask N
        { w.manager with posted := w.manager.posted.erase ps } ps i
      refine ⟨_,rfl,?_⟩
      simp only [Task.entries,List.append_nil]
      refine h.mono ?_ (.refl _)
      -- the message leaves the posted tasks
      exact ((List.perm_cons_erase hmem).symm.append_right _).subperm
    next => exact hstill
  | close => exact hplain _ w.manager.plain_closeTask
  | shutdown => exact hplain _ (.of_nil rfl rfl rfl)

end SecureGateway.Sdk
