import SecureGateway.Sdk.Messages
import Mathlib.Data.List.Nodup

/-!
# An acknowledged message was read

The relay hands a frame of one side to the other, in any order, or loses it; it does not make
up, change or double a `msg` or an `ack`. `Carried` follows the messages of one side: each is
in one place at a time, so it is read at most once, and an acknowledgement can only follow its
reading.
-/

namespace SecureGateway.Sdk
open E2ee

/- What the relay passes on; `auth_refresh` it keeps. -/
def Effect.relayed : Effect → Option (WireFrame JavaString)
  | .send _ (.msg payload id ts) => some (.msg payload id ts)
  | .send _ (.ack id ts) => some (.ack id ts)
  | _ => none

def Task.fromPeer : Task → Bool
  | .message _ (.msg _ _ _) | .message _ (.ack _ _) => true
  | _ => false

/-- `inFlight r` holds the frames of side `r` that the relay has neither handed over nor
lost, `calls r` the messages passed to `send` on side `r`. -/
structure Pair where
  side : Role → World
  inFlight : Role → List (WireFrame JavaString)
  calls : Role → List PendingSend

inductive Pair.Event
  | work (r : Role) (o : Occurrence)
  | deliver (r : Role) (k : ℕ) (t : TransportID) (i : Inputs)
  | lose (r : Role) (k : ℕ)

namespace Pair
variable (N : Native) (S : Role → Setup)

def fresh (tokens : Role → TokenStore) : Pair where
  side r := World.fresh (tokens r)
  inFlight _ := []
  calls _ := []

def works (p : Pair) (r : Role) (o : Occurrence) (left : List (WireFrame JavaString)) : Pair :=
  let w := (p.side r).next N (S r) o
  let sent := (w.log.drop (p.side r).log.length).filterMap Effect.relayed
  { side := fun r' => if r'=r then w else p.side r'
    inFlight := fun r' => if r'=r then p.inFlight r ++ sent else left
    calls := fun r' => if r'=r then p.calls r ++ o.task.sends else p.calls r' }

def next (p : Pair) : Event → Pair
  | .work r o => if o.task.fromPeer then p else p.works N S r o (p.inFlight r.peer)
  | .deliver r k t i =>
    match (p.inFlight r)[k]? with
    | some frame => p.works N S r.peer ⟨.message t frame,i⟩ ((p.inFlight r).eraseIdx k)
    | none => p
  | .lose r k =>
    { p with
      inFlight := fun r' => if r'=r then (p.inFlight r).eraseIdx k else p.inFlight r' }

def distinct (p : Pair) : Event → Bool
  | .work r ⟨.call ps _,_⟩ => (p.calls r).all fun ps' => ps'.id != ps.id
  | _ => true

def entries (frames : List (WireFrame JavaString)) : List Entry := frames.filterMap WireFrame.entry

structure Carried (p : Pair) (r : Role) : Prop where
  once : ∀ id, sendsFor id (p.side r).manager.outbox + entriesFor id (entries (p.inFlight r)) +
    entriesFor id (p.side r.peer).manager.bufferedData +
    (p.side r.peer).log.countP (Effect.reads id) ≤ sendsFor id (p.calls r)
  waiting : ∀ ps ∈ (p.side r).manager.outbox, ps ∈ p.calls r
  sealed : ∀ e ∈ entries (p.inFlight r), ∃ ps ∈ p.calls r, Seals N ps e
  buffered : ∀ e ∈ (p.side r.peer).manager.bufferedData, ∃ ps ∈ p.calls r, Seals N ps e
  read : ∀ id pt, Effect.message id pt ∈ (p.side r.peer).log → ⟨id,pt⟩ ∈ p.calls r
  acked : ∀ id ts, WireFrame.ack id ts ∈ p.inFlight r.peer →
    ∃ pt, Effect.message id pt ∈ (p.side r.peer).log
  settled : ∀ id, Effect.settle id none ∈ (p.side r).log →
    ∃ pt, Effect.message id pt ∈ (p.side r.peer).log

variable {N S}

theorem eq_of_seals_of_opens (hbinds : AeadBinds N) (hcorrect : AeadCorrect N) {ps : PendingSend}
    {e : Entry} {id : JavaString} {pt : Bytes} (hs : Seals N ps e) (ho : Opens N e id pt) :
    ps=⟨id,pt⟩ := by
  obtain ⟨hid,key,nonce,ct,henc,hpayload⟩:=hs
  obtain ⟨hid',key',wire,hpayload',hdec⟩:=ho
  have hlen:=aeadEncrypt_nonce_length N key nonce _ _ ct henc
  obtain rfl : wire=nonce++ct := by
    rw [hpayload] at hpayload'
    exact (List.cons.inj hpayload').2.symm
  rw [List.take_left' hlen,List.drop_left' hlen] at hdec
  obtain ⟨rfl,-,-⟩:=aeadDecrypt_binds N hbinds key nonce _ _ ct key' nonce _ pt henc hdec
  have hopen:=hcorrect key' nonce _ _ ct (aeadEncrypt_native N key' nonce _ _ ct henc)
  rw [aeadDecrypt_native N key' nonce _ ct pt hdec,Option.some.injEq] at hopen
  cases ps
  simp_all

theorem entries_append (fs gs : List (WireFrame JavaString)) : entries (fs++gs)=entries fs++entries gs :=
  List.filterMap_append

theorem entries_relayed (es : List Effect) :
    entries (es.filterMap Effect.relayed)=es.filterMap Effect.entry := by
  rw [entries,List.filterMap_filterMap]
  congr 1
  funext e
  cases e with
  | send t frame => cases frame <;> rfl
  | _ => rfl

/-- The frames that remain in flight and what the task reads were in flight together. -/
structure Handed (before left : List (WireFrame JavaString)) (task : Task) : Prop where
  count : ∀ id, entriesFor id (entries left) + entriesFor id task.entries ≤
    entriesFor id (entries before)
  left : ∀ frame ∈ left, frame ∈ before
  entries : ∀ e ∈ task.entries, e ∈ entries before
  acks : ∀ id ∈ task.acks, ∃ ts, WireFrame.ack id ts ∈ before

theorem Handed.sealed {before left : List (WireFrame JavaString)} {task : Task} (h : Handed before left task)
    {e : Entry} (he : e∈Pair.entries left) : e∈Pair.entries before := by
  obtain ⟨frame,hmem,hentry⟩:=List.mem_filterMap.mp he
  exact List.mem_filterMap.mpr ⟨frame,h.left frame hmem,hentry⟩

section Step
variable (p : Pair) (r : Role) (o : Occurrence) (left : List (WireFrame JavaString))

theorem side_works : (p.works N S r o left).side r=(p.side r).next N (S r) o := if_pos rfl

theorem side_works_peer : (p.works N S r o left).side r.peer=p.side r.peer := if_neg r.peer_ne

theorem inFlight_works_peer : (p.works N S r o left).inFlight r.peer=left := if_neg r.peer_ne

theorem calls_works : (p.works N S r o left).calls r=p.calls r++o.task.sends := if_pos rfl

theorem calls_works_peer : (p.works N S r o left).calls r.peer=p.calls r.peer := if_neg r.peer_ne

theorem inFlight_works {es : List Effect}
    (hlog : ((p.side r).next N (S r) o).log=(p.side r).log++es) :
    (p.works N S r o left).inFlight r=p.inFlight r++es.filterMap Effect.relayed := by
  simp [works,hlog]

variable {p r o left}

theorem Carried.works_sender (h : Carried N p r)
    (hh : Handed (p.inFlight r.peer) left o.task) : Carried N (p.works N S r o left) r := by
  obtain ⟨es,hlog,htraffic⟩:=World.traffic_next N (S r) (p.side r) o
  have hinFlight:=inFlight_works (N := N) (S := S) p r o left hlog
  constructor
  case once =>
    intro id
    have honce:=h.once id
    have hwritten:=htraffic.written id
    rw [side_works,side_works_peer,hinFlight,calls_works,entries_append,entries_relayed]
    simp only [entriesFor,sendsFor,List.countP_append] at *
    omega
  case waiting =>
    intro ps hps
    rw [side_works] at hps
    rw [calls_works]
    have hmem:=htraffic.waiting ps hps
    rw [List.mem_append] at hmem ⊢
    exact hmem.symm.imp_left (h.waiting ps)
  case sealed =>
    intro e he
    rw [hinFlight,entries_append,entries_relayed,List.mem_append] at he
    rw [calls_works]
    cases he with
    | inl he =>
      obtain ⟨ps,hps,hseals⟩:=h.sealed e he
      exact ⟨ps,List.mem_append_left _ hps,hseals⟩
    | inr he =>
      obtain ⟨ps,hps,hseals⟩:=htraffic.sealed e he
      rw [List.mem_append] at hps
      exact ⟨ps,List.mem_append.mpr (hps.symm.imp_left (h.waiting ps)),hseals⟩
  case buffered =>
    intro e he
    rw [side_works_peer] at he
    rw [calls_works]
    obtain ⟨ps,hps,hseals⟩:=h.buffered e he
    exact ⟨ps,List.mem_append_left _ hps,hseals⟩
  case read =>
    intro id pt hmem
    rw [side_works_peer] at hmem
    rw [calls_works]
    exact List.mem_append_left _ (h.read id pt hmem)
  case acked =>
    intro id ts hmem
    rw [inFlight_works_peer] at hmem
    rw [side_works_peer]
    exact h.acked id ts (hh.left _ hmem)
  case settled =>
    intro id hmem
    rw [side_works,hlog,List.mem_append] at hmem
    rw [side_works_peer]
    cases hmem with
    | inl hmem => exact h.settled id hmem
    | inr hmem =>
      obtain ⟨ts,hack⟩:=hh.acks id (htraffic.settled id hmem)
      exact h.acked id ts hack

theorem Carried.works_reader (hbinds : AeadBinds N) (hcorrect : AeadCorrect N)
    (h : Carried N p r.peer) (hh : Handed (p.inFlight r.peer) left o.task) :
    Carried N (p.works N S r o left) r.peer := by
  obtain ⟨es,hlog,htraffic⟩:=World.traffic_next N (S r) (p.side r) o
  have hinFlight:=inFlight_works (N := N) (S := S) p r o left hlog
  have honce:=h.once
  have hbuffered:=h.buffered
  have hread:=h.read
  have hacked:=h.acked
  have hsettled:=h.settled
  rw [Role.peer_peer] at honce hbuffered hread hacked hsettled
  -- every data frame at hand was sealed from a message of the other side
  have hstock : ∀ e∈(p.side r).manager.bufferedData++o.task.entries,
      ∃ ps∈p.calls r.peer,Seals N ps e := by
    intro e he
    cases List.mem_append.mp he with
    | inl he => exact hbuffered e he
    | inr he => exact h.sealed e (hh.entries e he)
  constructor
  case once =>
    intro id
    have h₁:=honce id
    have h₂:=htraffic.read id
    have h₃:=hh.count id
    rw [Role.peer_peer,side_works,side_works_peer,inFlight_works_peer,calls_works_peer,hlog]
    simp only [entriesFor,sendsFor,List.countP_append] at *
    omega
  case waiting =>
    rw [side_works_peer,calls_works_peer]
    exact h.waiting
  case sealed =>
    intro e he
    rw [inFlight_works_peer] at he
    rw [calls_works_peer]
    exact h.sealed e (hh.sealed he)
  case buffered =>
    intro e he
    rw [Role.peer_peer,side_works] at he
    rw [calls_works_peer]
    exact hstock e (htraffic.buffered e he)
  case read =>
    intro id pt hmem
    rw [Role.peer_peer,side_works,hlog,List.mem_append] at hmem
    rw [calls_works_peer]
    cases hmem with
    | inl hmem => exact hread id pt hmem
    | inr hmem =>
      obtain ⟨e,he,hopens⟩:=htraffic.opened id pt hmem
      obtain ⟨ps,hps,hseals⟩:=hstock e he
      exact eq_of_seals_of_opens hbinds hcorrect hseals hopens ▸ hps
  case acked =>
    intro id ts hmem
    rw [Role.peer_peer,hinFlight,List.mem_append] at hmem
    rw [Role.peer_peer,side_works,hlog]
    cases hmem with
    | inl hmem =>
      obtain ⟨pt,hpt⟩:=hacked id ts hmem
      exact ⟨pt,List.mem_append_left _ hpt⟩
    | inr hmem =>
      obtain ⟨e,he,hrelayed⟩:=List.mem_filterMap.mp hmem
      obtain ⟨t,rfl⟩ : ∃ t,e = .send t (.ack id ts) := by
        cases e with
        | send t frame => cases frame <;> cases hrelayed; exact ⟨t,rfl⟩
        | _ => cases hrelayed
      obtain ⟨pt,hpt⟩:=htraffic.acked t id ts he
      exact ⟨pt,List.mem_append_right _ hpt⟩
  case settled =>
    intro id hmem
    rw [side_works_peer] at hmem
    rw [Role.peer_peer,side_works,hlog]
    obtain ⟨pt,hpt⟩:=hsettled id hmem
    exact ⟨pt,List.mem_append_left _ hpt⟩

end Step

theorem entries_cons (frame : WireFrame JavaString) (frames : List (WireFrame JavaString)) :
    entries (frame::frames)=frame.entry.toList++entries frames := by
  rw [entries,entries,List.filterMap_cons]
  cases frame.entry <;> rfl

theorem handed_nothing (frames : List (WireFrame JavaString)) (task : Task) (h : task.fromPeer=false) :
    Handed frames frames task := by
  have hnone : task.entries=[] ∧ task.acks=[] := by
    cases task with
    | message t frame =>
      cases frame with
      | msg | ack => cases h
      | _ => exact ⟨rfl,rfl⟩
    | _ => exact ⟨rfl,rfl⟩
  constructor
  · intro id
    simp [hnone.1,entriesFor]
  · exact fun frame hmem => hmem
  · intro e he
    rw [hnone.1] at he
    cases he
  · intro id hid
    rw [hnone.2] at hid
    cases hid

theorem handed_frame (frames : List (WireFrame JavaString)) (k : ℕ) (frame : WireFrame JavaString) (t : TransportID)
    (hk : frames[k]? = some frame) : Handed frames (frames.eraseIdx k) (.message t frame) := by
  have hmem:=List.mem_of_getElem? hk
  constructor
  · intro id
    obtain ⟨hlt,hget⟩:=List.getElem?_eq_some_iff.mp hk
    have hperm:=List.getElem_cons_eraseIdx_perm hlt
    have hcount:=((hperm.filterMap WireFrame.entry).countP_eq fun e => e.2.1 == id)
    rw [hget] at hcount
    have hcons:=entries_cons frame (frames.eraseIdx k)
    rw [entries] at hcons
    rw [hcons,List.countP_append] at hcount
    simp only [entriesFor,Task.entries,entries] at *
    omega
  · exact fun f hf => List.mem_of_mem_eraseIdx hf
  · intro e he
    exact List.mem_filterMap.mpr ⟨frame,hmem,Option.mem_toList.mp he⟩
  · intro id hid
    cases frame with
    | ack id' ts =>
      obtain rfl : id=id' := List.mem_singleton.mp hid
      exact ⟨ts,hmem⟩
    | _ => cases hid

theorem Carried.lose {p : Pair} {r : Role} (h : Carried N p r) (r' : Role) (k : ℕ) :
    Carried N { p with
      inFlight := fun r => if r=r' then (p.inFlight r').eraseIdx k else p.inFlight r } r := by
  have hsub : ∀ r,((if r=r' then (p.inFlight r').eraseIdx k else p.inFlight r)).Sublist
      (p.inFlight r) := by
    intro r
    split
    next heq => exact heq ▸ List.eraseIdx_sublist _ k
    next => exact List.Sublist.refl _
  have hentries:=(hsub r).filterMap WireFrame.entry
  constructor
  case once =>
    intro id
    have honce:=h.once id
    have hle:=hentries.countP_le (p := fun e => e.2.1 == id)
    simp only [entriesFor,entries] at *
    omega
  case waiting => exact h.waiting
  case sealed => exact fun e he => h.sealed e (hentries.subset he)
  case buffered => exact h.buffered
  case read => exact h.read
  case acked => exact fun id ts hmem => h.acked id ts ((hsub r.peer).subset hmem)
  case settled => exact h.settled

theorem carried_next (hbinds : AeadBinds N) (hcorrect : AeadCorrect N) (p : Pair) (e : Event)
    (h : ∀ r,Carried N p r) (r : Role) : Carried N (p.next N S e) r := by
  have hworks : ∀ r₀ o left,Handed (p.inFlight r₀.peer) left o.task →
      Carried N (p.works N S r₀ o left) r := by
    intro r₀ o left hh
    cases Role.eq_or_eq_peer r₀ r with
    | inl heq =>
      rw [heq]
      exact (h r₀).works_sender hh
    | inr heq =>
      rw [heq]
      exact (h r₀.peer).works_reader hbinds hcorrect hh
  cases e with
  | work r₀ o =>
    simp only [next]
    split
    next => exact h r
    next hnot => exact hworks r₀ o _ (handed_nothing _ _ (Bool.not_eq_true _ ▸ hnot))
  | deliver r₀ k t i =>
    simp only [next]
    split
    next frame hk =>
      apply hworks
      rw [Role.peer_peer]
      exact handed_frame _ k frame t hk
    next => exact h r
  | lose r₀ k => exact (h r).lose r₀ k

def Unique (p : Pair) : Prop := ∀ r, ((p.calls r).map PendingSend.id).Nodup

theorem unique_works {p : Pair} {r : Role} {o : Occurrence} {left : List (WireFrame JavaString)} (h : p.Unique)
    (hnew : ∀ ps∈o.task.sends,∀ ps'∈p.calls r,ps'.id≠ps.id) : (p.works N S r o left).Unique := by
  intro r'
  cases Role.eq_or_eq_peer r r' with
  | inr heq =>
    rw [heq,calls_works_peer]
    exact h r.peer
  | inl heq =>
    rw [heq,calls_works,List.map_append,List.nodup_append]
    refine ⟨h r,?_,?_⟩
    · cases o.task <;> simp [Task.sends]
    intro id hid id' hid'
    obtain ⟨ps',hps',rfl⟩:=List.mem_map.mp hid
    obtain ⟨ps,hps,rfl⟩:=List.mem_map.mp hid'
    exact hnew ps hps ps' hps'

theorem unique_next (p : Pair) (e : Event) (h : p.Unique) (hd : p.distinct e=true) :
    (p.next N S e).Unique := by
  cases e with
  | work r o =>
    obtain ⟨task,i⟩:=o
    simp only [next]
    split
    next => exact h
    next =>
      apply unique_works h
      cases task with
      | call ps cleared => simpa [distinct,Task.sends] using hd
      | _ => exact fun ps hps => absurd hps List.not_mem_nil
  | deliver r k t i =>
    simp only [next]
    split
    next => exact unique_works h fun ps hps => absurd hps List.not_mem_nil
    next => exact h
  | lose r k => exact h

theorem sendsFor_le_one {pss : List PendingSend} (h : (pss.map PendingSend.id).Nodup)
    (id : JavaString) : sendsFor id pss≤1 := by
  have hcount:=List.nodup_iff_count_le_one.mp h id
  rwa [List.count,List.countP_map] at hcount

theorem eq_of_id_eq {pss : List PendingSend} (h : (pss.map PendingSend.id).Nodup)
    {ps ps' : PendingSend} (hps : ps∈pss) (hps' : ps'∈pss) (hid : ps.id=ps'.id) :
    ps=ps' := List.inj_on_of_nodup_map h hps hps' hid

theorem carried_fresh (tokens : Role → TokenStore) (r : Role) : Carried N (fresh tokens) r where
  once _ := le_refl _
  waiting _ h := absurd h List.not_mem_nil
  sealed _ h := absurd h List.not_mem_nil
  buffered _ h := absurd h List.not_mem_nil
  read _ _ h := absurd h List.not_mem_nil
  acked _ _ h := absurd h List.not_mem_nil
  settled _ h := absurd h List.not_mem_nil

/-- A future of `send` completes with success only if the other side has decrypted its
message, to what was sent, and the other side's host gets the message at most once. -/
theorem acknowledgement_sound (N : Native) (hbinds : AeadBinds N) (hcorrect : AeadCorrect N)
    (S : Role → Setup) (tokens : Role → TokenStore) (es : List Event)
    (hids : Machine.Guarded (next N S) (fun p e => p.distinct e = true) (fresh tokens) es)
    (r : Role) (ps : PendingSend)
    (hcall : ps ∈ (Machine.run (next N S) (fresh tokens) es).calls r) :
    (Effect.settle ps.id none ∈ ((Machine.run (next N S) (fresh tokens) es).side r).log →
      Effect.message ps.id ps.plaintext ∈
        ((Machine.run (next N S) (fresh tokens) es).side r.peer).log) ∧
    ((Machine.run (next N S) (fresh tokens) es).side r.peer).log.countP (Effect.reads ps.id) ≤ 1 := by
  have hcarried := Machine.run_invariant (next N S) (fun p => ∀ r, Carried N p r)
    (fun p e h => carried_next hbinds hcorrect p e h) _ es (carried_fresh tokens)
  have hnone : (fresh tokens).Unique := fun _ => List.nodup_nil
  have hunique := Machine.guarded_invariant (next N S) _ Unique unique_next _ es hnone hids
  generalize Machine.run (next N S) (fresh tokens) es = p at *
  constructor
  · intro hsettled
    obtain ⟨pt,hread⟩ := (hcarried r).settled ps.id hsettled
    have hsame := eq_of_id_eq (hunique r) hcall ((hcarried r).read ps.id pt hread) rfl
    rw [hsame]
    exact hread
  · have honce := (hcarried r).once ps.id
    have hone := sendsFor_le_one (hunique r) ps.id
    omega

def acquainted : Role → Setup
  | .mobile => { cred := ⟨List.replicate keySize 7,List.replicate keySize 8,.mobile⟩ }
  | .desktop => { cred := ⟨List.replicate keySize 8,List.replicate keySize 7,.desktop⟩ }

def drawn (b : UInt8) : Inputs where
  ephPriv := List.replicate keySize b
  seals _ := (5,List.replicate nonceSize b)

def acknowledgedRun : List Event :=
  [.work .mobile ⟨.start,{}⟩,.work .mobile ⟨.attemptConnect 0 .returns,{}⟩,
    .work .mobile ⟨.opened 0,drawn 1⟩,.work .desktop ⟨.start,{}⟩,
    .work .desktop ⟨.attemptConnect 0 .returns,{}⟩,.work .desktop ⟨.opened 0,drawn 2⟩,
    .work .mobile ⟨.call ⟨"m1",[1,2]⟩ false,{}⟩,.work .mobile ⟨.send "m1",{}⟩,
    .deliver .mobile 0 0 {},.deliver .desktop 0 0 (drawn 3),.deliver .mobile 0 0 {},
    .deliver .desktop 0 0 {}]

theorem acknowledgement_sound_acknowledgedRun :
    Effect.settle "m1" none ∈
        ((Machine.run (next transparent acquainted) (fresh fun _ => {}) acknowledgedRun).side
          .mobile).log ∧
      Effect.message "m1" [1,2] ∈
        ((Machine.run (next transparent acquainted) (fresh fun _ => {}) acknowledgedRun).side
          Role.mobile.peer).log := by
  have hsettled : Effect.settle "m1" none ∈
      ((Machine.run (next transparent acquainted) (fresh fun _ => {}) acknowledgedRun).side
        .mobile).log := by decide +kernel
  exact ⟨hsettled,(acknowledgement_sound transparent transparent_aeadBinds
    transparent_aeadCorrect acquainted (fun _ => {}) acknowledgedRun (by decide +kernel) .mobile
    ⟨"m1",[1,2]⟩ (by decide +kernel)).1 hsettled⟩

end Pair
end SecureGateway.Sdk
