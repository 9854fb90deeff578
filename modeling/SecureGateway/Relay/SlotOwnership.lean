import SecureGateway.Relay.SlotEquivalence

/-!
# Who holds a slot of the Redis backplane

The calls made on the slots are recorded with their times and answers, newest first. From the
record one can tell who holds a slot: the connection of its last claim, as long as it has not
released it and its claim or last renewal is younger than `ttl`. Redis counts whole
milliseconds, so the two agree where `ttl` is a whole number of them.
-/

namespace SecureGateway.Relay.Redis

structure Record where
  time : Int
  call : SlotCall
  reply : SlotReply
  deriving DecidableEq, Repr

structure Watched where
  now : Int
  db : Db
  history : List Record

def watch (ttl : Int) (s : Watched) (c : TimedCall) : Watched :=
  let res := step ttl (s.now,s.db) c
  { now := res.2.1, db := res.2.2, history := ⟨res.2.1,c.call,res.1⟩ :: s.history }

/- The holder as `GET` and `splitSlotValue` give it: its instance and its connection. -/
def Db.holder (db : Db) (now : Int) (key : SlotKey) : Option (InstanceID × ConnID) :=
  (db.get now (slotRedisKey key)).map splitSlotValue

/-! ### The holder by the record -/

def Record.claims (key : SlotKey) (r : Record) : Bool :=
  match r.call with
  | .claim k _ _ => k = key
  | _ => false

def Record.renewedBy (key : SlotKey) (connID : ConnID) (r : Record) : Prop :=
  r.call = .renew key connID ∧ r.reply = .renewed none

def lastClaim (key : SlotKey) (history : List Record) : Option Record :=
  history.find? (Record.claims key)

def sinceClaim (key : SlotKey) (history : List Record) : List Record :=
  history.takeWhile fun r => !r.claims key

/-- The slot is held at `now` by `connID` on `instanceID`. -/
def HeldBy (ttl : Int) (key : SlotKey) (history : List Record) (now : Int) (connID : ConnID)
    (instanceID : InstanceID) : Prop :=
  ∃ claim, lastClaim key history = some claim ∧ claim.call = .claim key connID instanceID ∧
    (∀ r ∈ sinceClaim key history, r.call ≠ .release key connID) ∧
    ∃ beat, (beat=claim ∨ beat ∈ sinceClaim key history ∧ beat.renewedBy key connID) ∧
      now < beat.time + ttl

section History
variable {ttl now : Int} {key : SlotKey} {history : List Record} {r : Record}
  {connID connID' : ConnID} {instanceID instanceID' : InstanceID}

theorem claims_iff : r.claims key=true ↔ ∃ c i,r.call = .claim key c i := by
  unfold Record.claims
  cases hcall : r.call with
  | claim k c i => simp
  | renew k c => simp
  | release k c => simp
  | lookup k => simp

theorem lastClaim_cons (h : r.claims key=false) :
    lastClaim key (r::history)=lastClaim key history := by
  simp [lastClaim,h]

theorem sinceClaim_cons (h : r.claims key=false) :
    sinceClaim key (r::history)=r::sinceClaim key history := by
  simp [sinceClaim,h]

theorem heldBy_claim (hcall : r.call = .claim key connID instanceID) :
    HeldBy ttl key (r::history) now connID' instanceID' ↔
      connID'=connID ∧ instanceID'=instanceID ∧ now<r.time+ttl := by
  have hclaims : r.claims key=true := claims_iff.2 ⟨connID,instanceID,hcall⟩
  have hlast : lastClaim key (r::history)=some r := by simp [lastClaim,hclaims]
  have hsince : sinceClaim key (r::history) = [] := by simp [sinceClaim,hclaims]
  constructor
  · rintro ⟨claim,hclaim,hcall',-,beat,hbeat,hlt⟩
    rw [hlast,Option.some.injEq] at hclaim
    subst hclaim
    rw [hcall] at hcall'
    simp only [SlotCall.claim.injEq,true_and] at hcall'
    have hr : beat=r := by simpa [hsince] using hbeat
    rw [hr] at hlt
    exact ⟨hcall'.1.symm,hcall'.2.symm,hlt⟩
  · rintro ⟨rfl,rfl,hlt⟩
    exact ⟨r,hlast,hcall,by simp [hsince],r,.inl rfl,hlt⟩

theorem heldBy_cons (hclaims : r.claims key=false) (hrenewed : ¬ r.renewedBy key connID) :
    HeldBy ttl key (r::history) now connID instanceID ↔
      r.call ≠ .release key connID ∧ HeldBy ttl key history now connID instanceID := by
  simp only [HeldBy,lastClaim_cons hclaims,sinceClaim_cons hclaims,List.forall_mem_cons]
  constructor
  · rintro ⟨claim,hclaim,hcall,⟨hr,hrel⟩,beat,hbeat,hlt⟩
    refine ⟨hr,claim,hclaim,hcall,hrel,beat,?_,hlt⟩
    rcases hbeat with rfl | ⟨hmem,hbeat⟩
    · exact .inl rfl
    rcases List.mem_cons.1 hmem with rfl | hmem
    · exact absurd hbeat hrenewed
    · exact .inr ⟨hmem,hbeat⟩
  · rintro ⟨hr,claim,hclaim,hcall,hrel,beat,hbeat,hlt⟩
    refine ⟨claim,hclaim,hcall,⟨hr,hrel⟩,beat,?_,hlt⟩
    exact hbeat.imp_right fun ⟨hmem,hbeat⟩ => ⟨List.mem_cons_of_mem _ hmem,hbeat⟩

theorem heldBy_renewed {now' : Int} (hr : r.renewedBy key connID)
    (hheld : HeldBy ttl key history now' connID instanceID) (htimes : ∀ r'∈history,r'.time≤r.time) :
    HeldBy ttl key (r::history) now connID' instanceID' ↔
      connID'=connID ∧ instanceID'=instanceID ∧ now<r.time+ttl := by
  have hclaims : r.claims key=false := by simp [Record.claims,hr.1]
  obtain ⟨claim,hlast,hcall,hrel,-⟩:=hheld
  have hnotrel : ∀ c,r.call ≠ .release key c := by simp [hr.1]
  simp only [HeldBy,lastClaim_cons hclaims,sinceClaim_cons hclaims,List.forall_mem_cons]
  constructor
  · rintro ⟨claim',hlast',hcall',-,beat,hbeat,hlt⟩
    rw [hlast,Option.some.injEq] at hlast'
    subst hlast'
    rw [hcall] at hcall'
    simp only [SlotCall.claim.injEq,true_and] at hcall'
    have hle : beat.time≤r.time := by
      rcases hbeat with rfl | ⟨hmem,-⟩
      · exact htimes beat (List.mem_of_find?_eq_some hlast)
      rcases List.mem_cons.1 hmem with rfl | hmem
      · exact Int.le_refl _
      · exact htimes beat (List.takeWhile_prefix _ |>.subset hmem)
    exact ⟨hcall'.1.symm,hcall'.2.symm,by omega⟩
  · rintro ⟨rfl,rfl,hlt⟩
    exact ⟨claim,hlast,hcall,⟨hnotrel _,hrel⟩,r,.inr ⟨List.mem_cons_self,hr⟩,hlt⟩

end History

/-! ### The key and the record agree -/

def barFree : SlotCall → Bool
  | .claim _ connID instanceID => plain connID && !instanceID.toList.contains '|'
  | _ => true

/-- The slot holds `held` now, and from now on the record says the same. -/
structure Tells (ttl : Int) (key : SlotKey) (now : Int) (db : Db) (history : List Record)
    (held : Option Entry) : Prop where
  shows : db.Shows now key held
  named : ∀ e, held = some e → e.connID ≠ ""
  heldBy : ∀ now' connID instanceID, now≤now' →
    (HeldBy (lifetime ttl) key history now' connID instanceID ↔
      ∃ e, held = some e ∧ e.connID=connID ∧ e.instanceID=instanceID ∧ now'<e.expiresAt)
  times : ∀ r ∈ history, r.time≤now

section Calls
variable {ttl now : Int} {key : SlotKey} {db : Db} {history : List Record} {held : Option Entry}

theorem Tells.later (h : Tells ttl key now db history held) {now' : Int} (hle : now≤now') :
    Tells ttl key now' db history (held.filter fun e => now'<e.expiresAt) where
  shows := h.shows.later hle
  named e he := h.named e (Option.filter_eq_some_iff.1 he).1
  heldBy t connID instanceID ht := by
    rw [h.heldBy t connID instanceID (by omega)]
    constructor
    · rintro ⟨e,he,hid,hinst,hlt⟩
      have hlive : now'<e.expiresAt := by omega
      exact ⟨e,by simp [he,Option.filter_some,hlive],hid,hinst,hlt⟩
    · rintro ⟨e,he,hid,hinst,hlt⟩
      exact ⟨e,(Option.filter_eq_some_iff.1 he).1,hid,hinst,hlt⟩
  times r hr := by
    have hr:=h.times r hr
    omega

variable {call : SlotCall}

theorem Tells.record (h : Tells ttl key now db history held) {db' : Db} {held' : Option Entry}
    {reply : SlotReply} (hshows : db'.Shows now key held')
    (hnamed : ∀ e,held'=some e → e.connID ≠ "") (hheld : ∀ now' connID instanceID,now≤now' →
      (HeldBy (lifetime ttl) key (⟨now,call,reply⟩::history) now' connID instanceID ↔
        ∃ e,held'=some e ∧ e.connID=connID ∧ e.instanceID=instanceID ∧
          now'<e.expiresAt)) : Tells ttl key now db' (⟨now,call,reply⟩::history) held' where
  shows := hshows
  named := hnamed
  heldBy := hheld
  times r hr := by
    rcases List.mem_cons.1 hr with rfl | hr
    · exact Int.le_refl _
    · exact h.times r hr

theorem Tells.idle (h : Tells ttl key now db history held) {db' : Db} {reply : SlotReply}
    (hshows : db'.Shows now key held) (hclaims : (Record.mk now call reply).claims key=false)
    (hrenewed : ∀ c,¬ (Record.mk now call reply).renewedBy key c)
    (hrelease : ∀ e,held=some e → call ≠ .release key e.connID) :
    Tells ttl key now db' (⟨now,call,reply⟩::history) held := by
  refine h.record hshows h.named fun now' connID instanceID hle => ?_
  rw [heldBy_cons hclaims (hrenewed connID),h.heldBy now' connID instanceID hle]
  constructor
  · exact fun hheld => hheld.2
  · rintro ⟨e,he,hid,hinst,hlt⟩
    exact ⟨hid ▸ hrelease e he,e,he,hid,hinst,hlt⟩

theorem tells_claim (h : Tells ttl key now db history held) (httl : 0<lifetime ttl)
    {connID : ConnID} {instanceID : InstanceID}
    (hfree : barFree (.claim key connID instanceID)=true) :
    Tells ttl key now (serve ttl now db (.claim key connID instanceID)).2
      (⟨now,.claim key connID instanceID,(serve ttl now db (.claim key connID instanceID)).1⟩ ::
        history)
      (some ⟨connID,instanceID,now+lifetime ttl⟩) := by
  simp only [barFree,plain,Bool.and_eq_true,bne_iff_ne,ne_eq,Bool.not_eq_true',
    List.contains_eq_mem,decide_eq_false_iff_not] at hfree
  refine h.record ?_ ?_ fun now' c i hle => ?_
  · simp only [serve,claimSlot_of_shows h.shows httl]
    exact db.shows_setPX now httl key connID hfree.2
  · intro e he
    cases he
    exact hfree.1.1
  · rw [heldBy_claim rfl]
    simp [eq_comm]

theorem tells_renew (h : Tells ttl key now db history held) (httl : 0<lifetime ttl)
    (hlive : ∀ e,held=some e → now<e.expiresAt) (connID : ConnID) :
    ∃ held',Tells ttl key now (serve ttl now db (.renew key connID)).2
      (⟨now,.renew key connID,(serve ttl now db (.renew key connID)).1⟩::history) held' := by
  have hrenew : renewSlot db ttl now key connID = _ := renewSlot_of_shows h.shows connID
  cases hown : held.filter fun e => e.connID == connID with
  | none =>
    rw [hown] at hrenew
    simp only [serve,hrenew]
    refine ⟨held,h.idle h.shows rfl ?_ ?_⟩
    · intro c hc
      cases hc.2
    · intro e _ hcall
      cases hcall
  | some e =>
    rw [hown] at hrenew
    obtain ⟨rfl,hid⟩:=Option.filter_eq_some_iff.1 hown
    simp only [beq_iff_eq] at hid
    subst hid
    have hheld : HeldBy (lifetime ttl) key history now e.connID e.instanceID :=
      (h.heldBy now _ _ (Int.le_refl _)).2 ⟨e,rfl,rfl,rfl,hlive e rfl⟩
    simp only [serve,hrenew]
    refine ⟨some { e with expiresAt := now+lifetime ttl },?_⟩
    refine h.record (h.shows.pexpire httl) ?_ fun now' c i hle => ?_
    · intro e' he'
      cases he'
      exact h.named e rfl
    · rw [heldBy_renewed ⟨rfl,rfl⟩ hheld h.times]
      simp [eq_comm]

theorem tells_release (h : Tells ttl key now db history held) (connID : ConnID) :
    ∃ held',Tells ttl key now (serve ttl now db (.release key connID)).2
      (⟨now,.release key connID,(serve ttl now db (.release key connID)).1⟩::history) held' := by
  have hrelease:=releaseSlot_of_shows h.shows connID
  cases hown : held.filter fun e => e.connID == connID with
  | none =>
    rw [hown] at hrelease
    simp only [serve,hrelease]
    refine ⟨held,h.idle h.shows rfl ?_ ?_⟩
    · intro c hc
      cases hc.1
    intro e he hcall
    simp only [SlotCall.release.injEq,true_and] at hcall
    rw [Option.filter_eq_none_iff] at hown
    exact hown e he (by simp [hcall])
  | some e =>
    rw [hown] at hrelease
    obtain ⟨rfl,hid⟩:=Option.filter_eq_some_iff.1 hown
    simp only [beq_iff_eq] at hid
    simp only [serve,hrelease]
    refine ⟨none,h.record (db.shows_del now key) ?_ fun now' c i hle => ?_⟩
    · intro e' he'
      cases he'
    have hnot : ¬ (Record.mk now (.release key connID) (.released none)).renewedBy key c := by
      rintro ⟨hcall,-⟩
      cases hcall
    rw [heldBy_cons rfl hnot,h.heldBy now' c i hle]
    simp only [reduceCtorEq,false_and,exists_false,iff_false,not_and]
    rintro hne ⟨e',he',hc,-⟩
    cases he'
    exact hne (by rw [← hid,hc])

theorem tells_other (h : Tells ttl key now db history held) (hkey : call.key≠key) :
    Tells ttl key now (serve ttl now db call).2
      (⟨now,call,(serve ttl now db call).1⟩::history) held := by
  have hshows : (serve ttl now db call).2.Shows now key held :=
    h.shows.frame (fun k hk => serve_frame ttl now db call hk) (Ne.symm hkey)
  refine h.idle hshows ?_ ?_ ?_
  · rw [Bool.eq_false_iff]
    intro hclaims
    obtain ⟨c,i,hcall⟩:=claims_iff.1 hclaims
    exact hkey (by rw [show call = _ from hcall,SlotCall.key])
  · rintro c ⟨hcall,-⟩
    exact hkey (by rw [show call = _ from hcall,SlotCall.key])
  · rintro e - rfl
    exact hkey rfl

theorem tells_serve (h : Tells ttl key now db history held) (httl : 0<lifetime ttl)
    (hlive : ∀ e,held=some e → now<e.expiresAt) (call : SlotCall) (hfree : barFree call=true) :
    ∃ held',Tells ttl key now (serve ttl now db call).2
      (⟨now,call,(serve ttl now db call).1⟩::history) held' := by
  by_cases hkey : call.key=key
  · cases call with
    | claim k connID instanceID =>
      cases hkey
      exact ⟨_,tells_claim h httl hfree⟩
    | renew k connID =>
      cases hkey
      exact tells_renew h httl hlive connID
    | release k connID =>
      cases hkey
      exact tells_release h connID
    | lookup k =>
      refine ⟨held,h.idle h.shows rfl ?_ ?_⟩
      · rintro c ⟨hcall,-⟩
        cases hcall
      · intro e _ hcall
        cases hcall
  · exact ⟨held,tells_other h hkey⟩

end Calls

/-! ### Every sequence of calls -/

def unwatched (start : Int) : Watched := ⟨start,noKeys,[]⟩

theorem tells_watch {ttl : Int} (httl : 0<lifetime ttl) {key : SlotKey} (s : Watched)
    (c : TimedCall) (h : ∃ held,Tells ttl key s.now s.db s.history held)
    (hfree : barFree c.call=true) :
    ∃ held,Tells ttl key (watch ttl s c).now (watch ttl s c).db (watch ttl s c).history held := by
  obtain ⟨held,htells⟩:=h
  have hle : s.now ≤ s.now+c.elapsed := by omega
  refine tells_serve (htells.later hle) httl ?_ c.call hfree
  intro e he
  simpa using (Option.filter_eq_some_iff.1 he).2

theorem tells_run {ttl : Int} (httl : 0<lifetime ttl) (start : Int) (calls : List TimedCall)
    (hcalls : ∀ c∈calls,barFree c.call=true) (key : SlotKey) :
    let s := Machine.run (watch ttl) (unwatched start) calls
    ∃ held,Tells ttl key s.now s.db s.history held := by
  have hnone : Tells ttl key start noKeys [] none :=
    { shows := ⟨rfl,fun e he => by cases he⟩
      named := fun e he => by cases he
      heldBy := fun now' c i _ => by simp [HeldBy,lastClaim]
      times := fun r hr => by cases hr }
  exact Machine.guarded_invariant (watch ttl) (fun _ c => barFree c.call=true)
    (fun s => ∃ held,Tells ttl key s.now s.db s.history held) (tells_watch httl) _ calls
    ⟨none,hnone⟩ (Machine.guarded_of_forall _ _ _ calls fun c hc _ => hcalls c hc)

section Answers
variable {ttl now : Int} {key : SlotKey} {db : Db} {history : List Record} {held : Option Entry}
  (h : Tells ttl key now db history held) (hlive : ∀ e, held = some e → now<e.expiresAt)
include h hlive

variable (connID : ConnID)

theorem Tells.heldBy_now (instanceID : InstanceID) :
    HeldBy (lifetime ttl) key history now connID instanceID ↔
      ∃ e,held=some e ∧ e.connID=connID ∧ e.instanceID=instanceID := by
  rw [h.heldBy now connID instanceID (Int.le_refl _)]
  constructor
  · rintro ⟨e,he,hid,hinst,-⟩
    exact ⟨e,he,hid,hinst⟩
  · rintro ⟨e,he,hid,hinst⟩
    exact ⟨e,he,hid,hinst,hlive e he⟩

theorem Tells.holder (instanceID : InstanceID) :
    db.holder now key=some (instanceID,connID) ↔
      HeldBy (lifetime ttl) key history now connID instanceID := by
  rw [h.heldBy_now hlive]
  have hget:=h.shows.get
  cases held with
  | none => simp [Db.holder,hget]
  | some e =>
    have hcut:=cut_slotValue (h.shows.2 e rfl) e.connID
    simp [Db.holder,hget,splitSlotValue,hcut,and_comm]

theorem Tells.owner :
    (∃ instanceID,HeldBy (lifetime ttl) key history now connID instanceID) ↔
      ∃ e,held.filter (fun e => e.connID == connID)=some e := by
  constructor
  · rintro ⟨i,hheld⟩
    obtain ⟨e,he,hid,-⟩:=(h.heldBy_now hlive _ _).1 hheld
    exact ⟨e,by simp [he,Option.filter_some,hid]⟩
  · rintro ⟨e,he⟩
    obtain ⟨he,hid⟩:=Option.filter_eq_some_iff.1 he
    exact ⟨e.instanceID,(h.heldBy_now hlive _ _).2 ⟨e,he,by simpa using hid,rfl⟩⟩

theorem Tells.renews :
    (renewSlot db ttl now key connID).1=none ↔
      ∃ instanceID,HeldBy (lifetime ttl) key history now connID instanceID := by
  rw [h.owner hlive,renewSlot_of_shows h.shows]
  cases held.filter fun e => e.connID == connID <;> simp

theorem Tells.keeps
    (hother : ∀ instanceID,¬ HeldBy (lifetime ttl) key history now connID instanceID) :
    (renewSlot db ttl now key connID).2=db ∧ (releaseSlot db now key connID).2=db := by
  have hnone : held.filter (fun e => e.connID == connID)=none := by
    cases hown : held.filter fun e => e.connID == connID with
    | none => rfl
    | some e =>
      obtain ⟨i,hheld⟩:=(h.owner hlive connID).2 ⟨e,hown⟩
      exact absurd hheld (hother i)
  rw [renewSlot_of_shows h.shows,releaseSlot_of_shows h.shows,hnone]
  exact ⟨rfl,rfl⟩

theorem Tells.evicts (httl : 0<lifetime ttl) (connID : ConnID) (instanceID : InstanceID)
    (hnew : ∀ r∈history,∀ i,r.call ≠ .claim key connID i) :
    ∃ res,(claimSlot db ttl now key connID instanceID).1 = .ok res ∧ res.won=true ∧
      (∀ old,res.evictedConnID=some old ↔ ∃ i,HeldBy (lifetime ttl) key history now old i) ∧
      (res.evictedOnThisInstance=true ↔
        ∃ old,HeldBy (lifetime ttl) key history now old instanceID) := by
  rw [claimSlot_of_shows h.shows httl]
  refine ⟨_,rfl,?_⟩
  simp only [h.heldBy_now hlive]
  cases held with
  | none => simp
  | some e =>
    have hne : e.connID≠connID := by
      rintro rfl
      obtain ⟨claim,hlast,hcall,-⟩:=(h.heldBy_now hlive _ _).2 ⟨e,rfl,rfl,rfl⟩
      exact hnew claim (List.mem_of_find?_eq_some hlast) _ hcall
    have hid:=h.named e rfl
    simp [Option.filter_some,hne,hid]

end Answers

/-- After any calls on any slots, at any later instant: the key of a slot names its
holder by the record and nobody else; the holder and nobody else can renew; a renewal
or release by another connection changes nothing; and a new connection's claim reports
the holder as evicted, and as local if it is on the same instance. -/
theorem slot_held_by_last_claimant (ttl : Int) (httl : 0 < ttl) (hms : 1000000 ∣ ttl)
    (start : Int) (calls : List TimedCall) (hcalls : ∀ c ∈ calls, barFree c.call = true)
    (key : SlotKey) (elapsed : ℕ) :
    let s := Machine.run (watch ttl) (unwatched start) calls
    let now := s.now + elapsed
    (∀ connID instanceID, s.db.holder now key = some (instanceID,connID) ↔
        HeldBy ttl key s.history now connID instanceID) ∧
      (∀ connID, (renewSlot s.db ttl now key connID).1 = none ↔
        ∃ instanceID, HeldBy ttl key s.history now connID instanceID) ∧
      (∀ connID, (∀ instanceID, ¬ HeldBy ttl key s.history now connID instanceID) →
        (renewSlot s.db ttl now key connID).2 = s.db ∧ (releaseSlot s.db now key connID).2 = s.db) ∧
      ∀ connID instanceID, (∀ r ∈ s.history, ∀ i, r.call ≠ .claim key connID i) →
        ∃ res, (claimSlot s.db ttl now key connID instanceID).1 = .ok res ∧ res.won=true ∧
          (∀ old, res.evictedConnID = some old ↔ ∃ i, HeldBy ttl key s.history now old i) ∧
          (res.evictedOnThisInstance=true ↔
            ∃ old, HeldBy ttl key s.history now old instanceID) := by
  intro s now
  have hlife := lifetime_of_dvd hms
  have hpos : 0<lifetime ttl := by rwa [hlife]
  obtain ⟨held,htells⟩ := tells_run hpos start calls hcalls key
  have hle : s.now≤now := by omega
  have hnow := htells.later hle
  have hlive : ∀ e, held.filter (fun e => now < e.expiresAt) = some e → now<e.expiresAt := by
    intro e he
    simpa using (Option.filter_eq_some_iff.1 he).2
  have hall := And.intro (hnow.holder hlive)
    (And.intro (hnow.renews hlive) (And.intro (hnow.keeps hlive) (hnow.evicts hlive hpos)))
  simp only [hlife] at hall
  exact hall

def displacedAndRenewed : List TimedCall :=
  [mobileClaims 0 "c1" "relay-1",mobileClaims 10 "c2" "relay-2",mobileRenews 50 "c2",
    mobileReleases 5 "c1"]

theorem slot_held_by_last_claimant_displacedAndRenewed :
    let s := Machine.run (watch 60000000000) (unwatched 0) displacedAndRenewed
    HeldBy 60000000000 phoneSlot s.history (s.now + 54000000000) "c2" "relay-2" :=
  ((slot_held_by_last_claimant 60000000000 (by decide) (by decide) 0 displacedAndRenewed
    (by decide +kernel) phoneSlot 54000000000).1 "c2" "relay-2").1 (by decide +kernel)

/-- With a lifetime of one and a half milliseconds, one millisecond after its claim: the
connection is the last claimant, has released nothing and less than the lifetime has
passed, but the key is gone and its renewal is refused. -/
theorem slot_freed_before_ttl :
    let s := Machine.run (watch 1500000) (unwatched 0) [mobileClaims 0 "c1" "relay-1"]
    let now := s.now + 1000000
    HeldBy 1500000 phoneSlot s.history now "c1" "relay-1" ∧
      s.db.holder now phoneSlot = none ∧
      (renewSlot s.db 1500000 now phoneSlot "c1").1 = some .notSlotOwner := by
  refine ⟨⟨_,rfl,rfl,?_,_,.inl rfl,by decide⟩,by decide +kernel,by decide +kernel⟩
  intro r hr
  cases hr

end SecureGateway.Relay.Redis
