import SecureGateway.Relay.Redis

/-!
# Slots in memory and in Redis

The in-memory backplane looks at a deadline when it reads an entry, and `RenewSlot` does not
look, so it revives a slot that Redis has dropped. Redis cuts an instance id at its first bar,
and its keys live for whole milliseconds. Where none of this happens, both give the same
answers.
-/

namespace SecureGateway.Relay

/-! ### The calls -/

/- A UUID is not empty and has no bar. -/
def plain (id : String) : Bool := id != "" && !id.toList.contains '|'

def SlotCall.wellFormed : SlotCall → Bool
  | .claim _ connID instanceID => plain connID && instanceID != ""
  | .renew _ connID | .release _ connID => plain connID
  | .lookup _ => true

/-- The instance of a claim has no bar in its id, and no connection renews a slot
that is still recorded for it but whose time is over. -/
def agreeable (s : Int × Slots) (c : TimedCall) : Bool :=
  match c.call with
  | .claim _ _ instanceID => !instanceID.toList.contains '|'
  | .renew key connID =>
    match s.2 key with
    | some cur => cur.connID != connID || decide (s.1 + c.elapsed < cur.expiresAt)
    | none => true
  | _ => true

/-! ### The relation -/

def Slots.live (slots : Slots) (now : Int) (key : SlotKey) : Option Entry :=
  (slots key).filter fun e => now < e.expiresAt

theorem Slots.displaced_eq (slots : Slots) (now : Int) (key : SlotKey) (connID : ConnID) :
    slots.displaced now key connID=(slots.live now key).filter fun e => e.connID != connID := by
  simp only [displaced,live,Option.filter_filter]

theorem Slots.live_later (slots : Slots) {now now' : Int} (h : now≤now') (key : SlotKey) :
    (slots.live now key).filter (fun e => now'<e.expiresAt)=slots.live now' key := by
  simp only [live,Option.filter_filter]
  congr 1
  funext e
  rw [Bool.eq_iff_iff]
  simp only [Bool.and_eq_true,decide_eq_true_eq]
  omega

theorem Slots.live_filter_of_not_owns {slots : Slots} {key : SlotKey} {connID : ConnID}
    (h : ¬ slots.Owns key connID) (now : Int) :
    (slots.live now key).filter (fun e => e.connID == connID)=none := by
  rw [Option.filter_eq_none_iff]
  intro e he hid
  have hslot : slots key=some e := (Option.filter_eq_some_iff.1 he).1
  exact h ⟨e,hslot,by simpa using hid⟩

/-- Redis shows, at this instant, the entries whose time is not over. -/
structure SameSlots (now : Int) (slots : Slots) (db : Redis.Db) : Prop where
  shows : ∀ key, db.Shows now key (slots.live now key)
  named : ∀ key e, slots key = some e → e.connID ≠ "" ∧ e.instanceID ≠ ""

theorem SameSlots.later {now now' : Int} {slots : Slots} {db : Redis.Db}
    (h : SameSlots now slots db) (hle : now≤now') : SameSlots now' slots db where
  shows key := by
    rw [← slots.live_later hle key]
    exact (h.shows key).later hle
  named := h.named

theorem SameSlots.write {now : Int} {slots : Slots} {db db' : Redis.Db} {key : SlotKey}
    {held : Option Entry} (h : SameSlots now slots db)
    (hshows : db'.Shows now key (held.filter fun e => now<e.expiresAt))
    (hframe : ∀ k,k≠Redis.slotRedisKey key → db' k=db k)
    (hnamed : ∀ e,held=some e → e.connID ≠ "" ∧ e.instanceID ≠ "") :
    SameSlots now (Function.update slots key held) db' where
  shows key' := by
    by_cases hk : key'=key
    · subst hk
      simpa [Slots.live] using hshows
    · have hold:=(h.shows key').frame hframe hk
      simpa [Slots.live,Function.update_of_ne hk] using hold
  named key' e he := by
    by_cases hk : key'=key
    · subst hk
      rw [Function.update_self] at he
      exact hnamed e he
    · rw [Function.update_of_ne hk] at he
      exact h.named key' e he

/-! ### One call -/

section Call
variable {now ttl : Int} {slots : Slots} {db : Redis.Db} (h : SameSlots now slots db)
include h

theorem SameSlots.named_live {key : SlotKey} {e : Entry} (he : slots.live now key=some e) :
    slots key=some e ∧ e.connID ≠ "" ∧ e.instanceID ≠ "" := by
  have hslot : slots key=some e := (Option.filter_eq_some_iff.1 he).1
  exact ⟨hslot,h.named key e hslot⟩

theorem SameSlots.claim (httl : 0<ttl) (hms : Redis.lifetime ttl=ttl) (key : SlotKey) {connID : ConnID}
    {instanceID : InstanceID} (hconn : connID ≠ "") (hinst : instanceID ≠ "")
    (hbar : '|'∉instanceID.toList) :
    (slots.serve ttl now (.claim key connID instanceID)).1 =
        (Redis.serve ttl now db (.claim key connID instanceID)).1 ∧
      SameSlots now (slots.serve ttl now (.claim key connID instanceID)).2
        (Redis.serve ttl now db (.claim key connID instanceID)).2 := by
  have hlife : 0<Redis.lifetime ttl := by rwa [hms]
  have hredis:=Redis.claimSlot_of_shows (h.shows key) hlife connID instanceID
  constructor
  · simp only [Slots.serve,Redis.serve,hredis,Slots.claimSlot,slots.displaced_eq]
    cases hd : (slots.live now key).filter fun e => e.connID != connID with
    | none => rfl
    | some e =>
      obtain ⟨-,hne,-⟩:=h.named_live (Option.filter_eq_some_iff.1 hd).1
      simp [hne]
  have hslots : (slots.serve ttl now (.claim key connID instanceID)).2 =
      Function.update slots key (some ⟨connID,instanceID,now+ttl⟩) :=
    slots.claimSlot_slots ttl now key connID instanceID
  have hdb : (Redis.serve ttl now db (.claim key connID instanceID)).2 =
      db.setPX now (Redis.slotRedisKey key) (Redis.slotValue instanceID connID)
        (Redis.milliseconds ttl) := by
    simp only [Redis.serve,hredis]
  rw [hslots,hdb]
  apply h.write
  · have hlt : now<now+ttl := by omega
    have hnew:=db.shows_setPX now hlife key connID hbar
    rw [hms] at hnew
    simpa [Option.filter_some,hlt] using hnew
  · intro k hk
    exact Function.update_of_ne hk _ _
  · intro e he
    cases he
    exact ⟨hconn,hinst⟩

theorem SameSlots.renew (httl : 0<ttl) (hms : Redis.lifetime ttl=ttl) (key : SlotKey)
    (connID : ConnID) (hlive : ∀ e,slots key=some e → e.connID=connID → now<e.expiresAt) :
    (slots.serve ttl now (.renew key connID)).1 =
        (Redis.serve ttl now db (.renew key connID)).1 ∧
      SameSlots now (slots.serve ttl now (.renew key connID)).2
        (Redis.serve ttl now db (.renew key connID)).2 := by
  have hredis : Redis.renewSlot db ttl now key connID = _ :=
    Redis.renewSlot_of_shows (h.shows key) connID
  by_cases howner : slots.Owns key connID
  · obtain ⟨e,he,rfl⟩:=howner
    have hlt:=hlive e he rfl
    have hheld : slots.live now key=some e := by simp [Slots.live,he,Option.filter_some,hlt]
    have hmem : slots.renewSlot ttl now key e.connID =
        some (Function.update slots key (some { e with expiresAt := now+ttl })) := by
      simp [Slots.renewSlot,he]
    rw [hheld] at hredis
    simp only [Option.filter_some,beq_self_eq_true,if_true] at hredis
    simp only [Slots.serve,Redis.serve,hmem,hredis,true_and]
    apply h.write
    · have hnew : now<now+ttl := by omega
      have hlife : 0<Redis.lifetime ttl := by rwa [hms]
      have hshows:=(h.shows key).pexpire hlife
      rw [hheld,hms] at hshows
      simpa [Option.filter_some,hnew] using hshows
    · intro k hk
      exact Function.update_of_ne hk _ _
    · intro e' he'
      cases he'
      exact h.named key e he
  · have hmem : slots.renewSlot ttl now key connID=none := (slots.renewSlot_none ..).2 howner
    rw [Slots.live_filter_of_not_owns howner now] at hredis
    simp only [Slots.serve,Redis.serve,hmem,hredis,true_and]
    exact h

theorem SameSlots.release (key : SlotKey) (connID : ConnID) :
    (slots.serve ttl now (.release key connID)).1 =
        (Redis.serve ttl now db (.release key connID)).1 ∧
      SameSlots now (slots.serve ttl now (.release key connID)).2
        (Redis.serve ttl now db (.release key connID)).2 := by
  have hredis:=Redis.releaseSlot_of_shows (h.shows key) connID
  by_cases howner : slots.Owns key connID
  · obtain ⟨e,he,rfl⟩:=howner
    have hmem : slots.releaseSlot key e.connID=Function.update slots key none := by
      simp [Slots.releaseSlot,he]
    -- in memory the entry goes also when its time is over; in Redis it is gone by then
    by_cases hlt : now<e.expiresAt
    · have hheld : slots.live now key=some e := by simp [Slots.live,he,Option.filter_some,hlt]
      rw [hheld] at hredis
      simp only [Option.filter_some,beq_self_eq_true,if_true] at hredis
      simp only [Slots.serve,Redis.serve,hmem,hredis,true_and]
      apply h.write
      · exact db.shows_del now key
      · intro k hk
        exact Function.update_of_ne hk _ _
      · intro e' he'
        cases he'
    · have hfree : slots.live now key=none := by simp [Slots.live,he,Option.filter_some,hlt]
      rw [hfree] at hredis
      simp only [Option.filter_none] at hredis
      simp only [Slots.serve,Redis.serve,hmem,hredis,true_and]
      apply h.write
      · have hshows:=h.shows key
        rwa [hfree] at hshows
      · intro k _
        rfl
      · intro e' he'
        cases he'
  · have hmem : slots.releaseSlot key connID=slots := by
      unfold Slots.releaseSlot
      split
      · next e he =>
        have hid : ¬ e.connID=connID := fun hid => howner ⟨e,he,hid⟩
        rw [if_neg hid]
      · rfl
    rw [Slots.live_filter_of_not_owns howner now] at hredis
    simp only [Slots.serve,Redis.serve,hmem,hredis,true_and]
    exact h

theorem SameSlots.lookup (key : SlotKey) :
    (slots.serve ttl now (.lookup key)).1=(Redis.serve ttl now db (.lookup key)).1 := by
  have hredis:=Redis.lookupInstance_of_shows (h.shows key)
  have hmem : slots.lookupInstance now key=(slots.live now key).map Entry.instanceID := by
    unfold Slots.lookupInstance Slots.live
    split
    · next e he => by_cases hlt : now<e.expiresAt <;> simp [he,hlt,Option.filter_some]
    · next hnone => simp [hnone]
  simp only [Slots.serve,Redis.serve,hmem,hredis]
  cases hl : slots.live now key with
  | none => rfl
  | some e =>
    obtain ⟨-,-,hne⟩:=h.named_live hl
    simp [hne]

end Call

/-! ### Every sequence of calls -/

theorem sameSlots_step {ttl : Int} (httl : 0<ttl) (hms : Redis.lifetime ttl=ttl)
    (s : Int × Slots) (r : Int × Redis.Db) (c : TimedCall) (hrel : s.1=r.1 ∧ SameSlots s.1 s.2 r.2)
    (hok : c.call.wellFormed=true ∧ agreeable s c=true) :
    (Slots.step ttl s c).1=(Redis.step ttl r c).1 ∧
      (Slots.step ttl s c).2.1=(Redis.step ttl r c).2.1 ∧
      SameSlots (Slots.step ttl s c).2.1 (Slots.step ttl s c).2.2 (Redis.step ttl r c).2.2 := by
  obtain ⟨hclock,hsame⟩:=hrel
  have hle : s.1 ≤ s.1+c.elapsed := by omega
  have hnow:=hsame.later hle
  simp only [Slots.step,Redis.step,clocked,← hclock,true_and]
  obtain ⟨elapsed,call⟩:=c
  cases call with
  | claim key connID instanceID =>
    simp only [SlotCall.wellFormed,plain,agreeable,Bool.and_eq_true,bne_iff_ne,ne_eq,
      Bool.not_eq_true',List.contains_eq_mem,decide_eq_false_iff_not] at hok
    exact hnow.claim httl hms key hok.1.1.1 hok.1.2 hok.2
  | renew key connID =>
    refine hnow.renew httl hms key connID fun e he hid => ?_
    have hlive:=hok.2
    simpa [agreeable,he,hid] using hlive
  | release key connID => exact hnow.release key connID
  | lookup key => exact ⟨hnow.lookup key,hnow⟩

def noSlots : Slots := fun _ => none
def Redis.noKeys : Redis.Db := fun _ => none

theorem sameSlots_none (now : Int) : SameSlots now noSlots Redis.noKeys where
  shows key := ⟨rfl,fun e he => by cases he⟩
  named key e he := by cases he

/-- Every sequence of calls, on any slots and with any time between them, that puts
no bar into an instance id and renews no slot whose time is over: if slots live for
whole milliseconds, the two backplanes give the same answers. -/
theorem backplanes_answer_alike (ttl : Int) (httl : 0<ttl) (hms : 1000000 ∣ ttl) (start : Int)
    (calls : List TimedCall)
    (hcalls : Machine.Guarded (Machine.moved (Slots.step ttl))
      (fun s c => c.call.wellFormed = true ∧ agreeable s c = true) (start,noSlots) calls) :
    Machine.answers (Slots.step ttl) (start,noSlots) calls =
      Machine.answers (Redis.step ttl) (start,Redis.noKeys) calls :=
  Machine.answers_eq_of_simulation (Slots.step ttl) (Redis.step ttl)
    (fun s r => s.1 = r.1 ∧ SameSlots s.1 s.2 r.2) _
    (sameSlots_step httl (Redis.lifetime_of_dvd hms)) _ _ calls ⟨rfl,sameSlots_none start⟩ hcalls

def mobileClaims (n : ℕ) (connID : ConnID) (instanceID : InstanceID) : TimedCall :=
  ⟨n * 1000000000,.claim phoneSlot connID instanceID⟩
def mobileRenews (n : ℕ) (connID : ConnID) : TimedCall :=
  ⟨n * 1000000000,.renew phoneSlot connID⟩
def mobileReleases (n : ℕ) (connID : ConnID) : TimedCall :=
  ⟨n * 1000000000,.release phoneSlot connID⟩
def mobileLookup (n : ℕ) : TimedCall :=
  ⟨n * 1000000000,.lookup phoneSlot⟩

def displacedAndExpired : List TimedCall :=
  [mobileClaims 0 "c1" "relay-1",mobileClaims 10 "c2" "relay-2",mobileRenews 5 "c1",
    mobileRenews 20 "c2",mobileLookup 20,mobileLookup 60,mobileReleases 0 "c2"]

theorem backplanes_answer_alike_displacedAndExpired :
    Machine.answers (Slots.step 60000000000) (0,noSlots) displacedAndExpired =
      Machine.answers (Redis.step 60000000000) (0,Redis.noKeys) displacedAndExpired :=
  backplanes_answer_alike 60000000000 (by decide) (by decide) 0 displacedAndExpired
    (by decide +kernel)

/-! ### Where they differ -/

def renewsLate : List TimedCall :=
  [mobileClaims 0 "c1" "relay-1",mobileRenews 60 "c1",mobileLookup 0]

/- A connection of an instance with a bar in its id claims its slot once more. -/
def claimsTwice : List TimedCall :=
  [mobileClaims 0 "c1" "eu|relay-1",mobileClaims 1 "c1" "eu|relay-1"]

/- Half a millisecond before a slot of one and a half milliseconds runs out. -/
def readsLate : List TimedCall :=
  [mobileClaims 0 "c1" "relay-1",⟨1000000,.lookup phoneSlot⟩]

theorem backplanes_answer_differently :
    (∀ c ∈ renewsLate ++ claimsTwice ++ readsLate, c.call.wellFormed=true) ∧
      Machine.answers (Slots.step 60000000000) (0,noSlots) renewsLate =
        [.claimed (.ok ⟨true,none,false⟩),.renewed none,.found (.ok (some "relay-1"))] ∧
      Machine.answers (Redis.step 60000000000) (0,Redis.noKeys) renewsLate =
        [.claimed (.ok ⟨true,none,false⟩),.renewed (some .notSlotOwner),.found (.ok none)] ∧
      Machine.answers (Slots.step 60000000000) (0,noSlots) claimsTwice =
        [.claimed (.ok ⟨true,none,false⟩),.claimed (.ok ⟨true,none,false⟩)] ∧
      Machine.answers (Redis.step 60000000000) (0,Redis.noKeys) claimsTwice =
        [.claimed (.ok ⟨true,none,false⟩),.claimed (.ok ⟨true,some "relay-1|c1",false⟩)] ∧
      Machine.answers (Slots.step 1500000) (0,noSlots) readsLate =
        [.claimed (.ok ⟨true,none,false⟩),.found (.ok (some "relay-1"))] ∧
      Machine.answers (Redis.step 1500000) (0,Redis.noKeys) readsLate =
        [.claimed (.ok ⟨true,none,false⟩),.found (.ok none)] := by
  decide +kernel

end SecureGateway.Relay
