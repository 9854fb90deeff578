import SecureGateway.Lib.GoStrings
import SecureGateway.Lib.Replies
import SecureGateway.Relay.Backplane

/-!
# The slots of the Redis backplane (`redis/redis.go`)

A slot is one key whose value joins the instance and the connection with a bar. The Lua
scripts take it apart at its first bar, and fail where there is none, as does a `SET` whose
lifetime is not positive. Times are in nanoseconds, but Redis is told whole milliseconds.
`SlotCall` collects what both backplanes are asked about slots.
-/

namespace SecureGateway.Relay

/- `ErrNotSlotOwner`, `ErrUnavailable`, and any other failure of a call. -/
inductive SlotErr
  | notSlotOwner
  | unavailable
  | other
  deriving DecidableEq, Repr

inductive SlotCall
  | claim (key : SlotKey) (connID : ConnID) (instanceID : InstanceID)
  | renew (key : SlotKey) (connID : ConnID)
  | release (key : SlotKey) (connID : ConnID)
  | lookup (key : SlotKey)
  deriving DecidableEq, Repr

def SlotCall.key : SlotCall → SlotKey
  | .claim key _ _ | .renew key _ | .release key _ | .lookup key => key

/- What the caller gets; a missing error is the source's nil, and a missing
instance its empty string. -/
inductive SlotReply
  | claimed (res : Except SlotErr ClaimResult)
  | renewed (err : Option SlotErr)
  | released (err : Option SlotErr)
  | found (res : Except SlotErr (Option InstanceID))
  deriving DecidableEq, Repr

structure TimedCall where
  elapsed : ℕ
  call : SlotCall
  deriving DecidableEq, Repr

/-- A backplane with its clock, where `serve` answers a call at an instant. -/
def clocked {σ : Type} (serve : Int → σ → SlotCall → SlotReply × σ) (s : Int × σ)
    (c : TimedCall) : SlotReply × (Int × σ) :=
  let now := s.1 + c.elapsed
  ((serve now s.2 c.call).1,now,(serve now s.2 c.call).2)

def Slots.serve (ttl : Int) (now : Int) (slots : Slots) : SlotCall → SlotReply × Slots
  | .claim key connID instanceID =>
    let res := slots.claimSlot ttl now key connID instanceID
    (.claimed (.ok res.1),res.2.2)
  | .renew key connID =>
    match slots.renewSlot ttl now key connID with
    | some slots' => (.renewed none,slots')
    | none => (.renewed (some .notSlotOwner),slots)
  | .release key connID => (.released none,slots.releaseSlot key connID)
  | .lookup key => (.found (.ok (slots.lookupInstance now key)),slots)

def Slots.step (ttl : Int) : Int × Slots → TimedCall → SlotReply × (Int × Slots) :=
  clocked (Slots.serve ttl)

namespace Redis

structure Cell where
  value : String
  expiresAt : Int
  deriving DecidableEq, Repr

abbrev Db := String → Option Cell

namespace Db

def live (db : Db) (now : Int) (key : String) : Option Cell :=
  (db key).filter fun c => now < c.expiresAt

def get (db : Db) (now : Int) (key : String) : Option String := (db.live now key).map Cell.value

def setPX (db : Db) (now : Int) (key value : String) (ms : Int) : Db :=
  Function.update db key (some ⟨value,now + ms * 1000000⟩)

def pexpire (db : Db) (now : Int) (key : String) (ms : Int) : Db :=
  Function.update db key ((db.live now key).map fun c => { c with expiresAt := now + ms * 1000000 })

def del (db : Db) (key : String) : Db := Function.update db key none

end Db

/- `time.Duration.Milliseconds`, which cuts off what is left over. -/
def milliseconds (d : Int) : Int := d.tdiv 1000000

def lifetime (ttl : Int) : Int := milliseconds ttl * 1000000

theorem lifetime_of_dvd {ttl : Int} (h : 1000000 ∣ ttl) : lifetime ttl=ttl := Int.tdiv_mul_cancel h

theorem lifetime_pos {ttl : Int} : 0<lifetime ttl ↔ 0 < milliseconds ttl := by
  unfold lifetime
  omega

def slotRedisKey (k : SlotKey) : String := "slot:" ++ k.string

theorem slotRedisKey_injective : Function.Injective slotRedisKey := by
  intro k k' h
  apply SlotKey.string_injective
  simpa [slotRedisKey] using h

def slotValue (instanceID : InstanceID) (connID : ConnID) : String := instanceID ++ "|" ++ connID

def splitSlotValue (v : String) : InstanceID × ConnID := (GoStrings.cut v '|').getD ("",v)

/-! ### The scripts

`string.find(cur, '|', 1, true)` with the two `string.sub` around it is `cut`. -/

/- The displaced holder as `{connID, instanceID}`, both empty if there is none. -/
def claimScript (db : Db) (now : Int) (key value : String) (ms : Int) (connID : ConnID) :
    Option (String × String) × Db :=
  match db.get now key with
  | none => if ms≤0 then (none,db) else (some ("",""),db.setPX now key value ms)
  | some cur =>
    match GoStrings.cut cur '|' with
    | none => (none,db)
    | some (curInst,curConn) =>
      if ms≤0 then (none,db)
      else (some (if curConn≠connID then (curConn,curInst) else ("","")),
        db.setPX now key value ms)

def renewScript (db : Db) (now : Int) (key : String) (connID : ConnID) (ms : Int) :
    Option Bool × Db :=
  match db.get now key with
  | none => (some false,db)
  | some cur =>
    match GoStrings.cut cur '|' with
    | none => (none,db)
    | some (_,curConn) =>
      if curConn=connID then (some true,db.pexpire now key ms) else (some false,db)

def releaseScript (db : Db) (now : Int) (key : String) (connID : ConnID) : Option Unit × Db :=
  match db.get now key with
  | none => (some (),db)
  | some cur =>
    match GoStrings.cut cur '|' with
    | none => (none,db)
    | some (_,curConn) => if curConn=connID then (some (),db.del key) else (some (),db)

/-! ### The calls -/

/- The eviction notice to another instance is left out: it is no part of the answer. -/
def claimSlot (db : Db) (ttl now : Int) (key : SlotKey) (connID : ConnID)
    (instanceID : InstanceID) : Except SlotErr ClaimResult × Db :=
  match claimScript db now (slotRedisKey key) (slotValue instanceID connID)
      (milliseconds ttl) connID with
  | (none,db') => (.error .unavailable,db')
  | (some (evictedConn,evictedInst),db') =>
    (.ok { won := true
           evictedConnID := if evictedConn = "" then none else some evictedConn
           evictedOnThisInstance := evictedConn != "" && evictedInst == instanceID },db')

def renewSlot (db : Db) (ttl now : Int) (key : SlotKey) (connID : ConnID) : Option SlotErr × Db :=
  match renewScript db now (slotRedisKey key) connID (milliseconds ttl) with
  | (none,db') => (some .other,db')
  | (some false,db') => (some .notSlotOwner,db')
  | (some true,db') => (none,db')

def releaseSlot (db : Db) (now : Int) (key : SlotKey) (connID : ConnID) : Option SlotErr × Db :=
  match releaseScript db now (slotRedisKey key) connID with
  | (none,db') => (some .other,db')
  | (some _,db') => (none,db')

def lookupInstance (db : Db) (now : Int) (key : SlotKey) : Option InstanceID :=
  match db.get now (slotRedisKey key) with
  | none => none
  | some v => if (splitSlotValue v).1 = "" then none else some (splitSlotValue v).1

def serve (ttl : Int) (now : Int) (db : Db) : SlotCall → SlotReply × Db
  | .claim key connID instanceID =>
    let res := claimSlot db ttl now key connID instanceID
    (.claimed res.1,res.2)
  | .renew key connID =>
    let res := renewSlot db ttl now key connID
    (.renewed res.1,res.2)
  | .release key connID =>
    let res := releaseSlot db now key connID
    (.released res.1,res.2)
  | .lookup key => (.found (.ok (lookupInstance db now key)),db)

def step (ttl : Int) : Int × Db → TimedCall → SlotReply × (Int × Db) := clocked (serve ttl)

/-! ### What each call does to a slot -/

theorem claimScript_frame (db : Db) (now : Int) {key k : String} (value : String) (ms : Int)
    (connID : ConnID) (hk : k≠key) : (claimScript db now key value ms connID).2 k=db k := by
  have hset : db.setPX now key value ms k=db k := Function.update_of_ne hk _ _
  unfold claimScript
  split
  · split
    · rfl
    · exact hset
  split
  · rfl
  split
  · rfl
  · exact hset

theorem renewScript_frame (db : Db) (now : Int) {key k : String} (connID : ConnID) (ms : Int)
    (hk : k≠key) : (renewScript db now key connID ms).2 k=db k := by
  unfold renewScript
  split
  · rfl
  split
  · rfl
  split
  · exact Function.update_of_ne hk _ _
  · rfl

theorem releaseScript_frame (db : Db) (now : Int) {key k : String} (connID : ConnID)
    (hk : k≠key) : (releaseScript db now key connID).2 k=db k := by
  unfold releaseScript
  split
  · rfl
  split
  · rfl
  split
  · exact Function.update_of_ne hk _ _
  · rfl

theorem serve_frame (ttl now : Int) (db : Db) (call : SlotCall) {k : String}
    (hk : k≠slotRedisKey call.key) : (serve ttl now db call).2 k=db k := by
  cases call with
  | claim key connID instanceID =>
    have hframe:=claimScript_frame db now (slotValue instanceID connID) (milliseconds ttl) connID hk
    simp only [serve,claimSlot]
    split <;> next heq => simpa [heq,SlotCall.key] using hframe
  | renew key connID =>
    have hframe:=renewScript_frame db now connID (milliseconds ttl) hk
    simp only [serve,renewSlot]
    split <;> next heq => simpa [heq,SlotCall.key] using hframe
  | release key connID =>
    have hframe:=releaseScript_frame db now connID hk
    simp only [serve,releaseSlot]
    split <;> next heq => simpa [heq,SlotCall.key] using hframe
  | lookup key => rfl

theorem cut_slotValue {instanceID : InstanceID} (h : '|'∉instanceID.toList) (connID : ConnID) :
    GoStrings.cut (slotValue instanceID connID) '|'=some (instanceID,connID) := by
  have hlist : (slotValue instanceID connID).toList=instanceID.toList ++ '|'::connID.toList := by
    simp [slotValue]
  have htake : (instanceID.toList ++ '|'::connID.toList).takeWhile (· ≠ '|') =
      instanceID.toList := by
    rw [List.takeWhile_append_of_pos]
    · simp
    intro c hc
    simp only [decide_eq_true_eq]
    rintro rfl
    exact h hc
  have hdrop : (instanceID.toList ++ '|'::connID.toList).dropWhile (· ≠ '|') =
      '|'::connID.toList := by
    rw [List.dropWhile_append_of_pos]
    · simp
    intro c hc
    simp only [decide_eq_true_eq]
    rintro rfl
    exact h hc
  simp only [GoStrings.cut,hlist,htake,hdrop]
  simp

def cell (e : Entry) : Cell := ⟨slotValue e.instanceID e.connID,e.expiresAt⟩

/-- The slot holds this entry at `now`, or is free. -/
def Db.Shows (db : Db) (now : Int) (key : SlotKey) (held : Option Entry) : Prop :=
  db.live now (slotRedisKey key) = held.map cell ∧ ∀ e, held = some e → '|' ∉ e.instanceID.toList

section Calls
variable {db : Db} {ttl now : Int} {key : SlotKey} {held : Option Entry}

theorem Db.Shows.get (h : db.Shows now key held) :
    db.get now (slotRedisKey key)=held.map fun e => slotValue e.instanceID e.connID := by
  simp only [Db.get,h.1,Option.map_map]
  rfl

theorem claimSlot_of_shows (h : db.Shows now key held) (httl : 0<lifetime ttl) (connID : ConnID)
    (instanceID : InstanceID) :
    claimSlot db ttl now key connID instanceID =
      (.ok (match held.filter fun e => e.connID != connID with
        | none => ⟨true,none,false⟩
        | some e => ⟨true,if e.connID = "" then none else some e.connID,
            e.connID != "" && e.instanceID == instanceID⟩),
        db.setPX now (slotRedisKey key) (slotValue instanceID connID) (milliseconds ttl)) := by
  have hpos : ¬ milliseconds ttl≤0 := by
    rw [lifetime_pos] at httl
    omega
  cases held with
  | none => simp [claimSlot,claimScript,h.get,hpos]
  | some e =>
    have hcut:=cut_slotValue (h.2 e rfl) e.connID
    by_cases hc : e.connID=connID
    · subst hc
      simp [claimSlot,claimScript,h.get,hcut,hpos,Option.filter_some]
    · simp [claimSlot,claimScript,h.get,hcut,hpos,hc,Option.filter_some]

theorem renewSlot_of_shows (h : db.Shows now key held) (connID : ConnID) :
    renewSlot db ttl now key connID =
      match held.filter fun e => e.connID == connID with
      | none => (some .notSlotOwner,db)
      | some _ => (none,db.pexpire now (slotRedisKey key) (milliseconds ttl)) := by
  cases held with
  | none => simp [renewSlot,renewScript,h.get]
  | some e =>
    have hcut:=cut_slotValue (h.2 e rfl) e.connID
    by_cases hc : e.connID=connID
    · subst hc
      simp [renewSlot,renewScript,h.get,hcut,Option.filter_some]
    · simp [renewSlot,renewScript,h.get,hcut,hc,Option.filter_some]

theorem releaseSlot_of_shows (h : db.Shows now key held) (connID : ConnID) :
    releaseSlot db now key connID =
      match held.filter fun e => e.connID == connID with
      | none => (none,db)
      | some _ => (none,db.del (slotRedisKey key)) := by
  cases held with
  | none => simp [releaseSlot,releaseScript,h.get]
  | some e =>
    have hcut:=cut_slotValue (h.2 e rfl) e.connID
    by_cases hc : e.connID=connID
    · subst hc
      simp [releaseSlot,releaseScript,h.get,hcut,Option.filter_some]
    · simp [releaseSlot,releaseScript,h.get,hcut,hc,Option.filter_some]

theorem lookupInstance_of_shows (h : db.Shows now key held) :
    lookupInstance db now key=held.bind fun e =>
      if e.instanceID = "" then none else some e.instanceID := by
  cases held with
  | none => simp [lookupInstance,h.get]
  | some e =>
    have hcut:=cut_slotValue (h.2 e rfl) e.connID
    simp [lookupInstance,h.get,splitSlotValue,hcut]

theorem Db.Shows.later (h : db.Shows now key held) {now' : Int} (hle : now≤now') :
    db.Shows now' key (held.filter fun e => now'<e.expiresAt) := by
  have hlive : db.live now' (slotRedisKey key) =
      (db.live now (slotRedisKey key)).filter fun c => now'<c.expiresAt := by
    simp only [Db.live,Option.filter_filter]
    congr 1
    funext c
    rw [Bool.eq_iff_iff]
    simp only [Bool.and_eq_true,decide_eq_true_eq]
    omega
  constructor
  · rw [hlive,h.1]
    cases held with
    | none => rfl
    | some e => by_cases he : now'<e.expiresAt <;> simp [cell,he,Option.filter_some]
  · intro e he
    exact h.2 e (Option.filter_eq_some_iff.1 he).1

theorem Db.shows_setPX (db : Db) (now : Int) (httl : 0<lifetime ttl) (key : SlotKey) (connID : ConnID)
    {instanceID : InstanceID} (hbar : '|'∉instanceID.toList) :
    (db.setPX now (slotRedisKey key) (slotValue instanceID connID) (milliseconds ttl)).Shows now key
      (some ⟨connID,instanceID,now+lifetime ttl⟩) := by
  have hlt : now<now+milliseconds ttl*1000000 := by
    unfold lifetime at httl
    omega
  constructor
  · simp [Db.live,Db.setPX,cell,hlt,lifetime]
  intro e he
  cases he
  exact hbar

theorem Db.Shows.pexpire (h : db.Shows now key held) (httl : 0<lifetime ttl) :
    (db.pexpire now (slotRedisKey key) (milliseconds ttl)).Shows now key
      (held.map fun e => { e with expiresAt := now+lifetime ttl }) := by
  have hlt : now<now+lifetime ttl := by omega
  constructor
  · have hcell : db.pexpire now (slotRedisKey key) (milliseconds ttl) (slotRedisKey key) =
        (held.map cell).map fun c => { c with expiresAt := now+lifetime ttl } := by
      rw [← h.1]
      simp [Db.pexpire,lifetime]
    rw [Db.live,hcell]
    cases held with
    | none => rfl
    | some e => simp [cell,hlt,Option.filter_some]
  · intro e he
    obtain ⟨e',he',rfl⟩:=Option.map_eq_some_iff.1 he
    exact h.2 e' he'

theorem Db.shows_del (db : Db) (now : Int) (key : SlotKey) :
    (db.del (slotRedisKey key)).Shows now key none := by
  constructor
  · simp [Db.live,Db.del]
  · intro e he
    cases he

theorem Db.Shows.frame {db' : Db} {key' : SlotKey} (h : db.Shows now key held)
    (hframe : ∀ k,k≠slotRedisKey key' → db' k=db k) (hne : key≠key') : db'.Shows now key held := by
  have hkey : slotRedisKey key≠slotRedisKey key' := fun heq => hne (slotRedisKey_injective heq)
  refine ⟨?_,h.2⟩
  rw [← h.1]
  simp only [Db.live,hframe _ hkey]

end Calls
end Redis
end SecureGateway.Relay
