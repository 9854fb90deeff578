import SecureGateway.Lib.Machine
import SecureGateway.Relay.Backplane

/-!
# Registration and eviction in the hub (`hub.go`, `session.go`)

The relay instances share one backplane. Every backplane call, every load, store and delete in
the instance's `local` map and every `CloseWith` is a step of its own. `Hub.Run`
handles an eviction notice in two steps, and so does `Session.renew`. `claims` is history: the
successful claims, oldest first.
-/

namespace SecureGateway.Relay

/- `protocol.go`, Appendix B. -/
inductive CloseCode
  | superseded
  | tokenExpired
  | revoked
  | protocol
  | goingAway
  deriving DecidableEq, Repr

def CloseCode.status : CloseCode → ℕ
  | superseded => 4001
  | tokenExpired => 4003
  | revoked => 4004
  | protocol => 4005
  | goingAway => 1001

/-- Where a connection stands between two steps of `handleConnect`. -/
inductive Phase
  /- accepted, `Register` not yet begun -/
  | accepted
  /- `ClaimSlot` has returned `res` -/
  | claimed (res : ClaimResult)
  /- the load found the displaced holder `old`, which is to be closed next -/
  | superseding (old : ConnID)
  /- about to `local.Store` -/
  | indexing
  /- `Register` is done, `Serve` runs -/
  | serving
  /- `Serve` has returned, `Deregister` is about to `CompareAndDelete` -/
  | deregistering
  /- about to `ReleaseSlot` -/
  | releasing
  | gone
  deriving DecidableEq, Repr

def Phase.Live : Phase → Prop
  | .accepted => False
  | .gone => False
  | _ => True

def Phase.InProgress : Phase → Bool
  | .claimed _ | .superseding _ | .indexing | .deregistering | .releasing => true
  | .accepted | .serving | .gone => false

structure Session where
  key : SlotKey
  accountID : String
  inst : InstanceID
  phase : Phase
  deriving DecidableEq

/- `EvictedConnID`, `CloseWith` and the map entries name connections; ids are unique. -/
structure State where
  slots : Slots
  localIndex : InstanceID → SlotKey → Option ConnID
  sessions : ConnID → Option Session
  closed : ConnID → Option CloseCode
  /- `renewSlot` has returned `ErrNotSlotOwner`, the close is still to come -/
  slotLost : ConnID → Bool
  notices : List (InstanceID × SlotKey)
  /- what `evictLocal` has loaded on an instance and not yet closed -/
  evicting : InstanceID → Option ConnID
  claims : List (SlotKey × ConnID)

namespace State

def empty : State where
  slots _ := none
  localIndex _ _ := none
  sessions _ := none
  closed _ := none
  slotLost _ := false
  notices := []
  evicting _ := none
  claims := []

def setSession (st : State) (id : ConnID) (c : Session) : State :=
  { st with sessions := Function.update st.sessions id (some c) }

/- `CloseWith` under `closeOnce`: the first code stays. -/
def closeWith (st : State) (id : ConnID) (code : CloseCode) : State :=
  { st with closed := Function.update st.closed id (some ((st.closed id).getD code)) }

def setIndex (st : State) (inst : InstanceID) (key : SlotKey) (v : Option ConnID) : State :=
  { st with localIndex :=
      Function.update st.localIndex inst (Function.update (st.localIndex inst) key v) }

end State

structure RevocationEvent where
  pairID : String
  accountID : String
  deriving DecidableEq

def RevocationEvent.hits (ev : RevocationEvent) (c : Session) : Bool :=
  (ev.pairID != "" && c.key.pairID == ev.pairID) ||
    (ev.accountID != "" && c.accountID == ev.accountID)

inductive Step
  | accept (id : ConnID) (key : SlotKey) (accountID : String) (inst : InstanceID)
  | claimSlot (id : ConnID) (now : Int)
  | claimFails (id : ConnID)
  | loadDisplaced (id : ConnID)
  | supersede (id : ConnID)
  | store (id : ConnID)
  | unwind (id : ConnID)
  | compareAndDelete (id : ConnID)
  | releaseSlot (id : ConnID) (fails : Bool)
  | renewSlot (id : ConnID) (now : Int)
  | closeLost (id : ConnID)
  | close (id : ConnID) (code : CloseCode)
  | revoke (inst : InstanceID) (ev : RevocationEvent)
  | evictLoad (n : ℕ)
  | evictClose (inst : InstanceID)
  | dropNotice (n : ℕ)
  deriving DecidableEq

def Step.conn : Step → Option ConnID
  | .claimSlot id _ | .claimFails id | .loadDisplaced id | .supersede id | .store id | .unwind id
  | .compareAndDelete id | .releaseSlot id _ | .renewSlot id _ | .closeLost id | .close id _ => some id
  | .accept .. | .revoke .. | .evictLoad _ | .evictClose _ | .dropNotice _ => none

namespace State
variable (ttl : Int)

def claim (st : State) (id : ConnID) (c : Session) (now : Int) : State :=
  let r := st.slots.claimSlot ttl now c.key id c.inst
  let st := { st with
    slots := r.2.2
    notices := st.notices ++ (r.2.1.map fun inst => (inst,c.key)).toList
    claims := st.claims ++ [(c.key,id)] }
  if r.1.won then st.setSession id { c with phase := .claimed r.1 }
  else (st.closeWith id .superseded).setSession id { c with phase := .serving }

/- The phase after the check `res.EvictedConnID != "" && res.EvictedOnThisInstance`. -/
def afterLoad (st : State) (c : Session) (res : ClaimResult) : Phase :=
  match res.evictedConnID with
  | some old =>
    if res.evictedOnThisInstance ∧ st.localIndex c.inst c.key = some old then .superseding old
    else .indexing
  | none => .indexing

def release (st : State) (id : ConnID) (c : Session) (fails : Bool) : State :=
  let st := if fails then st else { st with slots := st.slots.releaseSlot c.key id }
  st.setSession id { c with phase := .gone }

def renew (st : State) (id : ConnID) (c : Session) (now : Int) : State :=
  match st.slots.renewSlot ttl now c.key id with
  | some slots => { st with slots }
  | none => { st with slotLost := Function.update st.slotLost id true }

/- `Hub.revoke`: the range over the map closes every entry in scope. -/
def revoke (st : State) (inst : InstanceID) (ev : RevocationEvent) : State :=
  { st with closed := fun id =>
      match st.sessions id with
      | some c =>
        if st.localIndex inst c.key = some id ∧ ev.hits c then
          some ((st.closed id).getD .revoked)
        else st.closed id
      | none => st.closed id }

/- The load of `evictLocal`; `Run` handles one notice at a time. -/
def evictLoad (st : State) (n : ℕ) (inst : InstanceID) (key : SlotKey) : State :=
  { st with
    notices := st.notices.eraseIdx n
    evicting := Function.update st.evicting inst (st.localIndex inst key) }

/-- A step of a connection that is in the phase the step starts from. -/
def connStep (st : State) (id : ConnID) (c : Session) : Step → State
  | .claimSlot _ now => if c.phase=.accepted then st.claim ttl id c now else st
  | .claimFails _ =>
    if c.phase=.accepted then st.setSession id { c with phase := .gone } else st
  | .loadDisplaced _ =>
    match c.phase with
    | .claimed res => st.setSession id { c with phase := st.afterLoad c res }
    | _ => st
  | .supersede _ =>
    match c.phase with
    | .superseding old =>
      (st.closeWith old .superseded).setSession id { c with phase := .indexing }
    | _ => st
  | .store _ =>
    if c.phase=.indexing then
      (st.setIndex c.inst c.key (some id)).setSession id { c with phase := .serving }
    else st
  | .unwind _ =>
    if c.phase=.serving then st.setSession id { c with phase := .deregistering } else st
  | .compareAndDelete _ =>
    if c.phase=.deregistering then
      let st := if st.localIndex c.inst c.key = some id then st.setIndex c.inst c.key none else st
      st.setSession id { c with phase := .releasing }
    else st
  | .releaseSlot _ fails => if c.phase=.releasing then st.release id c fails else st
  | .renewSlot _ now => if c.phase=.serving then st.renew ttl id c now else st
  | .closeLost _ =>
    if c.phase=.serving ∧ st.slotLost id then st.closeWith id .superseded else st
  -- every other caller of `CloseWith`: expiry, heartbeat, protocol errors, drain
  | .close _ code => if code=.superseded then st else st.closeWith id code
  | _ => st

def next (st : State) (a : Step) : State :=
  match a with
  | .accept id key accountID inst =>
    if st.sessions id = none then st.setSession id ⟨key,accountID,inst,.accepted⟩ else st
  | .revoke inst ev => st.revoke inst ev
  | .evictLoad n =>
    match st.notices[n]? with
    | some (inst,key) => if st.evicting inst = none then st.evictLoad n inst key else st
    | none => st
  | .evictClose inst =>
    match st.evicting inst with
    | some id =>
      { st.closeWith id .superseded with evicting := Function.update st.evicting inst none }
    | none => st
  | .dropNotice n => { st with notices := st.notices.eraseIdx n }
  | _ =>
    match a.conn with
    | some id =>
      match st.sessions id with
      | some c => st.connStep ttl id c a
      | none => st
    | none => st

/-! ### What one step can do

`Moves` lists the steps that change something, each with the phase it starts from;
invariants are proved by cases on it and never unfold `next`. -/

def claimed (st : State) (id : ConnID) (c : Session) (now : Int) : State :=
  let r := st.slots.claimSlot ttl now c.key id c.inst
  { st with
    slots := Function.update st.slots c.key (some ⟨id,c.inst,now + ttl⟩)
    notices := st.notices ++ (r.2.1.map fun inst => (inst,c.key)).toList
    claims := st.claims ++ [(c.key,id)]
    sessions := Function.update st.sessions id (some { c with phase := .claimed r.1 }) }

def deleted (st : State) (id : ConnID) (c : Session) : State :=
  if st.localIndex c.inst c.key = some id then st.setIndex c.inst c.key none else st

def released (st : State) (id : ConnID) (c : Session) (fails : Bool) : State :=
  if fails then st else { st with slots := st.slots.releaseSlot c.key id }

inductive Moves (st : State) : Step → State → Prop
  | idle (a : Step) : Moves st a st
  | accept (id : ConnID) (key : SlotKey) (accountID : String) (inst : InstanceID)
      (h : st.sessions id = none) :
      Moves st (.accept id key accountID inst) (st.setSession id ⟨key,accountID,inst,.accepted⟩)
  | claim (id : ConnID) (c : Session) (now : Int) (hc : st.sessions id = some c)
      (hp : c.phase=.accepted) : Moves st (.claimSlot id now) (st.claimed ttl id c now)
  | claimFails (id : ConnID) (c : Session) (hc : st.sessions id = some c)
      (hp : c.phase=.accepted) :
      Moves st (.claimFails id) (st.setSession id { c with phase := .gone })
  | load (id : ConnID) (c : Session) (res : ClaimResult) (hc : st.sessions id = some c)
      (hp : c.phase = .claimed res) :
      Moves st (.loadDisplaced id) (st.setSession id { c with phase := st.afterLoad c res })
  | supersede (id old : ConnID) (c : Session) (hc : st.sessions id = some c)
      (hp : c.phase = .superseding old) :
      Moves st (.supersede id)
        ((st.closeWith old .superseded).setSession id { c with phase := .indexing })
  | store (id : ConnID) (c : Session) (hc : st.sessions id = some c) (hp : c.phase=.indexing) :
      Moves st (.store id)
        ((st.setIndex c.inst c.key (some id)).setSession id { c with phase := .serving })
  | unwind (id : ConnID) (c : Session) (hc : st.sessions id = some c) (hp : c.phase=.serving) :
      Moves st (.unwind id) (st.setSession id { c with phase := .deregistering })
  | delete (id : ConnID) (c : Session) (hc : st.sessions id = some c)
      (hp : c.phase=.deregistering) :
      Moves st (.compareAndDelete id)
        ((st.deleted id c).setSession id { c with phase := .releasing })
  | release (id : ConnID) (c : Session) (fails : Bool) (hc : st.sessions id = some c)
      (hp : c.phase=.releasing) :
      Moves st (.releaseSlot id fails)
        ((st.released id c fails).setSession id { c with phase := .gone })
  | renewed (id : ConnID) (c : Session) (now : Int) (slots : Slots)
      (hc : st.sessions id = some c) (hp : c.phase=.serving)
      (hr : st.slots.renewSlot ttl now c.key id = some slots) :
      Moves st (.renewSlot id now) { st with slots }
  | lost (id : ConnID) (c : Session) (now : Int) (hc : st.sessions id = some c)
      (hp : c.phase=.serving) (hr : ¬ st.slots.Owns c.key id) :
      Moves st (.renewSlot id now)
        { st with slotLost := Function.update st.slotLost id true }
  | closeLost (id : ConnID) (c : Session) (hc : st.sessions id = some c)
      (hl : st.slotLost id = true) : Moves st (.closeLost id) (st.closeWith id .superseded)
  | close (id : ConnID) (code : CloseCode) (hcode : code≠.superseded) :
      Moves st (.close id code) (st.closeWith id code)
  | revoke (inst : InstanceID) (ev : RevocationEvent) :
      Moves st (.revoke inst ev) (st.revoke inst ev)
  | evictLoad (n : ℕ) (inst : InstanceID) (key : SlotKey) (hn : st.notices[n]? = some (inst,key)) :
      Moves st (.evictLoad n) (st.evictLoad n inst key)
  | evictClose (inst : InstanceID) (id : ConnID) (he : st.evicting inst = some id) :
      Moves st (.evictClose inst)
        { st.closeWith id .superseded with evicting := Function.update st.evicting inst none }
  | dropNotice (n : ℕ) : Moves st (.dropNotice n) { st with notices := st.notices.eraseIdx n }

theorem claim_eq_claimed (st : State) (id : ConnID) (c : Session) (now : Int) :
    st.claim ttl id c now=st.claimed ttl id c now := by
  simp only [claim,claimed,Slots.claimSlot_won,if_true,Slots.claimSlot_slots,setSession]

theorem connStep_moves (st : State) (id : ConnID) (c : Session) (hc : st.sessions id=some c)
    (a : Step) (ha : a.conn=some id) : Moves ttl st a (st.connStep ttl id c a) := by
  cases a <;> simp only [Step.conn,Option.some.injEq,reduceCtorEq] at ha <;> subst ha <;>
    simp only [connStep]
  case claimSlot id now =>
    split
    next hp => exact claim_eq_claimed ttl st id c now ▸ .claim id c now hc hp
    next => exact .idle _
  case claimFails id =>
    split
    next hp => exact .claimFails id c hc hp
    next => exact .idle _
  case loadDisplaced id =>
    split
    next res hp => exact .load id c res hc hp
    next => exact .idle _
  case supersede id =>
    split
    next old hp => exact .supersede id old c hc hp
    next => exact .idle _
  case store id =>
    split
    next hp => exact .store id c hc hp
    next => exact .idle _
  case unwind id =>
    split
    next hp => exact .unwind id c hc hp
    next => exact .idle _
  case compareAndDelete id =>
    split
    next hp => exact .delete id c hc hp
    next => exact .idle _
  case releaseSlot id fails =>
    split
    next hp => exact .release id c fails hc hp
    next => exact .idle _
  case renewSlot id now =>
    split
    next hp =>
      unfold renew
      split
      next slots hr => exact .renewed id c now slots hc hp hr
      next hr => exact .lost id c now hc hp ((Slots.renewSlot_none _ _ _ _ _).mp hr)
    next => exact .idle _
  case closeLost id =>
    split
    next hp => exact .closeLost id c hc hp.2
    next => exact .idle _
  case close id code =>
    split
    next => exact .idle _
    next hcode => exact .close id code hcode

theorem next_moves (st : State) (a : Step) : Moves ttl st a (st.next ttl a) := by
  cases a with
  | accept id key accountID inst =>
    simp only [next]
    split
    next h => exact .accept id key accountID inst h
    next => exact .idle _
  | revoke inst ev => exact .revoke inst ev
  | evictLoad n =>
    simp only [next]
    split
    next inst key hn =>
      split
      next => exact .evictLoad n inst key hn
      next => exact .idle _
    next => exact .idle _
  | evictClose inst =>
    simp only [next]
    split
    next id he => exact .evictClose inst id he
    next => exact .idle _
  | dropNotice n => exact .dropNotice n
  | _ =>
    simp only [next,Step.conn]
    split
    next c hc => exact connStep_moves ttl st _ c hc _ rfl
    next => exact .idle _

end State
end SecureGateway.Relay
