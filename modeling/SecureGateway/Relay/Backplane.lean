import SecureGateway.Role
import Mathlib.Logic.Function.Basic

/-!
# Connection slots (`backplane.go`, `memory/memory.go`)

Per pair and role there is one slot, held by one connection on one relay instance. A claim
always wins; a displaced holder on another instance is told by a notice that names the slot
and nothing else. Renewal and release compare connection ids. An expired lease is an entry
whose `expiresAt` has passed.
-/

namespace SecureGateway.Relay

abbrev ConnID := String
abbrev InstanceID := String

structure SlotKey where
  pairID : String
  role : Role
  deriving DecidableEq, Repr

namespace SlotKey

def peer (k : SlotKey) : SlotKey := { k with role := k.role.peer }

@[simp] theorem peer_peer (k : SlotKey) : k.peer.peer=k := by simp [peer]

/- `SlotKey.String`, which the Redis backplane builds its keys from. -/
def string (k : SlotKey) : String := "pair:" ++ k.pairID ++ ":" ++ k.role.wire

theorem string_injective : Function.Injective string := by
  rintro ⟨p,r⟩ ⟨p',r'⟩ h
  -- a pair id may hold anything, but the last letter tells the roles apart
  have hr : r=r' := by
    have hlast:=congrArg (fun s => s.toList.reverse.head?) h
    cases r <;> cases r' <;> simp [string,Role.wire] at hlast ⊢
  subst hr
  simp only [string,String.append_left_inj,String.append_right_inj] at h
  rw [h]

end SlotKey

/- The slots of the pair in the sample runs. -/
def phoneSlot : SlotKey := ⟨"pair-1",.mobile⟩
def desktopSlot : SlotKey := ⟨"pair-1",.desktop⟩

/- The source writes a free slot's `EvictedConnID` as the empty string. -/
structure ClaimResult where
  won : Bool
  evictedConnID : Option ConnID
  evictedOnThisInstance : Bool
  deriving DecidableEq, Repr

structure Entry where
  connID : ConnID
  instanceID : InstanceID
  expiresAt : Int
  deriving DecidableEq, Repr

abbrev Slots := SlotKey → Option Entry

variable (slots : Slots) (now : Int) (key : SlotKey)

namespace Slots

def displaced (slots : Slots) (now : Int) (key : SlotKey) (connID : ConnID) : Option Entry :=
  (slots key).filter fun cur => now < cur.expiresAt && cur.connID != connID

/-- `ClaimSlot`: the result, the instance to be notified if the displaced holder
lives on another one, and the slots with the newcomer in place. -/
def claimSlot (slots : Slots) (ttl now : Int) (key : SlotKey) (connID : ConnID)
    (instanceID : InstanceID) : ClaimResult × Option InstanceID × Slots :=
  let slots' := Function.update slots key (some ⟨connID,instanceID,now + ttl⟩)
  match slots.displaced now key connID with
  | some cur =>
    let here := cur.instanceID == instanceID
    (⟨true,some cur.connID,here⟩,if here then none else some cur.instanceID,slots')
  | none => (⟨true,none,false⟩,none,slots')

/-- `RenewSlot`: `none` is `ErrNotSlotOwner`. -/
def renewSlot (slots : Slots) (ttl now : Int) (key : SlotKey) (connID : ConnID) : Option Slots :=
  match slots key with
  | some cur =>
    if cur.connID=connID then
      some (Function.update slots key (some { cur with expiresAt := now + ttl }))
    else none
  | none => none

def releaseSlot (slots : Slots) (key : SlotKey) (connID : ConnID) : Slots :=
  match slots key with
  | some cur => if cur.connID=connID then Function.update slots key none else slots
  | none => slots

/- `LookupInstance`; `none` is the source's empty string. -/
def lookupInstance (slots : Slots) (now : Int) (key : SlotKey) : Option InstanceID :=
  match slots key with
  | some cur => if now<cur.expiresAt then some cur.instanceID else none
  | none => none

/-- The connection in the slot, and where it lives. -/
def Holds (slots : Slots) (key : SlotKey) (connID : ConnID) (instanceID : InstanceID) : Prop :=
  ∃ cur, slots key = some cur ∧ cur.connID=connID ∧ cur.instanceID=instanceID

def Owns (slots : Slots) (key : SlotKey) (connID : ConnID) : Prop :=
  ∃ cur, slots key = some cur ∧ cur.connID=connID

instance (slots : Slots) (key : SlotKey) (connID : ConnID) : Decidable (slots.Owns key connID) :=
  match h : slots key with
  | some cur =>
    decidable_of_iff (cur.connID=connID) (by simp [Owns,h])
  | none => isFalse (by simp [Owns,h])

theorem Holds.owns {slots : Slots} {key : SlotKey} {id : ConnID} {inst : InstanceID}
    (h : slots.Holds key id inst) : slots.Owns key id := by
  obtain ⟨cur,hcur,hid,-⟩:=h
  exact ⟨cur,hcur,hid⟩

/-! ### What each call does to the holders -/

theorem claimSlot_slots (ttl now : Int) (key : SlotKey) (connID : ConnID) (inst : InstanceID) :
    (slots.claimSlot ttl now key connID inst).2.2 =
      Function.update slots key (some ⟨connID,inst,now+ttl⟩) := by
  unfold claimSlot
  split <;> rfl

theorem claimSlot_won (ttl now : Int) (key : SlotKey) (connID : ConnID) (inst : InstanceID) :
    (slots.claimSlot ttl now key connID inst).1.won=true := by
  unfold claimSlot
  split <;> rfl

theorem displaced_owns (connID : ConnID) (cur : Entry)
    (h : slots.displaced now key connID=some cur) : slots key=some cur ∧ cur.connID≠connID := by
  simp only [displaced,Option.filter_eq_some_iff,Bool.and_eq_true,bne_iff_ne] at h
  exact ⟨h.1,h.2.2⟩

theorem claimSlot_evicted (ttl now : Int) (key : SlotKey) (connID old : ConnID) (inst : InstanceID)
    (h : (slots.claimSlot ttl now key connID inst).1.evictedConnID=some old) :
    slots.Owns key old ∧ old≠connID := by
  unfold claimSlot at h
  split at h
  next cur hcur =>
    simp only [Option.some.injEq] at h
    obtain ⟨hslot,hne⟩:=displaced_owns slots now key connID cur hcur
    exact ⟨⟨cur,hslot,h⟩,h ▸ hne⟩
  next => cases h

theorem claimSlot_notice (ttl now : Int) (key : SlotKey) (connID : ConnID) (inst other : InstanceID)
    (h : (slots.claimSlot ttl now key connID inst).2.1=some other) : other≠inst := by
  unfold claimSlot at h
  split at h
  next cur hcur =>
    dsimp only at h
    split at h
    next => cases h
    next hne =>
      rw [Option.some.injEq] at h
      rw [← h]
      simpa using hne
  next => cases h

theorem renewSlot_holds (slots' : Slots) (ttl now : Int) (key key' : SlotKey) (id id' : ConnID)
    (inst : InstanceID) (h : slots.renewSlot ttl now key id=some slots') :
    slots'.Holds key' id' inst ↔ slots.Holds key' id' inst := by
  unfold renewSlot at h
  split at h
  next cur hcur =>
    split at h
    next =>
      rw [Option.some.injEq] at h
      subst h
      by_cases hk : key'=key
      · subst hk
        simp [Holds,hcur]
      · simp [Holds,Function.update_of_ne hk]
    next => cases h
  next => cases h

theorem renewSlot_none (ttl now : Int) (key : SlotKey) (id : ConnID) :
    slots.renewSlot ttl now key id=none ↔ ¬ slots.Owns key id := by
  unfold renewSlot Owns
  split
  next cur hcur =>
    by_cases hid : cur.connID=id <;> simp [hid,hcur]
  next hnone => simp [hnone]

theorem releaseSlot_eq_some (key' : SlotKey) (id : ConnID) (cur : Entry)
    (h : slots.releaseSlot key id key'=some cur) :
    slots key'=some cur ∧ ¬ (key'=key ∧ cur.connID=id) := by
  cases hheld : slots key with
  | none =>
    simp only [releaseSlot,hheld] at h
    refine ⟨h,?_⟩
    rintro ⟨rfl,-⟩
    rw [hheld] at h
    cases h
  | some held =>
    by_cases hid : held.connID=id
    · simp only [releaseSlot,hheld,hid,if_true] at h
      by_cases hk : key'=key
      · simp [hk] at h
      · rw [Function.update_of_ne hk] at h
        exact ⟨h,fun hh => hk hh.1⟩
    · simp only [releaseSlot,hheld,hid,if_false] at h
      refine ⟨h,?_⟩
      rintro ⟨rfl,rfl⟩
      rw [hheld,Option.some.injEq] at h
      exact hid (by rw [h])

theorem releaseSlot_holds (key' : SlotKey) (id id' : ConnID) (inst : InstanceID) :
    (slots.releaseSlot key id).Holds key' id' inst ↔
      slots.Holds key' id' inst ∧ ¬ (key'=key ∧ id'=id) := by
  unfold releaseSlot
  split
  next cur hcur =>
    by_cases hid : cur.connID=id
    · by_cases hk : key'=key
      · subst hk
        simp only [hid,if_true,Holds,Function.update_self,hcur,Option.some.injEq]
        constructor
        · rintro ⟨c,hc,-⟩
          cases hc
        · rintro ⟨⟨c,rfl,hc,-⟩,hne⟩
          exact absurd ⟨trivial,hc.symm.trans hid⟩ hne
      · simp [hid,Holds,hk]
    · simp only [hid,if_false]
      constructor
      · intro h
        refine ⟨h,?_⟩
        rintro ⟨rfl,rfl⟩
        obtain ⟨c,hc,hcid,-⟩:=h
        rw [hcur,Option.some.injEq] at hc
        exact hid (hc ▸ hcid)
      · exact fun h => h.1
  next hnone =>
    constructor
    · intro h
      refine ⟨h,?_⟩
      rintro ⟨rfl,rfl⟩
      obtain ⟨c,hc,-⟩:=h
      rw [hnone] at hc
      cases hc
    · exact fun h => h.1

end Slots
end SecureGateway.Relay
