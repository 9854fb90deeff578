import SecureGateway.Relay.Hub
import Mathlib.Data.List.Sublists

/-!
# Who holds a slot, and who has been displaced

A connection is `Beaten` when it has claimed, a later claim for the same slot has succeeded,
and the slot is not its own; that is final, because a connection claims once. `Tracked` says
that whoever is about to be closed by `Register` or by a failed renewal is beaten.
-/

namespace SecureGateway.Relay
namespace State
variable (ttl : Int)

/-- Another connection has claimed the slot after `id` did. -/
def Displaced (claims : List (SlotKey × ConnID)) (key : SlotKey) (id : ConnID) : Prop :=
  ∃ id', id'≠id ∧ [(key,id),(key,id')].Sublist claims

def Beaten (st : State) (id : ConnID) : Prop :=
  ∃ c, st.sessions id = some c ∧ c.phase≠.accepted ∧ ¬ st.slots.Owns c.key id ∧
    Displaced st.claims c.key id

variable (st : State) (id : ConnID) (c : Session)

@[simp] theorem setSession_sessions :
    (st.setSession id c).sessions=Function.update st.sessions id (some c) := rfl

@[simp] theorem setSession_slots : (st.setSession id c).slots=st.slots := rfl

@[simp] theorem setSession_localIndex : (st.setSession id c).localIndex=st.localIndex := rfl

@[simp] theorem setSession_claims : (st.setSession id c).claims=st.claims := rfl

@[simp] theorem setSession_slotLost : (st.setSession id c).slotLost=st.slotLost := rfl

theorem setIndex_of_ne (inst inst' : InstanceID) (key key' : SlotKey) (v : Option ConnID)
    (h : ¬ (inst'=inst ∧ key'=key)) :
    (st.setIndex inst key v).localIndex inst' key'=st.localIndex inst' key' := by
  by_cases hi : inst'=inst
  · subst hi
    have hk : key'≠key := fun hk => h ⟨rfl,hk⟩
    simp [setIndex,hk]
  · simp [setIndex,hi]

@[simp] theorem deleted_sessions : (st.deleted id c).sessions=st.sessions := by
  unfold deleted
  split <;> rfl

@[simp] theorem deleted_slots : (st.deleted id c).slots=st.slots := by
  unfold deleted
  split <;> rfl

@[simp] theorem deleted_claims : (st.deleted id c).claims=st.claims := by
  unfold deleted
  split <;> rfl

@[simp] theorem deleted_slotLost : (st.deleted id c).slotLost=st.slotLost := by
  unfold deleted
  split <;> rfl

theorem deleted_localIndex (inst : InstanceID) (key : SlotKey) (x : ConnID)
    (h : (st.deleted id c).localIndex inst key=some x) :
    st.localIndex inst key=some x ∧ ¬ (x=id ∧ c.inst=inst ∧ c.key=key) := by
  unfold deleted at h
  split at h
  next hhit =>
    by_cases hat : inst=c.inst ∧ key=c.key
    · obtain ⟨rfl,rfl⟩:=hat
      simp [setIndex] at h
    · rw [setIndex_of_ne st c.inst inst c.key key none hat] at h
      exact ⟨h,fun hh => hat ⟨hh.2.1.symm,hh.2.2.symm⟩⟩
  next hmiss =>
    refine ⟨h,?_⟩
    rintro ⟨rfl,rfl,rfl⟩
    exact hmiss h

variable (fails : Bool)

@[simp] theorem released_sessions : (st.released id c fails).sessions=st.sessions := by
  unfold released
  split <;> rfl

@[simp] theorem released_localIndex : (st.released id c fails).localIndex=st.localIndex := by
  unfold released
  split <;> rfl

@[simp] theorem released_claims : (st.released id c fails).claims=st.claims := by
  unfold released
  split <;> rfl

@[simp] theorem released_slotLost : (st.released id c fails).slotLost=st.slotLost := by
  unfold released
  split <;> rfl

theorem claimed_sessions_self (now : Int) :
    (st.claimed ttl id c now).sessions id =
      some { c with phase := .claimed (st.slots.claimSlot ttl now c.key id c.inst).1 } := by
  simp [claimed]

theorem claimed_slots_self (now : Int) :
    (st.claimed ttl id c now).slots c.key=some ⟨id,c.inst,now+ttl⟩ := by
  simp [claimed]

/-! ### What a step keeps of a connection -/

theorem moves_session (st st' : State) (a : Step) (hm : Moves ttl st a st') (id : ConnID)
    (c : Session) (hc : st.sessions id=some c) :
    ∃ c',st'.sessions id=some c' ∧ c'.key=c.key ∧ c'.inst=c.inst ∧
      (c.phase≠.accepted → c'.phase≠.accepted) := by
  have keep : ∀ (x : ConnID) (d d' : Session), st.sessions x=some d → d'.key=d.key →
      d'.inst=d.inst → d'.phase≠.accepted →
      ∃ c',Function.update st.sessions x (some d') id=some c' ∧ c'.key=c.key ∧
        c'.inst=c.inst ∧ (c.phase≠.accepted → c'.phase≠.accepted) := by
    intro x d d' hd hkey hinst hphase
    by_cases hx : id=x
    · subst hx
      rw [hc,Option.some.injEq] at hd
      subst hd
      exact ⟨d',by simp,hkey,hinst,fun _ => hphase⟩
    · exact ⟨c,by simp [hx,hc],rfl,rfl,fun h => h⟩
  cases hm with
  | accept x key accountID inst h =>
    have hx : id≠x := by
      rintro rfl
      rw [h] at hc
      cases hc
    exact ⟨c,by simp [hx,hc],rfl,rfl,fun h => h⟩
  | claim x d now hd hp => exact keep x d _ hd rfl rfl (by simp)
  | claimFails x d hd hp => exact keep x d _ hd rfl rfl (by simp)
  | load x d res hd hp =>
    refine keep x d _ hd rfl rfl ?_
    simp only [afterLoad]
    split
    · split <;> simp
    · simp
  | supersede x old d hd hp => exact keep x d _ hd rfl rfl (by simp)
  | store x d hd hp => exact keep x d _ hd rfl rfl (by simp)
  | unwind x d hd hp => exact keep x d _ hd rfl rfl (by simp)
  | delete x d hd hp =>
    rw [setSession_sessions,deleted_sessions]
    exact keep x d _ hd rfl rfl (by simp)
  | release x d fails hd hp =>
    rw [setSession_sessions,released_sessions]
    exact keep x d _ hd rfl rfl (by simp)
  | _ => exact ⟨c,hc,rfl,rfl,fun h => h⟩

theorem moves_claims (st st' : State) (a : Step) (hm : Moves ttl st a st') :
    st.claims.Sublist st'.claims := by
  cases hm with
  | claim x d now hd hp => exact List.sublist_append_left _ _
  | delete x d hd hp => simp
  | release x d fails hd hp => simp
  | _ => exact List.Sublist.refl _

theorem moves_holds (st st' : State) (a : Step) (hm : Moves ttl st a st') (key : SlotKey)
    (id : ConnID) (inst : InstanceID) (h : st'.slots.Holds key id inst) :
    st.slots.Holds key id inst ∨
      ∃ c now,a = .claimSlot id now ∧ st.sessions id=some c ∧ c.phase=.accepted ∧
        c.key=key ∧ c.inst=inst ∧ st'=st.claimed ttl id c now := by
  cases hm with
  | claim x d now hd hp =>
    by_cases hk : key=d.key
    · obtain ⟨cur,hcur,hid,hinst⟩:=h
      simp only [claimed,hk,Function.update_self,Option.some.injEq] at hcur
      subst hcur
      simp only at hid hinst
      subst hid
      exact Or.inr ⟨d,now,rfl,hd,hp,hk.symm,hinst,rfl⟩
    · left
      obtain ⟨cur,hcur,hrest⟩:=h
      simp only [claimed,Function.update_of_ne hk] at hcur
      exact ⟨cur,hcur,hrest⟩
  | delete x d hd hp =>
    rw [setSession_slots,deleted_slots] at h
    exact Or.inl h
  | release x d fails hd hp =>
    left
    simp only [setSession_slots,released] at h
    split at h
    · exact h
    · exact ((Slots.releaseSlot_holds st.slots d.key key x id inst).mp h).1
  | renewed x d now slots hd hp hr =>
    exact Or.inl ((Slots.renewSlot_holds st.slots slots ttl now d.key key x id inst hr).mp h)
  | _ => exact Or.inl h

theorem moves_owns (st st' : State) (a : Step) (hm : Moves ttl st a st') (key : SlotKey)
    (id : ConnID) (h : st'.slots.Owns key id) :
    st.slots.Owns key id ∨ ∃ c,st.sessions id=some c ∧ c.phase=.accepted := by
  obtain ⟨cur,hcur,hid⟩:=h
  rcases moves_holds ttl st st' a hm key id cur.instanceID ⟨cur,hcur,hid,rfl⟩ with hold | hnew
  · exact Or.inl hold.owns
  · obtain ⟨c,-,-,hc,hp,-⟩:=hnew
    exact Or.inr ⟨c,hc,hp⟩

theorem beaten_moves (st st' : State) (a : Step) (hm : Moves ttl st a st') (id : ConnID)
    (h : st.Beaten id) : st'.Beaten id := by
  obtain ⟨c,hc,hp,howns,id',hne,hsub⟩:=h
  obtain ⟨c',hc',hkey,-,hphase⟩:=moves_session ttl st st' a hm id c hc
  refine ⟨c',hc',hphase hp,?_,id',hne,?_⟩
  · intro howns'
    rw [hkey] at howns'
    rcases moves_owns ttl st st' a hm c.key id howns' with hold | ⟨d,hd,hdp⟩
    · exact howns hold
    · rw [hc,Option.some.injEq] at hd
      exact hp (hd ▸ hdp)
  · rw [hkey]
    exact hsub.trans (moves_claims ttl st st' a hm)

/-! ### The invariant -/

structure Tracked (st : State) : Prop where
  holder : ∀ key id inst, st.slots.Holds key id inst →
    ∃ c, st.sessions id = some c ∧ c.key=key ∧ c.inst=inst ∧ c.phase≠.accepted ∧
      (key,id) ∈ st.claims
  live : ∀ id c, st.sessions id = some c → c.phase.Live → st.slots.Owns c.key id ∨ st.Beaten id
  index : ∀ inst key id, st.localIndex inst key = some id →
    ∃ c, st.sessions id = some c ∧ c.key=key ∧ c.inst=inst ∧
      (c.phase=.serving ∨ c.phase=.deregistering)
  result : ∀ id c res old, st.sessions id = some c → c.phase = .claimed res →
    res.evictedConnID = some old → st.Beaten old
  superseding : ∀ id c old, st.sessions id = some c → c.phase = .superseding old → st.Beaten old
  lost : ∀ id, st.slotLost id = true → st.Beaten id

theorem tracked_empty : Tracked empty where
  holder key id inst h := by
    obtain ⟨cur,hcur,-⟩:=h
    cases hcur
  live id c h := by cases h
  index inst key id h := by cases h
  result id c res old h := by cases h
  superseding id c old h := by cases h
  lost id h := by cases h

inductive PhaseMove : Phase → Phase → Prop
  | fail : PhaseMove .accepted .gone
  | found (res : ClaimResult) (old : ConnID) (h : res.evictedConnID = some old) :
      PhaseMove (.claimed res) (.superseding old)
  | clear (res : ClaimResult) : PhaseMove (.claimed res) .indexing
  | superseded (old : ConnID) : PhaseMove (.superseding old) .indexing
  | store : PhaseMove .indexing .serving
  | unwind : PhaseMove .serving .deregistering
  | delete : PhaseMove .deregistering .releasing
  | release : PhaseMove .releasing .gone

theorem afterLoad_phaseMove (res : ClaimResult) :
    PhaseMove (.claimed res) (st.afterLoad c res) := by
  unfold afterLoad
  split
  next old h =>
    split
    · exact .found res old h
    · exact .clear res
  next => exact .clear res

/-- Where the record of a connection after a step comes from. -/
inductive Origin (st : State) (a : Step) (st' : State) (id : ConnID) (c' : Session) : Prop
  | same (h : st.sessions id = some c')
  | fresh (h : st.sessions id = none) (hp : c'.phase=.accepted)
      (ha : ∃ key accountID inst, a = .accept id key accountID inst)
  | claim (c : Session) (now : Int) (h : st.sessions id = some c) (hp : c.phase=.accepted)
      (hst : st' = st.claimed ttl id c now)
      (hc' : c' = { c with phase := .claimed (st.slots.claimSlot ttl now c.key id c.inst).1 })
  | moved (c : Session) (p : Phase) (h : st.sessions id = some c) (hp : PhaseMove c.phase p)
      (hc' : c' = { c with phase := p })
      (hstore : p=.serving → st'.localIndex c.inst c.key = some id)

theorem moves_origin (st st' : State) (a : Step) (hm : Moves ttl st a st') (id : ConnID)
    (c' : Session) (hc' : st'.sessions id=some c') : Origin ttl st a st' id c' := by
  have step : ∀ (x : ConnID) (d : Session) (p : Phase),
      Function.update st.sessions x (some { d with phase := p }) id=some c' →
      st.sessions x=some d → PhaseMove d.phase p →
      (p=.serving → st'.localIndex d.inst d.key=some x) → Origin ttl st a st' id c' := by
    intro x d p hup hd hmove hstore
    by_cases hx : id=x
    · subst hx
      rw [Function.update_self,Option.some.injEq] at hup
      exact .moved d p hd hmove hup.symm hstore
    · rw [Function.update_of_ne hx] at hup
      exact .same hup
  cases hm with
  | accept x key accountID inst h =>
    by_cases hx : id=x
    · subst hx
      rw [setSession_sessions,Function.update_self,Option.some.injEq] at hc'
      exact .fresh h (by rw [← hc']) ⟨key,accountID,inst,rfl⟩
    · rw [setSession_sessions,Function.update_of_ne hx] at hc'
      exact .same hc'
  | claim x d now hd hp =>
    by_cases hx : id=x
    · subst hx
      simp only [claimed,Function.update_self,Option.some.injEq] at hc'
      exact .claim d now hd hp rfl hc'.symm
    · simp only [claimed,Function.update_of_ne hx] at hc'
      exact .same hc'
  | claimFails x d hd hp => exact step x d _ hc' hd (hp ▸ .fail) (by simp)
  | load x d res hd hp =>
    have hload:=afterLoad_phaseMove st d res
    refine step x d _ hc' hd (hp ▸ hload) fun hserving => ?_
    rw [hserving] at hload
    cases hload
  | supersede x old d hd hp => exact step x d _ hc' hd (hp ▸ .superseded old) (by simp)
  | store x d hd hp => exact step x d _ hc' hd (hp ▸ .store) (by simp [setIndex])
  | unwind x d hd hp => exact step x d _ hc' hd (hp ▸ .unwind) (by simp)
  | delete x d hd hp =>
    rw [setSession_sessions,deleted_sessions] at hc'
    exact step x d _ hc' hd (hp ▸ .delete) (by simp)
  | release x d fails hd hp =>
    rw [setSession_sessions,released_sessions] at hc'
    exact step x d _ hc' hd (hp ▸ .release) (by simp)
  | _ => exact .same hc'

theorem beaten_claimed (id old : ConnID) (c d : Session) (now : Int)
    (hd : st.sessions old=some d) (hp : d.phase≠.accepted) (hk : d.key=c.key)
    (hne : old≠id) (hmem : (c.key,old)∈st.claims) : (st.claimed ttl id c now).Beaten old := by
  refine ⟨d,by simp [claimed,hne,hd],hp,?_,id,hne.symm,?_⟩
  · rintro ⟨cur,hcur,hid⟩
    rw [hk,claimed_slots_self,Option.some.injEq] at hcur
    subst hcur
    exact hne hid.symm
  · rw [hk]
    exact (List.singleton_sublist.mpr hmem).append (List.Sublist.refl [(c.key,id)])

theorem moves_owns_kept (st st' : State) (a : Step) (hm : Moves ttl st a st') (id : ConnID)
    (c : Session) (hc : st.sessions id=some c) (hp : c.phase≠.accepted)
    (hclaim : (c.key,id)∈st.claims) (h : st.slots.Owns c.key id) :
    st'.slots.Owns c.key id ∨ st'.Beaten id ∨ st'.sessions id=some { c with phase := .gone } := by
  cases hm with
  | claim x d now hd hpd =>
    have hx : x≠id := by
      rintro rfl
      rw [hc,Option.some.injEq] at hd
      exact hp (hd ▸ hpd)
    by_cases hk : c.key=d.key
    · exact Or.inr (Or.inl (beaten_claimed ttl st x id d c now hc hp hk hx.symm (hk ▸ hclaim)))
    left
    obtain ⟨cur,hcur,hid⟩:=h
    exact ⟨cur,by simp [claimed,hk,hcur],hid⟩
  | delete x d hd hpd =>
    rw [setSession_slots,deleted_slots]
    exact Or.inl h
  | release x d fails hd hpd =>
    by_cases hx : x=id
    · subst hx
      rw [hc,Option.some.injEq] at hd
      subst hd
      exact Or.inr (Or.inr (by simp))
    left
    obtain ⟨cur,hcur,hid⟩:=h
    rw [setSession_slots]
    unfold released
    split
    · exact ⟨cur,hcur,hid⟩
    have hheld:=(Slots.releaseSlot_holds st.slots d.key c.key x id cur.instanceID).mpr
      ⟨⟨cur,hcur,hid,rfl⟩,fun hh => hx hh.2.symm⟩
    exact hheld.owns
  | renewed x d now slots hd hpd hr =>
    obtain ⟨cur,hcur,hid⟩:=h
    exact Or.inl ((Slots.renewSlot_holds st.slots slots ttl now d.key c.key x id
      cur.instanceID hr).mpr ⟨cur,hcur,hid,rfl⟩).owns
  | _ => exact Or.inl h

/-! ### Every step keeps the invariant -/

theorem holder_moves (st st' : State) (a : Step) (hm : Moves ttl st a st') (h : Tracked st)
    (key : SlotKey) (id : ConnID) (inst : InstanceID) (hold : st'.slots.Holds key id inst) :
    ∃ c,st'.sessions id=some c ∧ c.key=key ∧ c.inst=inst ∧ c.phase≠.accepted ∧
      (key,id)∈st'.claims := by
  rcases moves_holds ttl st st' a hm key id inst hold with hold | hnew
  · obtain ⟨c,hc,hkey,hinst,hp,hmem⟩:=h.holder key id inst hold
    obtain ⟨c',hc',hkey',hinst',hp'⟩:=moves_session ttl st st' a hm id c hc
    exact ⟨c',hc',hkey'.trans hkey,hinst'.trans hinst,hp' hp,
      (moves_claims ttl st st' a hm).subset hmem⟩
  · obtain ⟨c,now,-,hc,-,hkey,hinst,rfl⟩:=hnew
    refine ⟨_,claimed_sessions_self ttl st id c now,hkey,hinst,by simp,?_⟩
    simp [claimed,hkey]

theorem live_moves (st st' : State) (a : Step) (hm : Moves ttl st a st') (h : Tracked st)
    (id : ConnID) (c' : Session) (hc' : st'.sessions id=some c') (hl : c'.phase.Live) :
    st'.slots.Owns c'.key id ∨ st'.Beaten id := by
  have kept : ∀ c,st.sessions id=some c → c.phase.Live → c'.key=c.key →
      st'.slots.Owns c'.key id ∨ st'.Beaten id := by
    intro c hc hlive hkey
    rcases h.live id c hc hlive with howns | hbeaten
    · obtain ⟨cur,hcur,hid⟩:=howns
      obtain ⟨d,hd,hdk,-,hdp,hmem⟩:=h.holder c.key id cur.instanceID ⟨cur,hcur,hid,rfl⟩
      rw [hc,Option.some.injEq] at hd
      subst hd
      rcases moves_owns_kept ttl st st' a hm id c hc hdp hmem ⟨cur,hcur,hid⟩ with
        hkept | hbeaten | hgone
      · exact Or.inl (hkey ▸ hkept)
      · exact Or.inr hbeaten
      rw [hc',Option.some.injEq] at hgone
      rw [hgone] at hl
      exact hl.elim
    · exact Or.inr (beaten_moves ttl st st' a hm id hbeaten)
  cases moves_origin ttl st st' a hm id c' hc' with
  | same hc => exact kept c' hc hl rfl
  | fresh hc hp _ =>
    rw [hp] at hl
    exact hl.elim
  | claim c now hc hp hst hcc =>
    subst hst hcc
    exact Or.inl ⟨_,claimed_slots_self ttl st id c now,rfl⟩
  | moved c p hc hp hcc hstore =>
    subst hcc
    refine kept c hc ?_ rfl
    cases hp' : c.phase <;> rw [hp'] at hp <;> cases hp <;> trivial

theorem index_moves (st st' : State) (a : Step) (hm : Moves ttl st a st') (h : Tracked st)
    (inst : InstanceID) (key : SlotKey) (id : ConnID) (hi : st'.localIndex inst key=some id) :
    ∃ c,st'.sessions id=some c ∧ c.key=key ∧ c.inst=inst ∧
      (c.phase=.serving ∨ c.phase=.deregistering) := by
  -- an entry that was there, when connection `x` moves to phase `p`
  have kept : ∀ (x : ConnID) (d : Session) (p : Phase), st.localIndex inst key=some id →
      st.sessions x=some d →
      (id=x → d.phase=.serving ∨ d.phase=.deregistering → p=.deregistering) →
      ∃ c,Function.update st.sessions x (some { d with phase := p }) id=some c ∧ c.key=key ∧
        c.inst=inst ∧ (c.phase=.serving ∨ c.phase=.deregistering) := by
    intro x d p hold hd hmove
    obtain ⟨c,hc,hkey,hinst,hphase⟩:=h.index inst key id hold
    by_cases hx : id=x
    · subst hx
      rw [hd,Option.some.injEq] at hc
      subst hc
      exact ⟨_,Function.update_self ..,hkey,hinst,Or.inr (hmove rfl hphase)⟩
    · exact ⟨c,by simp [hx,hc],hkey,hinst,hphase⟩
  cases hm with
  | accept x k accountID i hnone =>
    obtain ⟨c,hc,hrest⟩:=h.index inst key id hi
    have hx : id≠x := by
      rintro rfl
      rw [hnone] at hc
      cases hc
    exact ⟨c,by simp [hx,hc],hrest⟩
  | claim x d now hd hp => exact kept x d _ hi hd (by simp [hp])
  | claimFails x d hd hp => exact kept x d _ hi hd (by simp [hp])
  | load x d res hd hp => exact kept x d _ hi hd (by simp [hp])
  | supersede x old d hd hp => exact kept x d _ hi hd (by simp [hp])
  | unwind x d hd hp => exact kept x d _ hi hd (by simp)
  | store x d hd hp =>
    by_cases hat : inst=d.inst ∧ key=d.key
    · obtain ⟨rfl,rfl⟩:=hat
      simp only [setSession_localIndex,setIndex,Function.update_self,Option.some.injEq] at hi
      subst hi
      exact ⟨_,Function.update_self ..,rfl,rfl,Or.inl rfl⟩
    · rw [setSession_localIndex,setIndex_of_ne st d.inst inst d.key key _ hat] at hi
      exact kept x d _ hi hd (by simp [hp])
  | delete x d hd hp =>
    rw [setSession_sessions,deleted_sessions]
    rw [setSession_localIndex] at hi
    have hold:=deleted_localIndex st x d inst key id hi
    refine kept x d _ hold.1 hd ?_
    rintro rfl -
    obtain ⟨c,hc,hkey,hinst,-⟩:=h.index inst key id hold.1
    rw [hd,Option.some.injEq] at hc
    subst hc
    exact absurd ⟨rfl,hinst,hkey⟩ hold.2
  | release x d fails hd hp =>
    rw [setSession_sessions,released_sessions]
    rw [setSession_localIndex,released_localIndex] at hi
    exact kept x d _ hi hd (by simp [hp])
  | _ => exact h.index inst key id hi

theorem result_moves (st st' : State) (a : Step) (hm : Moves ttl st a st') (h : Tracked st)
    (id : ConnID) (c' : Session) (res : ClaimResult) (old : ConnID) (hc' : st'.sessions id=some c')
    (hp' : c'.phase = .claimed res) (hold : res.evictedConnID=some old) : st'.Beaten old := by
  cases moves_origin ttl st st' a hm id c' hc' with
  | same hc => exact beaten_moves ttl st st' a hm old (h.result id c' res old hc hp' hold)
  | fresh hc hp _ =>
    rw [hp'] at hp
    cases hp
  | claim c now hc hp hst hcc =>
    -- the displaced holder: the claim that names it is the one that beats it
    subst hst hcc
    simp only [Phase.claimed.injEq] at hp'
    subst hp'
    obtain ⟨howns,hne⟩:=Slots.claimSlot_evicted st.slots ttl now c.key id old c.inst hold
    obtain ⟨cur,hcur,hid⟩:=howns
    obtain ⟨d,hd,hdk,-,hdp,hmem⟩:=h.holder c.key old cur.instanceID ⟨cur,hcur,hid,rfl⟩
    exact beaten_claimed ttl st id old c d now hd hdp hdk hne hmem
  | moved c p hc hp hcc hstore =>
    subst hcc
    simp only at hp'
    subst hp'
    generalize c.phase=q at hp
    cases hp

theorem superseding_moves (st st' : State) (a : Step) (hm : Moves ttl st a st') (h : Tracked st)
    (id : ConnID) (c' : Session) (old : ConnID) (hc' : st'.sessions id=some c')
    (hp' : c'.phase = .superseding old) : st'.Beaten old := by
  apply beaten_moves ttl st st' a hm old
  cases moves_origin ttl st st' a hm id c' hc' with
  | same hc => exact h.superseding id c' old hc hp'
  | fresh hc hp _ =>
    rw [hp'] at hp
    cases hp
  | claim c now hc hp hst hcc =>
    subst hcc
    cases hp'
  | moved c p hc hp hcc hstore =>
    subst hcc
    simp only at hp'
    subst hp'
    generalize hq : c.phase=q at hp
    cases hp with
    | found res _ hres => exact h.result id c res old hc hq hres

theorem lost_moves (st st' : State) (a : Step) (hm : Moves ttl st a st') (h : Tracked st)
    (id : ConnID) (hl : st'.slotLost id=true) : st'.Beaten id := by
  apply beaten_moves ttl st st' a hm id
  cases hm with
  | lost x d now hd hp hr =>
    by_cases hx : id=x
    · subst hx
      have hlive : d.phase.Live := by
        rw [hp]
        trivial
      exact (h.live id d hd hlive).resolve_left hr
    · simp only [Function.update_of_ne hx] at hl
      exact h.lost id hl
  | delete x d hd hp =>
    rw [setSession_slotLost,deleted_slotLost] at hl
    exact h.lost id hl
  | release x d fails hd hp =>
    rw [setSession_slotLost,released_slotLost] at hl
    exact h.lost id hl
  | _ => exact h.lost id hl

theorem tracked_moves (st st' : State) (a : Step) (hm : Moves ttl st a st') (h : Tracked st) :
    Tracked st' where
  holder := holder_moves ttl st st' a hm h
  live := live_moves ttl st st' a hm h
  index := index_moves ttl st st' a hm h
  result := result_moves ttl st st' a hm h
  superseding := superseding_moves ttl st st' a hm h
  lost := lost_moves ttl st st' a hm h

theorem tracked_next (a : Step) (h : Tracked st) : Tracked (st.next ttl a) :=
  tracked_moves ttl st (st.next ttl a) a (next_moves ttl st a) h

theorem sessions_run_none (as : List Step) (st : State) (id : ConnID) (hnone : st.sessions id=none)
    (has : ∀ key accountID inst,Step.accept id key accountID inst∉as) :
    (Machine.run (next ttl) st as).sessions id=none := by
  induction as generalizing st with
  | nil => exact hnone
  | cons a as ih =>
    refine ih (st.next ttl a) ?_ fun key accountID inst h =>
      has key accountID inst (List.mem_cons_of_mem a h)
    by_contra hsome
    obtain ⟨c',hc'⟩:=Option.ne_none_iff_exists'.mp hsome
    cases moves_origin ttl st _ a (next_moves ttl st a) id c' hc' with
    | fresh _ _ ha =>
      obtain ⟨key,accountID,inst,rfl⟩:=ha
      exact has key accountID inst List.mem_cons_self
    | same h => simp [hnone] at h
    | claim c now h => simp [hnone] at h
    | moved c p h => simp [hnone] at h

theorem Tracked.session_of_holds {st : State} (h : Tracked st) {key : SlotKey} {id : ConnID}
    {inst : InstanceID} (hold : st.slots.Holds key id inst) {c : Session}
    (hc : st.sessions id=some c) : c.key=key ∧ c.inst=inst := by
  obtain ⟨d,hd,hkey,hinst,-⟩:=h.holder key id inst hold
  rw [hc,Option.some.injEq] at hd
  exact ⟨hd ▸ hkey,hd ▸ hinst⟩

end State
end SecureGateway.Relay
