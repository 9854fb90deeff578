import SecureGateway.Relay.Ownership

/-!
# Newest wins across instances

An eviction notice names the slot but not the displaced connection, so a late one closes a
client that has come back (`late_notice_closes_holder`). Where no slot is claimed on an
instance while a notice for it is under way to that instance, only displaced sessions are
closed.
-/

namespace SecureGateway.Relay
namespace State
variable (ttl : Int)

/-- No claim overtakes an eviction notice for the same slot and instance. -/
def noticesSettled (st : State) : Step → Bool
  | .claimSlot id _ =>
    match st.sessions id with
    | some c => !st.notices.contains (c.inst,c.key)
    | none => true
  | _ => true

structure NewestWins (st : State) : Prop where
  tracked : Tracked st
  notices : ∀ inst key, (inst,key) ∈ st.notices →
    ∀ id inst', st.slots.Holds key id inst' → inst'≠inst
  evicting : ∀ inst id, st.evicting inst = some id → st.Beaten id
  closed : ∀ id, st.closed id = some .superseded → st.Beaten id

theorem newestWins_empty : NewestWins empty where
  tracked := tracked_empty
  notices inst key h := by cases h
  evicting inst id h := by cases h
  closed id h := by cases h

variable (st st' : State)

theorem moves_notices (a : Step) (hm : Moves ttl st a st') (inst : InstanceID) (key : SlotKey)
    (h : (inst,key)∈st'.notices) :
    (inst,key)∈st.notices ∨
      ∃ id c now,st'=st.claimed ttl id c now ∧ c.key=key ∧ c.inst≠inst := by
  cases hm with
  | claim x d now hd hp =>
    simp only [claimed,List.mem_append,Option.mem_toList,Option.map_eq_some_iff] at h
    rcases h with hold | ⟨i,hi,heq⟩
    · exact Or.inl hold
    rw [Prod.mk.injEq] at heq
    obtain ⟨rfl,rfl⟩:=heq
    exact Or.inr ⟨x,d,now,rfl,rfl,
      (Slots.claimSlot_notice st.slots ttl now d.key x d.inst i hi).symm⟩
  | delete x d hd hp =>
    simp only [setSession,deleted] at h
    split at h <;> exact Or.inl h
  | release x d fails hd hp =>
    simp only [setSession,released] at h
    split at h <;> exact Or.inl h
  | evictLoad n i k hn => exact Or.inl (List.mem_of_mem_eraseIdx h)
  | dropNotice n => exact Or.inl (List.mem_of_mem_eraseIdx h)
  | _ => exact Or.inl h

theorem notices_moves (a : Step) (hm : Moves ttl st a st') (h : NewestWins st)
    (hok : noticesSettled st a=true) (inst : InstanceID) (key : SlotKey)
    (hn : (inst,key)∈st'.notices) (id : ConnID) (inst' : InstanceID)
    (hold : st'.slots.Holds key id inst') : inst'≠inst := by
  rcases moves_holds ttl st st' a hm key id inst' hold with hold' | hnew
  · rcases moves_notices ttl st st' a hm inst key hn with hn' | ⟨x,d,now,hst,hk,hne⟩
    · exact h.notices inst key hn' id inst' hold'
    -- the sender of the notice holds the slot now
    subst hst
    have hself : (st.claimed ttl x d now).slots.Holds key x d.inst :=
      ⟨_,hk ▸ claimed_slots_self ttl st x d now,rfl,rfl⟩
    obtain ⟨cur,hcur,-,hinst⟩:=hold
    obtain ⟨cur',hcur',-,hinst'⟩:=hself
    rw [hcur,Option.some.injEq] at hcur'
    rw [← hinst,hcur',hinst']
    exact hne
  · obtain ⟨c,now,rfl,hc,hp,hk,hi,hst⟩:=hnew
    rcases moves_notices ttl st st' _ hm inst key hn with hn' | ⟨x,d,now',hst',hk',hne⟩
    · rintro rfl
      simp only [noticesSettled,hc,hk,hi,Bool.not_eq_true',List.contains_eq_mem,
        decide_eq_false_iff_not] at hok
      exact hok hn'
    · rw [hst'] at hold
      obtain ⟨cur,hcur,-,hinst⟩:=hold
      rw [← hk',claimed_slots_self,Option.some.injEq] at hcur
      rw [← hinst,← hcur]
      exact hne

theorem evictLoad_beaten (st : State) (h : NewestWins st) (inst : InstanceID) (key : SlotKey)
    (hn : (inst,key)∈st.notices) (id : ConnID) (hi : st.localIndex inst key=some id) :
    st.Beaten id := by
  obtain ⟨c,hc,hkey,hinst,hp⟩:=h.tracked.index inst key id hi
  have hlive : c.phase.Live := by rcases hp with hp | hp <;> rw [hp] <;> trivial
  rcases h.tracked.live id c hc hlive with ⟨cur,hcur,hid⟩ | hbeaten
  · have hholds : st.slots.Holds key id cur.instanceID := ⟨cur,hkey ▸ hcur,hid,rfl⟩
    have hsame:=(h.tracked.session_of_holds hholds hc).2
    exact absurd (hsame.symm.trans hinst) (h.notices inst key hn id cur.instanceID hholds)
  · exact hbeaten

theorem evicting_moves (a : Step) (hm : Moves ttl st a st') (h : NewestWins st)
    (inst : InstanceID) (id : ConnID) (he : st'.evicting inst=some id) : st'.Beaten id := by
  apply beaten_moves ttl st st' a hm id
  cases hm with
  | evictLoad n i k hn =>
    by_cases hi : inst=i
    · subst hi
      simp only [evictLoad,Function.update_self] at he
      exact evictLoad_beaten st h inst k (List.mem_of_getElem? hn) id he
    · simp only [evictLoad,Function.update_of_ne hi] at he
      exact h.evicting inst id he
  | evictClose i x hx =>
    by_cases hi : inst=i
    · subst hi
      simp at he
    · simp only [Function.update_of_ne hi] at he
      exact h.evicting inst id he
  | delete x d hd hp =>
    simp only [setSession,deleted] at he
    split at he <;> exact h.evicting inst id he
  | release x d fails hd hp =>
    simp only [setSession,released] at he
    split at he <;> exact h.evicting inst id he
  | _ => exact h.evicting inst id he

theorem closeWith_superseded (st : State) (x id : ConnID) (code : CloseCode)
    (h : (st.closeWith x code).closed id=some .superseded) :
    st.closed id=some .superseded ∨ (id=x ∧ code=.superseded) := by
  by_cases hx : id=x
  · subst hx
    simp only [closeWith,Function.update_self,Option.some.injEq] at h
    cases hcl : st.closed id with
    | none => exact Or.inr ⟨rfl,by simpa [hcl] using h⟩
    | some old =>
      left
      simpa [hcl] using h
  · simp only [closeWith,Function.update_of_ne hx] at h
    exact Or.inl h

theorem closed_moves (a : Step) (hm : Moves ttl st a st') (h : NewestWins st) (id : ConnID)
    (hcl : st'.closed id=some .superseded) : st'.Beaten id := by
  apply beaten_moves ttl st st' a hm id
  cases hm with
  | supersede x old d hd hp =>
    rcases closeWith_superseded st old id _ hcl with hold | ⟨rfl,-⟩
    · exact h.closed id hold
    · exact h.tracked.superseding x d id hd hp
  | closeLost x d hd hl =>
    rcases closeWith_superseded st x id _ hcl with hold | ⟨rfl,-⟩
    · exact h.closed id hold
    · exact h.tracked.lost id hl
  | close x code hcode =>
    rcases closeWith_superseded st x id _ hcl with hold | ⟨-,hsup⟩
    · exact h.closed id hold
    · exact absurd hsup hcode
  | evictClose inst x hx =>
    rcases closeWith_superseded st x id _ hcl with hold | ⟨rfl,-⟩
    · exact h.closed id hold
    · exact h.evicting inst id hx
  | revoke inst ev =>
    refine h.closed id ?_
    simp only [revoke] at hcl
    split at hcl
    next c hc =>
      split at hcl
      next =>
        cases hold : st.closed id with
        | none => simp [hold] at hcl
        | some code => simpa [hold] using hcl
      next => exact hcl
    next => exact hcl
  | delete x d hd hp =>
    simp only [setSession,deleted] at hcl
    split at hcl <;> exact h.closed id hcl
  | release x d fails hd hp =>
    simp only [setSession,released] at hcl
    split at hcl <;> exact h.closed id hcl
  | _ => exact h.closed id hcl

theorem newestWins_next (st : State) (a : Step) (h : NewestWins st)
    (hok : noticesSettled st a=true) : NewestWins (st.next ttl a) := by
  have hm:=next_moves ttl st a
  exact
    { tracked := tracked_next ttl st a h.tracked
      notices := notices_moves ttl st _ a hm h hok
      evicting := evicting_moves ttl st _ a hm h
      closed := closed_moves ttl st _ a hm h }

/-- Newest wins: in every run in which no claim overtakes an eviction notice for its
slot and instance, a session closed with 4001 does not hold its slot, and another
connection has claimed the slot after it. -/
theorem superseded_was_displaced (as : List Step)
    (hg : Machine.Guarded (next ttl) (fun st a => noticesSettled st a = true) empty as)
    (id : ConnID) (hcl : (Machine.run (next ttl) empty as).closed id = some .superseded) :
    ∃ c, (Machine.run (next ttl) empty as).sessions id = some c ∧
      ¬ (Machine.run (next ttl) empty as).slots.Owns c.key id ∧
      Displaced (Machine.run (next ttl) empty as).claims c.key id := by
  have hinv : NewestWins (Machine.run (next ttl) empty as) :=
    Machine.guarded_invariant (next ttl) _ NewestWins
      (fun st a h hok => newestWins_next ttl st a h hok) empty as newestWins_empty hg
  obtain ⟨c,hc,-,howns,hdisp⟩ := hinv.closed id hcl
  exact ⟨c,hc,howns,hdisp⟩

/-! ### A late notice -/

def promptNotice : List Step :=
  [.accept "s1" desktopSlot "acct" "relay-1",.claimSlot "s1" 0,.loadDisplaced "s1",.store "s1",
    .accept "s2" desktopSlot "acct" "relay-2",.claimSlot "s2" 1,.loadDisplaced "s2",.store "s2",
    .evictLoad 0,.evictClose "relay-1"]

theorem superseded_was_displaced_promptNotice :
    ∃ c, (Machine.run (next 60) empty promptNotice).sessions "s1" = some c ∧
      ¬ (Machine.run (next 60) empty promptNotice).slots.Owns c.key "s1" ∧
      Displaced (Machine.run (next 60) empty promptNotice).claims c.key "s1" :=
  superseded_was_displaced 60 promptNotice (by decide +kernel) "s1" (by decide +kernel)

/- Before the notice arrives, the client is back on relay-1 as "s3". -/
def lateNotice : List Step :=
  promptNotice.take 8 ++
    [.accept "s3" desktopSlot "acct" "relay-1",.claimSlot "s3" 2,.loadDisplaced "s3",.store "s3",
      .evictLoad 0,.evictClose "relay-1"]

theorem late_notice_closes_holder :
    let st := Machine.run (next 60) empty lateNotice
    st.slots.Owns desktopSlot "s3" ∧ st.closed "s3" = some .superseded := by
  decide +kernel

end State
end SecureGateway.Relay
