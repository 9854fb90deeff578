import SecureGateway.Relay.Ownership

/-!
# The local index reaches the slot's holder

`Route`, `deliverLocal` and `revoke` find a session through the `local` map. The map and the
slot are written in two steps of `Register`, so two registrations can write them in opposite
orders (`crossed_registrations`). Where a connection never stores over a holder that has
stored, the holder is always found.
-/

namespace SecureGateway.Relay
namespace State
variable (ttl : Int)

def beforeStore : Phase → Bool
  | .claimed _ | .superseding _ | .indexing => true
  | _ => false

/-- At a `Store`, the slot's holder on this instance is the storing connection itself
or has its own `Store` still before it. -/
def storesInOrder (st : State) : Step → Bool
  | .store id =>
    match st.sessions id with
    | some c =>
      match st.slots c.key with
      | some cur =>
        cur.connID == id || cur.instanceID != c.inst ||
          match st.sessions cur.connID with
          | some d => beforeStore d.phase
          | none => true
      | none => true
    | none => true
  | _ => true

def Quiet (st : State) : Prop :=
  ∀ id c, st.sessions id = some c → c.phase.InProgress=false

structure Indexed (st : State) : Prop where
  tracked : Tracked st
  found : ∀ id c, st.sessions id = some c → c.phase=.serving → st.slots.Owns c.key id →
    st.localIndex c.inst c.key = some id

theorem storesInOrder_store (st : State) (x id : ConnID) (d c : Session)
    (hok : storesInOrder st (.store x)=true) (hd : st.sessions x=some d)
    (hc : st.sessions id=some c) (hp : c.phase=.serving) (hk : c.key=d.key)
    (h : st.slots.Holds c.key id d.inst) : id=x := by
  obtain ⟨cur,hcur,hid,hinst⟩:=h
  rw [hk] at hcur
  simp only [storesInOrder,hd,hcur,hid,hc,hp,beforeStore,hinst,bne_self_eq_false,
    Bool.or_false,beq_iff_eq] at hok
  exact hok

theorem found_moves (st st' : State) (a : Step) (hm : Moves ttl st a st') (h : Indexed st)
    (hok : storesInOrder st a=true) (id : ConnID) (c : Session)
    (hc : st.sessions id=some c) (hp : c.phase=.serving) (howns : st.slots.Owns c.key id)
    (hc' : st'.sessions id=some c) : st'.localIndex c.inst c.key=some id := by
  have hold:=h.found id c hc hp howns
  cases hm with
  | store x d hd hpd =>
    by_cases hat : c.inst=d.inst ∧ c.key=d.key
    · obtain ⟨cur,hcur,hid⟩:=howns
      have hholds : st.slots.Holds c.key id cur.instanceID := ⟨cur,hcur,hid,rfl⟩
      have hinst:=(h.tracked.session_of_holds hholds hc).2
      have hx:=storesInOrder_store st x id d c hok hd hc hp hat.2
        (by rwa [← hinst,hat.1] at hholds)
      subst hx
      simp [setIndex,← hat.1,← hat.2]
    · rw [setSession_localIndex,setIndex_of_ne st d.inst c.inst d.key c.key _ hat]
      exact hold
  | delete x d hd hpd =>
    have hx : x≠id := by
      rintro rfl
      rw [setSession_sessions,Function.update_self,Option.some.injEq] at hc'
      rw [← hc'] at hp
      cases hp
    rw [setSession_localIndex]
    unfold deleted
    split
    next hhit =>
      have hat : ¬ (c.inst=d.inst ∧ c.key=d.key) := by
        rintro ⟨hi,hk⟩
        rw [← hi,← hk,hold,Option.some.injEq] at hhit
        exact hx hhit.symm
      rw [setIndex_of_ne st d.inst c.inst d.key c.key _ hat]
      exact hold
    next => exact hold
  | release x d fails hd hpd =>
    rw [setSession_localIndex,released_localIndex]
    exact hold
  | _ => exact hold

theorem indexed_next (st : State) (a : Step) (h : Indexed st)
    (hok : storesInOrder st a=true) : Indexed (st.next ttl a) := by
  have hm:=next_moves ttl st a
  refine ⟨tracked_next ttl st a h.tracked,?_⟩
  intro id c' hc' hp' howns'
  cases moves_origin ttl st _ a hm id c' hc' with
  | same hc =>
    rcases moves_owns ttl st _ a hm c'.key id howns' with howns | ⟨d,hd,hdp⟩
    · exact found_moves ttl st _ a hm h hok id c' hc hp' howns hc'
    rw [hc,Option.some.injEq] at hd
    rw [← hd,hp'] at hdp
    cases hdp
  | fresh hc hp _ =>
    rw [hp'] at hp
    cases hp
  | claim c now hc hp hst hcc =>
    subst hcc
    cases hp'
  | moved c p hc hp hcc hstore =>
    subst hcc
    exact hstore hp'

theorem indexed_run (as : List Step)
    (hg : Machine.Guarded (next ttl) (fun st a => storesInOrder st a=true) empty as) :
    Indexed (Machine.run (next ttl) empty as) :=
  Machine.guarded_invariant (next ttl) _ Indexed (fun st a h hok => indexed_next ttl st a h hok)
    empty as ⟨tracked_empty,fun _ _ h => by cases h⟩ hg

theorem revoke_closes (st : State) (id : ConnID) (c : Session) (ev : RevocationEvent)
    (hc : st.sessions id=some c) (hi : st.localIndex c.inst c.key=some id)
    (hopen : st.closed id=none) (hev : ev.hits c=true) :
    (st.revoke c.inst ev).closed id=some .revoked := by
  simp [revoke,hc,hi,hev,hopen]

/-- Index completeness: in every run whose stores are in order, a serving session
that holds its slot is the entry of the local map, and every revocation in its
scope closes it. -/
theorem owner_is_indexed (as : List Step)
    (hg : Machine.Guarded (next ttl) (fun st a => storesInOrder st a = true) empty as)
    (id : ConnID) (c : Session)
    (hc : (Machine.run (next ttl) empty as).sessions id = some c) (hp : c.phase=.serving)
    (hopen : (Machine.run (next ttl) empty as).closed id = none)
    (howns : (Machine.run (next ttl) empty as).slots.Owns c.key id) :
    (Machine.run (next ttl) empty as).localIndex c.inst c.key = some id ∧
      ∀ ev : RevocationEvent, ev.hits c = true →
        ((Machine.run (next ttl) empty as).revoke c.inst ev).closed id = some .revoked := by
  have hfound := (indexed_run ttl as hg).found id c hc hp howns
  exact ⟨hfound,fun ev hev => revoke_closes _ id c ev hc hfound hopen hev⟩

/-! ### Two registrations that cross -/

def orderlyReconnect : List Step :=
  [.accept "s1" phoneSlot "acct" "relay-1",.claimSlot "s1" 0,.loadDisplaced "s1",.store "s1",
    .accept "s2" phoneSlot "acct" "relay-1",.claimSlot "s2" 1,.loadDisplaced "s2",
    .supersede "s2",.store "s2"]

theorem owner_is_indexed_orderlyReconnect :
    (Machine.run (next 60) empty orderlyReconnect).localIndex "relay-1" phoneSlot = some "s2" :=
  (owner_is_indexed 60 orderlyReconnect (by decide +kernel) "s2"
    ⟨phoneSlot,"acct","relay-1",.serving⟩ rfl rfl rfl ⟨⟨"s2","relay-1",61⟩,rfl,rfl⟩).1

/- "s1" claims first and stores last; "s2" has found nothing to close. -/
def crossedRegistrations : List Step :=
  [.accept "s1" phoneSlot "acct" "relay-1",.accept "s2" phoneSlot "acct" "relay-1",
    .claimSlot "s1" 0,.claimSlot "s2" 1,.loadDisplaced "s2",.store "s2",
    .loadDisplaced "s1",.store "s1"]

theorem crossed_registrations :
    let st := Machine.run (next 60) empty crossedRegistrations
    Quiet st ∧ st.sessions "s2" = some ⟨phoneSlot,"acct","relay-1",.serving⟩ ∧
      st.closed "s2" = none ∧ st.slots.Owns phoneSlot "s2" ∧
      ¬ st.localIndex "relay-1" phoneSlot = some "s2" := by
  refine ⟨?_,rfl,rfl,⟨⟨"s2","relay-1",61⟩,rfl,rfl⟩,by decide +kernel⟩
  intro id c hc
  by_cases h1 : id = "s1"
  · subst h1
    cases hc
    rfl
  by_cases h2 : id = "s2"
  · subst h2
    cases hc
    rfl
  · rw [sessions_run_none 60 crossedRegistrations empty id rfl
      (by simp [crossedRegistrations,h1,h2])] at hc
    cases hc

end State
end SecureGateway.Relay
