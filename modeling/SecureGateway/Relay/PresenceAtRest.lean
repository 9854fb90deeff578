import SecureGateway.Relay.Presence

/-!
# Presence is truthful at rest

`truthful_at_rest` says when the last notice a session got is still true once all calls have
returned. The invariant `Announced` is that every session in the index has been told the
truth, or some call is on its way to tell it (`Corrects`), and none with anything else
(`Sound`).
-/

namespace SecureGateway.Relay
namespace Presence
variable (ttl : Int) {key : SlotKey} {id : ConnID} {idx : SlotKey → Option ConnID}

/-! ### What a call and a session are owed -/

def registered : Phase → Bool
  | .serving | .deregistering | .releasing | .gone => true
  | _ => false

def Registered (st : State) (id : ConnID) (key : SlotKey) : Prop :=
  ∃ c, st.sessions id = some c ∧ c.key=key ∧ registered c.phase = true

theorem registered_phaseMove {q q' : Phase} (hmove : State.PhaseMove q q')
    (h : registered q=true) : registered q'=true := by
  cases hmove with
  | unwind => rfl
  | delete => rfl
  | release => rfl
  | _ => cases h

theorem registered_moves (st st' : State) (a : Relay.Step) (hm : State.Moves ttl st a st')
    (id : ConnID) (key : SlotKey) (h : Registered st id key) : Registered st' id key := by
  obtain ⟨c,hc,hkey,hphase⟩:=h
  obtain ⟨c',hc',hkey',-,-⟩:=State.moves_session ttl st st' a hm id c hc
  refine ⟨c',hc',hkey'.trans hkey,?_⟩
  cases State.moves_origin ttl st st' a hm id c' hc' with
  | same hc₀ =>
    rw [hc,Option.some.injEq] at hc₀
    exact hc₀ ▸ hphase
  | fresh hnone _ _ =>
    rw [hc] at hnone
    cases hnone
  | claim d now hd hp _ hd' =>
    rw [hc,Option.some.injEq] at hd
    rw [hd,hp] at hphase
    cases hphase
  | moved d p hd hmove hd' _ =>
    rw [hc,Option.some.injEq] at hd
    rw [hd] at hphase
    subst hd'
    exact registered_phaseMove hmove hphase

/-- What a call relies on: while it announces, its slot is indexed; while it takes leave,
its slot is empty; the session it has loaded is one of the peer's slot. -/
def Sound (inst : InstanceID) (st : State) (t : Talk) : Prop :=
  t.inst = inst ∧ Registered st t.id t.key ∧
    match t.stage with
    | .loadPeer => st.localIndex inst t.key ≠ none
    | .tellSelf peer =>
      st.localIndex inst t.key ≠ none ∧ st.localIndex inst t.key.peer ≠ none ∧
        Registered st peer t.key.peer
    | .tellPeer peer => st.localIndex inst t.key ≠ none ∧ Registered st peer t.key.peer
    | .lookUp => True
    | .tellSelfRemote => False
    | .release | .loadLeft => st.localIndex inst t.key = none
    | .tellLeft peer => st.localIndex inst t.key = none ∧ Registered st peer t.key.peer

/-- The call is going to tell session `id` of slot `key` what is true now. -/
def Corrects (idx : SlotKey → Option ConnID) (key : SlotKey) (id : ConnID) (t : Talk) : Prop :=
  if (idx key.peer).isSome then
    (t.key=key.peer ∧ (t.stage=.loadPeer ∨ t.stage = .tellSelf id ∨ t.stage = .tellPeer id)) ∨
      (t.id=id ∧ (t.stage=.loadPeer ∨ ∃ peer, t.stage = .tellSelf peer))
  else t.key = key.peer ∧ (t.stage=.release ∨ t.stage=.loadLeft ∨ t.stage = .tellLeft id)

def Truthful (p : Presence) (idx : SlotKey → Option ConnID) (key : SlotKey) (id : ConnID) : Prop :=
  ∀ n, (p.sent id).head? = some n → n = truth idx key ∨ ∃ t ∈ p.talks, Corrects idx key id t

structure Announced (inst : InstanceID) (p : Presence) : Prop where
  tracked : State.Tracked p.hub
  home : ∀ id c, p.hub.sessions id = some c → c.inst=inst
  heard : ∀ id, p.sent id ≠ [] → ∃ key, Registered p.hub id key
  sound : ∀ t ∈ p.talks, Sound inst p.hub t
  truthful : ∀ key id, p.hub.localIndex inst key = some id →
    Truthful p (p.hub.localIndex inst) key id

theorem announced_empty (inst : InstanceID) : Announced inst empty where
  tracked := State.tracked_empty
  home id c h := by cases h
  heard id h := absurd rfl h
  sound t h := by cases h
  truthful key id h := by cases h

variable {inst : InstanceID} {p : Presence}

theorem Announced.key_of_index (h : Announced inst p) {key' : SlotKey}
    (hidx : p.hub.localIndex inst key=some id) (hreg : Registered p.hub id key') : key'=key := by
  obtain ⟨c,hc,hkey,-⟩:=h.tracked.index inst key id hidx
  obtain ⟨c',hc',hkey',-⟩:=hreg
  rw [hc,Option.some.injEq] at hc'
  rw [← hkey,← hkey',hc']

theorem Announced.registered_of_index (h : Announced inst p)
    (hidx : p.hub.localIndex inst key=some id) : Registered p.hub id key := by
  obtain ⟨c,hc,hkey,-,hphase⟩:=h.tracked.index inst key id hidx
  refine ⟨c,hc,hkey,?_⟩
  cases hphase with
  | inl hs => rw [hs]; rfl
  | inr hd => rw [hd]; rfl

/-! ### Steps of the hub -/

theorem sound_of_index {st st' : State} {t : Talk} (h : Sound inst st t)
    (hreg : ∀ id key,Registered st id key → Registered st' id key)
    (hown : t.stage.announcing=true → st.localIndex inst t.key≠none →
      st'.localIndex inst t.key≠none)
    (hpeer : t.stage.tellsSelf=true → st.localIndex inst t.key.peer≠none →
      st'.localIndex inst t.key.peer≠none)
    (hfree : t.stage.leaving=true → st.localIndex inst t.key=none →
      st'.localIndex inst t.key=none) : Sound inst st' t := by
  obtain ⟨hinst,hself,hstage⟩:=h
  refine ⟨hinst,hreg _ _ hself,?_⟩
  cases hs : t.stage <;> simp only [hs] at hstage hown hpeer hfree ⊢
  case loadPeer => exact hown rfl hstage
  case tellSelf peer => exact ⟨hown rfl hstage.1,hpeer rfl hstage.2.1,hreg _ _ hstage.2.2⟩
  case tellPeer peer => exact ⟨hown rfl hstage.1,hreg _ _ hstage.2⟩
  case release => exact hfree rfl hstage
  case loadLeft => exact hfree rfl hstage
  case tellLeft peer => exact ⟨hfree rfl hstage.1,hreg _ _ hstage.2⟩

theorem home_moves {st st' : State} {a : Relay.Step} (hm : State.Moves ttl st a st')
    (hone : ∀ id key accountID i,a = .accept id key accountID i → i=inst)
    (h : ∀ id c,st.sessions id=some c → c.inst=inst) (id : ConnID) (c : Session)
    (hc : st'.sessions id=some c) : c.inst=inst := by
  cases State.moves_origin ttl st st' a hm id c hc with
  | same hc₀ => exact h id c hc₀
  | fresh hnone hphase ha =>
    obtain ⟨key,accountID,i,rfl⟩:=ha
    cases hm with
    | idle => rw [hnone] at hc; cases hc
    | accept x key accountID i hx =>
      rw [State.setSession_sessions,Function.update_self,Option.some.injEq] at hc
      rw [← hc]
      exact hone id key accountID i rfl
  | claim d now hd _ _ hd' => exact hd' ▸ h id d hd
  | moved d q hd _ hd' _ => exact hd' ▸ h id d hd

theorem announced_hub (h : Announced inst p) {a : Relay.Step} {st' : State}
    (hm : State.Moves ttl p.hub a st')
    (hone : ∀ id key accountID i,a = .accept id key accountID i → i=inst)
    (hidx : st'.localIndex=p.hub.localIndex) (cancelled : ConnID → Bool) :
    Announced inst { p with hub := st', cancelled } where
  tracked := State.tracked_moves ttl p.hub st' a hm h.tracked
  home := home_moves ttl hm hone h.home
  heard id hsent := by
    obtain ⟨key,hreg⟩:=h.heard id hsent
    exact ⟨key,registered_moves ttl p.hub st' a hm id key hreg⟩
  sound t ht := by
    apply sound_of_index (h.sound t ht) (registered_moves ttl p.hub st' a hm) <;>
      rw [hidx] <;> exact fun _ hkey => hkey
  truthful key id hat := by
    rw [hidx] at hat ⊢
    exact h.truthful key id hat

theorem setIndex_self (st : State) (i : InstanceID) (key : SlotKey) (v : Option ConnID) :
    (st.setIndex i key v).localIndex i=Function.update (st.localIndex i) key v := by
  simp [State.setIndex]

theorem truthful_of_peer_eq {idx' : SlotKey → Option ConnID} (h : Truthful p idx key id)
    (hpeer : idx' key.peer=idx key.peer) (st' : State) (new : List Talk) :
    Truthful { p with hub := st', talks := p.talks++new } idx' key id := by
  intro n hn
  simp only [truth,Corrects,hpeer]
  rcases h n hn with heq | ⟨t,ht,hcorr⟩
  · exact Or.inl heq
  · exact Or.inr ⟨t,List.mem_append_left new ht,hcorr⟩

theorem announced_store (h : Announced inst p) {c : Session} (hc : p.hub.sessions id=some c)
    (hp : c.phase=.indexing) (hok : ∀ t∈p.talks,t.key=c.key → t.stage.leaving=false)
    {st' : State} (hm : State.Moves ttl p.hub (.store id) st')
    (hst' : st'=(p.hub.setIndex c.inst c.key (some id)).setSession id
      { c with phase := .serving }) :
    Announced inst
      { p with hub := st', talks := p.talks ++ [⟨id,c.key,c.inst,.loadPeer⟩] } := by
  have hreg:=registered_moves ttl p.hub st' _ hm
  have hinst:=h.home id c hc
  have hindex : st'.localIndex inst=Function.update (p.hub.localIndex inst) c.key (some id) := by
    rw [hst',State.setSession_localIndex,← hinst,setIndex_self]
  have hkeep : ∀ key,p.hub.localIndex inst key≠none → st'.localIndex inst key≠none := by
    intro key hkey
    rw [hindex]
    by_cases hk : key=c.key
    · simp [hk]
    · rwa [Function.update_of_ne hk]
  have hself : Registered st' id c.key := by
    rw [hst']
    exact ⟨{ c with phase := .serving },by simp,rfl,rfl⟩
  have hsilent : p.sent id = [] := by
    by_contra hsent
    obtain ⟨key,d,hd,-,hphase⟩:=h.heard id hsent
    rw [hc,Option.some.injEq] at hd
    rw [← hd,hp] at hphase
    cases hphase
  refine
    { tracked := State.tracked_moves ttl p.hub st' _ hm h.tracked
      home := home_moves ttl hm (by simp) h.home
      heard := fun x hx => ?_
      sound := fun t ht => ?_
      truthful := fun key x hat => ?_ }
  · obtain ⟨key,hkey⟩:=h.heard x hx
    exact ⟨key,hreg x key hkey⟩
  · rcases List.mem_append.mp ht with ht | ht
    · refine sound_of_index (h.sound t ht) hreg (fun _ => hkeep _) (fun _ => hkeep _) ?_
      intro hleave hnone
      have hk : t.key≠c.key := by
        intro hk
        rw [hok t ht hk] at hleave
        cases hleave
      rwa [hindex,Function.update_of_ne hk]
    · rw [List.mem_singleton] at ht
      subst ht
      exact ⟨hinst,hself,by simp [hindex]⟩
  · rw [hindex] at hat ⊢
    by_cases hk : key=c.key
    · rw [hk,Function.update_self,Option.some.injEq] at hat
      intro n hn
      rw [← hat,hsilent] at hn
      cases hn
    rw [Function.update_of_ne hk] at hat
    by_cases hpk : key.peer=c.key
    · intro n _
      refine Or.inr ⟨_,List.mem_append_right _ (List.mem_singleton_self _),?_⟩
      simp [Corrects,hpk]
    · exact truthful_of_peer_eq (h.truthful key x hat) (Function.update_of_ne hpk _ _) st' _

theorem announced_delete (h : Announced inst p) {c : Session} (hc : p.hub.sessions id=some c)
    (hown : ∀ t∈p.talks,t.key=c.key → t.stage.announcing=false)
    (hpeer : ∀ t∈p.talks,t.key.peer=c.key → t.stage.tellsSelf=false) {st' : State}
    (hm : State.Moves ttl p.hub (.compareAndDelete id) st')
    (hst' : st'=(p.hub.setIndex c.inst c.key none).setSession id { c with phase := .releasing }) :
    Announced inst
      { p with hub := st', talks := p.talks ++ [⟨id,c.key,c.inst,.release⟩] } := by
  have hreg:=registered_moves ttl p.hub st' _ hm
  have hinst:=h.home id c hc
  have hindex : st'.localIndex inst=Function.update (p.hub.localIndex inst) c.key none := by
    rw [hst',State.setSession_localIndex,← hinst,setIndex_self]
  have hkeep : ∀ key,key≠c.key → p.hub.localIndex inst key≠none →
      st'.localIndex inst key≠none := by
    intro key hk hkey
    rwa [hindex,Function.update_of_ne hk]
  have hself : Registered st' id c.key := by
    rw [hst']
    exact ⟨{ c with phase := .releasing },by simp,rfl,rfl⟩
  refine
    { tracked := State.tracked_moves ttl p.hub st' _ hm h.tracked
      home := home_moves ttl hm (by simp) h.home
      heard := fun x hx => ?_
      sound := fun t ht => ?_
      truthful := fun key x hat => ?_ }
  · obtain ⟨key,hkey⟩:=h.heard x hx
    exact ⟨key,hreg x key hkey⟩
  · rcases List.mem_append.mp ht with ht | ht
    · refine sound_of_index (h.sound t ht) hreg (fun hann => hkeep _ ?_)
        (fun htell => hkeep _ ?_) ?_
      · intro hk
        rw [hown t ht hk] at hann
        cases hann
      · intro hk
        rw [hpeer t ht hk] at htell
        cases htell
      · intro _ hnone
        rw [hindex]
        by_cases hk : t.key=c.key
        · rw [hk,Function.update_self]
        · rwa [Function.update_of_ne hk]
    · rw [List.mem_singleton] at ht
      subst ht
      exact ⟨hinst,hself,by simp [hindex]⟩
  · rw [hindex] at hat ⊢
    have hk : key≠c.key := by
      intro hk
      rw [hk,Function.update_self] at hat
      cases hat
    rw [Function.update_of_ne hk] at hat
    by_cases hpk : key.peer=c.key
    · intro n _
      refine Or.inr ⟨_,List.mem_append_right _ (List.mem_singleton_self _),?_⟩
      simp [Corrects,hpk]
    · exact truthful_of_peer_eq (h.truthful key x hat) (Function.update_of_ne hpk _ _) st' _

/-! ### Steps of a call -/

theorem announced_talk (h : Announced inst p) {p' : Presence} (hhub : p'.hub=p.hub)
    (hheard : ∀ id,p'.sent id ≠ [] → p.sent id ≠ [] ∨ ∃ key,Registered p.hub id key)
    (hsound : ∀ t∈p'.talks,t∈p.talks ∨ Sound inst p.hub t)
    (htruth : ∀ key id,p.hub.localIndex inst key=some id →
      Truthful p (p.hub.localIndex inst) key id → Truthful p' (p.hub.localIndex inst) key id) :
    Announced inst p' where
  tracked := hhub ▸ h.tracked
  home := hhub ▸ h.home
  heard id hid := by
    rw [hhub]
    rcases hheard id hid with hold | hnew
    · exact h.heard id hold
    · exact hnew
  sound t ht := by
    rw [hhub]
    rcases hsound t ht with hold | hnew
    · exact h.sound t hold
    · exact hnew
  truthful key id hat := by
    rw [hhub] at hat ⊢
    exact htruth key id hat (h.truthful key id hat)

theorem truthful_of_sent_eq {p' : Presence} (h : Truthful p idx key id)
    (hsent : p'.sent id=p.sent id)
    (hcorr : ∀ t∈p.talks,Corrects idx key id t → ∃ t'∈p'.talks,Corrects idx key id t') :
    Truthful p' idx key id := by
  intro n hn
  rw [hsent] at hn
  rcases h n hn with heq | ⟨t,ht,htc⟩
  · exact Or.inl heq
  · exact Or.inr (hcorr t ht htc)

theorem mem_set_of_mem {t t' u : Talk} {n : ℕ} {l : List Talk} (hn : l[n]? = some t)
    (hu : u∈l) : u=t ∨ u∈l.set n t' := by
  obtain ⟨i,hi⟩:=List.mem_iff_getElem?.mp hu
  by_cases hin : n=i
  · rw [hin,hi,Option.some.injEq] at hn
    exact Or.inl hn
  · exact Or.inr (List.mem_iff_getElem?.mpr ⟨i,by rw [List.getElem?_set_ne hin,hi]⟩)

theorem mem_eraseIdx_of_mem {t u : Talk} {n : ℕ} {l : List Talk} (hn : l[n]? = some t)
    (hu : u∈l) : u=t ∨ u∈l.eraseIdx n := by
  obtain ⟨i,hi⟩:=List.mem_iff_getElem?.mp hu
  by_cases hin : i=n
  · rw [← hin,hi,Option.some.injEq] at hn
    exact Or.inl hn
  · exact Or.inr (List.mem_eraseIdx_iff_getElem?.mpr ⟨i,hin,hi⟩)

section Talk
variable {n : ℕ} {t : Talk}

theorem announced_goOn (h : Announced inst p) (ht : p.talks[n]? = some t) {stage : TalkStage}
    (hsound : Sound inst p.hub { t with stage })
    (hcorr : ∀ key id,p.hub.localIndex inst key=some id →
      Corrects (p.hub.localIndex inst) key id t →
      Corrects (p.hub.localIndex inst) key id { t with stage } ∨
        (p.sent id).head? = some (truth (p.hub.localIndex inst) key)) :
    Announced inst (p.goOn n t stage) := by
  refine announced_talk h rfl (fun id hid => Or.inl hid) ?_ ?_
  · intro u hu
    rcases List.mem_or_eq_of_mem_set hu with hold | hnew
    · exact Or.inl hold
    · exact Or.inr (hnew ▸ hsound)
  intro key id hat htruth m hm
  rcases htruth m hm with heq | ⟨u,hu,huc⟩
  · exact Or.inl heq
  rcases mem_set_of_mem ht hu with hut | hstay
  · subst hut
    rcases hcorr key id hat huc with hnew | hsaid
    · exact Or.inr ⟨_,List.mem_set (List.getElem?_eq_some_iff.mp ht).1 _,hnew⟩
    · left
      exact Option.some.inj (hm.symm.trans hsaid)
  · exact Or.inr ⟨u,hstay,huc⟩

theorem announced_finish (h : Announced inst p) (ht : p.talks[n]? = some t)
    (hcorr : ∀ key id,p.hub.localIndex inst key=some id →
      Corrects (p.hub.localIndex inst) key id t →
        (p.sent id).head? = some (truth (p.hub.localIndex inst) key)) :
    Announced inst (p.finish n) := by
  refine announced_talk h rfl (fun id hid => Or.inl hid)
    (fun u hu => Or.inl (List.mem_of_mem_eraseIdx hu)) ?_
  intro key id hat htruth m hm
  rcases htruth m hm with heq | ⟨u,hu,huc⟩
  · exact Or.inl heq
  rcases mem_eraseIdx_of_mem ht hu with hut | hstay
  · subst hut
    left
    exact Option.some.inj (hm.symm.trans (hcorr key id hat huc))
  · exact Or.inr ⟨u,hstay,huc⟩

def Reaches (inst : InstanceID) (p : Presence) (dest : ConnID) (pick : Bool) : Prop :=
  (!p.done dest || pick) = true ∨ ∀ key, p.hub.localIndex inst key ≠ some dest

theorem sendSys_hub (dest : ConnID) (m : Notice) (pick : Bool) :
    (p.sendSys dest m pick).hub=p.hub := by
  unfold sendSys
  split <;> rfl

theorem sendSys_talks (dest : ConnID) (m : Notice) (pick : Bool) :
    (p.sendSys dest m pick).talks=p.talks := by
  unfold sendSys
  split <;> rfl

theorem sendSys_sent_of_ne {dest : ConnID} (hne : id≠dest) (m : Notice) (pick : Bool) :
    (p.sendSys dest m pick).sent id=p.sent id := by
  unfold sendSys
  split
  · exact Function.update_of_ne hne _ _
  · rfl

theorem sendSys_head {dest : ConnID} {pick : Bool} (hr : Reaches inst p dest pick)
    (hat : p.hub.localIndex inst key=some dest) (m : Notice) :
    ((p.sendSys dest m pick).sent dest).head? = some m := by
  rcases hr with htaken | hout
  · simp [sendSys,htaken]
  · exact absurd hat (hout key)

theorem announced_sendSys (h : Announced inst p) {dest : ConnID} {pick : Bool}
    (hr : Reaches inst p dest pick) (hreg : Registered p.hub dest key) {m : Notice}
    (htrue : m=truth (p.hub.localIndex inst) key) : Announced inst (p.sendSys dest m pick) := by
  refine announced_talk h (sendSys_hub dest m pick) ?_ ?_ ?_
  · intro id hid
    by_cases hd : id=dest
    · exact Or.inr ⟨key,hd ▸ hreg⟩
    · rw [sendSys_sent_of_ne hd] at hid
      exact Or.inl hid
  · rw [sendSys_talks]
    exact fun u hu => Or.inl hu
  intro key' id hat htruth
  by_cases hd : id=dest
  · subst hd
    have hkey:=h.key_of_index hat hreg
    subst hkey
    intro m' hm'
    rw [sendSys_head hr hat,Option.some.injEq] at hm'
    exact Or.inl (hm' ▸ htrue)
  · apply truthful_of_sent_eq htruth (sendSys_sent_of_ne hd m pick)
    rw [sendSys_talks]
    exact fun u hu huc => ⟨u,hu,huc⟩

theorem truth_online (h : idx key.peer≠none) : .peerOnline=truth idx key := by
  rw [truth,if_pos (Option.isSome_iff_ne_none.mpr h)]

theorem truth_offline (h : idx key.peer=none) : .peerOffline=truth idx key := by
  rw [truth,h]
  rfl

theorem corrects_loadPeer (hs : t.stage=.loadPeer) (h : Corrects idx key id t) :
    (idx key.peer).isSome ∧ (t.key=key.peer ∨ t.id=id) := by
  unfold Corrects at h
  split at h
  next hsome =>
    rcases h with hk | hid
    · exact ⟨hsome,Or.inl hk.1⟩
    · exact ⟨hsome,Or.inr hid.1⟩
  next => simp [hs] at h

theorem announced_loadPeer (h : Announced inst p) (ht : p.talks[n]? = some t)
    (hs : t.stage=.loadPeer) (now : Int) (fails pick : Bool) :
    Announced inst (p.talkStep n t now fails pick) := by
  obtain ⟨hinst,hself,hstage⟩:=h.sound t (List.mem_of_getElem? ht)
  simp only [hs] at hstage
  simp only [talkStep,hs,hinst]
  split
  next peer hpeer =>
    have hreg:=h.registered_of_index hpeer
    refine announced_goOn h ht ⟨hinst,hself,hstage,by simp [hpeer],hreg⟩ ?_
    intro key id hat hcorr
    left
    obtain ⟨hsome,hwho⟩:=corrects_loadPeer hs hcorr
    rw [Corrects,if_pos hsome]
    rcases hwho with hk | hid
    · -- the entry just loaded is the one to be told
      rw [hk,SlotKey.peer_peer,hat,Option.some.injEq] at hpeer
      exact Or.inl ⟨hk,Or.inr (Or.inl (hpeer ▸ rfl))⟩
    · exact Or.inr ⟨hid,Or.inr ⟨peer,rfl⟩⟩
  next hnone =>
    refine announced_goOn h ht ⟨hinst,hself,trivial⟩ ?_
    intro key id hat hcorr
    obtain ⟨hsome,hwho⟩:=corrects_loadPeer hs hcorr
    rcases hwho with hk | hid
    · rw [hk,SlotKey.peer_peer,hat] at hnone
      cases hnone
    · rw [← h.key_of_index hat (hid ▸ hself),hnone] at hsome
      cases hsome

theorem announced_tellSelf (h : Announced inst p) (ht : p.talks[n]? = some t) {peer : ConnID}
    (hs : t.stage = .tellSelf peer) (now : Int) (fails pick : Bool)
    (hr : Reaches inst p t.id pick) : Announced inst (p.talkStep n t now fails pick) := by
  obtain ⟨hinst,hself,hstage⟩:=h.sound t (List.mem_of_getElem? ht)
  simp only [hs] at hstage
  obtain ⟨hown,hpeer,hreg⟩:=hstage
  simp only [talkStep,hs]
  have hsaid:=announced_sendSys h hr hself (truth_online hpeer)
  refine announced_goOn hsaid (by rw [sendSys_talks,ht]) ?_ ?_
  · rw [sendSys_hub]
    exact ⟨hinst,hself,hown,hreg⟩
  rw [sendSys_hub]
  intro key id hat hcorr
  by_cases hid : t.id=id
  · subst hid
    right
    rw [sendSys_head hr hat,← h.key_of_index hat hself,← truth_online hpeer]
  left
  simp only [Corrects,hs,hid,false_and,or_false] at hcorr ⊢
  split at hcorr
  next hsome =>
    rw [if_pos hsome]
    simp only [reduceCtorEq,TalkStage.tellSelf.injEq,false_or,or_false] at hcorr
    exact ⟨hcorr.1,Or.inr (Or.inr (congrArg _ hcorr.2))⟩
  next => simp at hcorr

theorem announced_tellPeer (h : Announced inst p) (ht : p.talks[n]? = some t) {peer : ConnID}
    (hs : t.stage = .tellPeer peer) (now : Int) (fails pick : Bool)
    (hr : Reaches inst p peer pick) : Announced inst (p.talkStep n t now fails pick) := by
  obtain ⟨hinst,hself,hstage⟩:=h.sound t (List.mem_of_getElem? ht)
  simp only [hs] at hstage
  obtain ⟨hown,hreg⟩:=hstage
  have hpeer : p.hub.localIndex inst t.key.peer.peer≠none := by rwa [SlotKey.peer_peer]
  simp only [talkStep,hs]
  have hsaid:=announced_sendSys h hr hreg (truth_online hpeer)
  refine announced_finish hsaid (by rw [sendSys_talks,ht]) ?_
  rw [sendSys_hub]
  intro key id hat hcorr
  have hid : peer=id := by
    unfold Corrects at hcorr
    split at hcorr <;> simp [hs] at hcorr
    exact hcorr.2
  subst hid
  rw [sendSys_head hr hat,← h.key_of_index hat hreg,← truth_online hpeer]

theorem peerElsewhere_eq_false (h : Announced inst p) (hinst : t.inst=inst) (now : Int)
    (fails : Bool) : p.peerElsewhere t now fails=false := by
  unfold peerElsewhere Slots.lookupInstance
  cases hcur : p.hub.slots t.key.peer with
  | none => rfl
  | some cur =>
    obtain ⟨c,hc,-,hci,-⟩ :=
      h.tracked.holder t.key.peer cur.connID cur.instanceID ⟨cur,hcur,rfl,rfl⟩
    have hhome:=h.home cur.connID c hc
    by_cases hlive : now<cur.expiresAt
    · simp [hlive,hinst,← hci,hhome]
    · simp [hlive]

theorem announced_lookUp (h : Announced inst p) (ht : p.talks[n]? = some t) (hs : t.stage=.lookUp)
    (now : Int) (fails pick : Bool) : Announced inst (p.talkStep n t now fails pick) := by
  have hinst:=(h.sound t (List.mem_of_getElem? ht)).1
  simp only [talkStep,hs,peerElsewhere_eq_false h hinst,Bool.false_eq_true,if_false]
  refine announced_finish h ht ?_
  intro key id _ hcorr
  unfold Corrects at hcorr
  split at hcorr <;> simp [hs] at hcorr

theorem corrects_leaving (hs : t.stage.leaving=true) (h : Corrects idx key id t) :
    idx key.peer=none ∧ t.key=key.peer ∧ ∀ peer,t.stage = .tellLeft peer → peer=id := by
  unfold Corrects at h
  split at h
  next =>
    exfalso
    rcases h with ⟨-,hst | hst | hst⟩ | ⟨-,hst | ⟨peer,hst⟩⟩ <;> rw [hst] at hs <;> cases hs
  next hnone =>
    refine ⟨by simpa using hnone,h.1,?_⟩
    intro peer hst
    rw [hst] at h
    simpa using h.2

theorem announced_loadLeft (h : Announced inst p) (ht : p.talks[n]? = some t)
    (hs : t.stage=.loadLeft) (now : Int) (fails pick : Bool) :
    Announced inst (p.talkStep n t now fails pick) := by
  obtain ⟨hinst,hself,hstage⟩:=h.sound t (List.mem_of_getElem? ht)
  simp only [hs] at hstage
  have hleave : t.stage.leaving=true := by rw [hs]; rfl
  simp only [talkStep,hs,hinst]
  split
  next peer hpeer =>
    refine announced_goOn h ht ⟨hinst,hself,hstage,h.registered_of_index hpeer⟩ ?_
    intro key id hat hcorr
    left
    obtain ⟨hnone,hk,-⟩:=corrects_leaving hleave hcorr
    rw [hk,SlotKey.peer_peer,hat,Option.some.injEq] at hpeer
    rw [Corrects,hnone]
    exact ⟨hk,Or.inr (Or.inr (hpeer ▸ rfl))⟩
  next hnone =>
    refine announced_finish h ht ?_
    intro key id hat hcorr
    obtain ⟨-,hk,-⟩:=corrects_leaving hleave hcorr
    rw [hk,SlotKey.peer_peer,hat] at hnone
    cases hnone

theorem announced_tellLeft (h : Announced inst p) (ht : p.talks[n]? = some t) {peer : ConnID}
    (hs : t.stage = .tellLeft peer) (now : Int) (fails pick : Bool)
    (hr : Reaches inst p peer pick) : Announced inst (p.talkStep n t now fails pick) := by
  obtain ⟨hinst,hself,hstage⟩:=h.sound t (List.mem_of_getElem? ht)
  simp only [hs] at hstage
  obtain ⟨hown,hreg⟩:=hstage
  have hpeer : p.hub.localIndex inst t.key.peer.peer=none := by rwa [SlotKey.peer_peer]
  have hleave : t.stage.leaving=true := by rw [hs]; rfl
  simp only [talkStep,hs]
  have hsaid:=announced_sendSys h hr hreg (truth_offline hpeer)
  refine announced_finish hsaid (by rw [sendSys_talks,ht]) ?_
  rw [sendSys_hub]
  intro key id hat hcorr
  have hid:=(corrects_leaving hleave hcorr).2.2 peer hs
  subst hid
  rw [sendSys_head hr hat,← h.key_of_index hat hreg,← truth_offline hpeer]

theorem reaches_of_orderly (h : Announced inst p) {now : Int} {fails pick : Bool}
    (hok : orderly inst p (.talk n now fails pick)=true) (ht : p.talks[n]? = some t)
    {dest : ConnID} (hdest : t.target=some dest) : Reaches inst p dest pick := by
  simp only [orderly,ht,hdest,Bool.or_eq_true] at hok
  rcases hok with htaken | hout
  · left
    simpa using htaken
  right
  intro key hat
  obtain ⟨c,hc,hkey,-⟩:=h.tracked.index inst key dest hat
  simp [hc,hkey,hat] at hout

theorem announced_talkStep (h : Announced inst p) {now : Int} {fails pick : Bool}
    (hok : orderly inst p (.talk n now fails pick)=true) (ht : p.talks[n]? = some t) :
    Announced inst (p.talkStep n t now fails pick) := by
  have hreach : ∀ dest,t.target=some dest → Reaches inst p dest pick :=
    fun dest hdest => reaches_of_orderly h hok ht hdest
  cases hs : t.stage with
  | loadPeer => exact announced_loadPeer h ht hs now fails pick
  | tellSelf peer =>
    exact announced_tellSelf h ht hs now fails pick (hreach t.id (by rw [Talk.target,hs]))
  | tellPeer peer =>
    exact announced_tellPeer h ht hs now fails pick (hreach peer (by rw [Talk.target,hs]))
  | lookUp => exact announced_lookUp h ht hs now fails pick
  | tellSelfRemote =>
    have hsound:=(h.sound t (List.mem_of_getElem? ht)).2.2
    simp only [hs] at hsound
  | release =>
    simp only [talkStep,hs]
    exact h
  | loadLeft => exact announced_loadLeft h ht hs now fails pick
  | tellLeft peer =>
    exact announced_tellLeft h ht hs now fails pick (hreach peer (by rw [Talk.target,hs]))

end Talk

theorem sound_afterRelease {st : State} {t : Talk} (id : ConnID) (h : Sound inst st t) :
    Sound inst st (afterRelease id t) := by
  unfold afterRelease
  split
  next hrel =>
    obtain ⟨hinst,hself,hstage⟩:=h
    simp only [hrel.2] at hstage
    exact ⟨hinst,hself,hstage⟩
  next => exact h

theorem corrects_afterRelease {x : ConnID} {t : Talk} (id : ConnID) (h : Corrects idx key x t) :
    Corrects idx key x (afterRelease id t) := by
  unfold afterRelease
  split
  next hrel =>
    obtain ⟨hnone,hk,-⟩:=corrects_leaving (by rw [hrel.2]; rfl) h
    rw [Corrects,hnone]
    exact ⟨hk,Or.inr (Or.inl rfl)⟩
  next => exact h

theorem announced_released (h : Announced inst p) (id : ConnID) :
    Announced inst { p with talks := p.talks.map (afterRelease id) } := by
  refine announced_talk h rfl (fun x hx => Or.inl hx) ?_ ?_
  · intro u hu
    obtain ⟨t,ht,rfl⟩:=List.mem_map.mp hu
    exact Or.inr (sound_afterRelease id (h.sound t ht))
  · intro key x _ htruth
    refine truthful_of_sent_eq htruth rfl ?_
    intro t ht hcorr
    exact ⟨_,List.mem_map_of_mem ht,corrects_afterRelease id hcorr⟩

/-! ### Every orderly run -/

theorem announced_hubStep_store (h : Announced inst p) (id : ConnID)
    (hok : orderly inst p (.hub (.store id))=true) :
    Announced inst (p.hubStep ttl (.store id)) := by
  have hm:=State.next_moves ttl p.hub (.store id)
  simp only [hubStep]
  cases hc : p.hub.sessions id with
  | none =>
    have hsame : p.hub.next ttl (.store id)=p.hub := by simp [State.next,Relay.Step.conn,hc]
    rw [hsame,stored,hc]
    simpa using h
  | some c =>
    by_cases hp : c.phase=.indexing
    · rw [stored,hc]
      simp only [hp,if_true]
      simp only [orderly,hc,Bool.not_eq_true',List.any_eq_false,Bool.and_eq_true,beq_iff_eq,
        not_and,Bool.not_eq_true] at hok
      refine announced_store ttl h hc hp hok hm ?_
      simp [State.next,Relay.Step.conn,hc,State.connStep,hp]
    · have hsame : p.hub.next ttl (.store id)=p.hub := by
        simp [State.next,Relay.Step.conn,hc,State.connStep,hp]
      rw [hsame,stored,hc]
      simpa [hp] using h

theorem announced_hubStep_delete (h : Announced inst p) (id : ConnID)
    (hok : orderly inst p (.hub (.compareAndDelete id))=true) :
    Announced inst (p.hubStep ttl (.compareAndDelete id)) := by
  have hm:=State.next_moves ttl p.hub (.compareAndDelete id)
  simp only [hubStep]
  cases hc : p.hub.sessions id with
  | none =>
    have hsame : p.hub.next ttl (.compareAndDelete id)=p.hub := by
      simp [State.next,Relay.Step.conn,hc]
    rw [hsame,wasHolder,hc]
    simpa using h
  | some c =>
    by_cases hp : c.phase=.deregistering ∧ p.hub.localIndex c.inst c.key=some id
    · rw [wasHolder,hc]
      simp only [hp,and_self,if_true]
      simp only [orderly,hc,hp.2,bne_self_eq_false,Bool.false_or,Bool.not_eq_true',
        List.any_eq_false,Bool.or_eq_true,Bool.and_eq_true,beq_iff_eq,not_or,not_and,
        Bool.not_eq_true] at hok
      refine announced_delete ttl h hc (fun t ht hk => (hok t ht).1 hk) ?_ hm ?_
      · intro t ht hk
        exact (hok t ht).2 (by rw [← hk,SlotKey.peer_peer])
      · simp [State.next,Relay.Step.conn,hc,State.connStep,hp]
    · have hidx : (p.hub.next ttl (.compareAndDelete id)).localIndex=p.hub.localIndex := by
        simp only [State.next,Relay.Step.conn,hc,State.connStep]
        split
        next hphase =>
          rw [if_neg fun hat => hp ⟨hphase,hat⟩]
          rfl
        next => rfl
      have hnone : wasHolder p.hub id = [] := by simp [wasHolder,hc,hp]
      rw [hnone,List.append_nil]
      exact announced_hub ttl h hm (by simp) hidx p.cancelled

theorem moves_localIndex {st st' : State} {a : Relay.Step} (hm : State.Moves ttl st a st')
    (hstore : ∀ id,a ≠ .store id) (hdelete : ∀ id,a ≠ .compareAndDelete id) :
    st'.localIndex=st.localIndex := by
  cases hm with
  | store id c hc hp => exact absurd rfl (hstore id)
  | delete id c hc hp => exact absurd rfl (hdelete id)
  | release id c fails hc hp => simp
  | _ => rfl

theorem announced_next (h : Announced inst p) (a : Step) (hone : onInstance inst a=true)
    (hok : orderly inst p a=true) : Announced inst (p.next ttl a) := by
  cases a with
  | hub a =>
    have hm:=State.next_moves ttl p.hub a
    have hone' : ∀ id key accountID i,a = .accept id key accountID i → i=inst := by
      intro id key accountID i ha
      rw [ha] at hone
      exact eq_of_beq hone
    simp only [next]
    cases a with
    | store id => exact announced_hubStep_store ttl h id hok
    | compareAndDelete id => exact announced_hubStep_delete ttl h id hok
    | releaseSlot id fails =>
      exact announced_hub ttl (announced_released h id) hm hone'
        (moves_localIndex ttl hm (by simp) (by simp)) p.cancelled
    | unwind id =>
      simp only [hubStep]
      split
      · exact h
      · exact announced_hub ttl h hm hone' (moves_localIndex ttl hm (by simp) (by simp)) _
    | _ =>
      exact announced_hub ttl h hm hone' (moves_localIndex ttl hm (by simp) (by simp)) p.cancelled
  | cancel id => exact announced_hub ttl h (.idle (.claimFails id)) (by simp) rfl _
  | talk n now fails pick =>
    simp only [next]
    split
    next t ht => exact announced_talkStep h hok ht
    next => exact h

theorem announced_run (as : List Step) (hone : ∀ a∈as,onInstance inst a=true)
    (hg : Machine.Guarded (next ttl) (fun p a => orderly inst p a=true) empty as) :
    Announced inst (Machine.run (next ttl) empty as) := by
  have hall:=Machine.guarded_and (next ttl) (fun _ a => onInstance inst a=true) _ empty as
    (Machine.guarded_of_forall (next ttl) _ empty as fun a ha _ => hone a ha) hg
  exact Machine.guarded_invariant (next ttl) _ (Announced inst)
    (fun p a h hok => announced_next ttl h a hok.1 hok.2) empty as (announced_empty inst) hall

/-- Presence is truthful at rest in every orderly run of one instance: the last notice
of a session in the index says whether its peer's slot is in the index. -/
theorem truthful_at_rest (inst : InstanceID) (as : List Step)
    (hone : ∀ a ∈ as, onInstance inst a = true)
    (hg : Machine.Guarded (next ttl) (fun p a => orderly inst p a = true) empty as)
    (hrest : AtRest (Machine.run (next ttl) empty as)) (key : SlotKey) (id : ConnID)
    (hat : (Machine.run (next ttl) empty as).hub.localIndex inst key = some id) (n : Notice)
    (hlast : ((Machine.run (next ttl) empty as).sent id).head? = some n) :
    n = if ((Machine.run (next ttl) empty as).hub.localIndex inst key.peer).isSome then .peerOnline
      else .peerOffline := by
  rcases (announced_run ttl as hone hg).truthful key id hat n hlast with heq | ⟨t,ht,-⟩
  · exact heq
  · rw [hrest.2] at ht
    cases ht

/-! ### Runs -/

theorem next_hub (p : Presence) (a : Step) :
    (p.next ttl a).hub=p.hub ∨ ∃ b,a = .hub b ∧ (p.next ttl a).hub=p.hub.next ttl b := by
  cases a with
  | hub b =>
    cases b with
    | unwind id =>
      simp only [next,hubStep]
      split
      · exact Or.inl rfl
      · exact Or.inr ⟨_,rfl,rfl⟩
    | _ => exact Or.inr ⟨_,rfl,rfl⟩
  | cancel id => exact Or.inl rfl
  | talk n now fails pick =>
    left
    simp only [next]
    split
    next t ht =>
      unfold talkStep
      split <;> try split
      all_goals simp [goOn,finish,sendSys_hub]
    next => rfl

def accepts : Step → Option ConnID
  | .hub (.accept id _ _ _) => some id
  | _ => none

theorem hub_sessions_run_none (as : List Step) (p : Presence) (id : ConnID)
    (hnone : p.hub.sessions id=none) (has : ∀ a∈as,accepts a≠some id) :
    (Machine.run (next ttl) p as).hub.sessions id=none := by
  induction as generalizing p with
  | nil => exact hnone
  | cons a as ih =>
    refine ih (p.next ttl a) ?_ fun b hb => has b (List.mem_cons_of_mem a hb)
    rcases next_hub ttl p a with hsame | ⟨b,rfl,hnext⟩
    · rw [hsame,hnone]
    rw [hnext]
    refine State.sessions_run_none ttl [b] p.hub id hnone ?_
    intro key accountID i hmem
    rw [List.mem_singleton] at hmem
    exact has _ List.mem_cons_self (by rw [← hmem]; rfl)

def quietAt (p : Presence) (id : ConnID) : Bool :=
  match p.hub.sessions id with
  | some c => !c.phase.InProgress
  | none => true

theorem atRest_of_quietAt (as : List Step) (ids : List ConnID) (has : ∀ a∈as,∀ id∈accepts a,id∈ids)
    (hquiet : ∀ id∈ids,quietAt (Machine.run (next ttl) empty as) id=true)
    (htalks : (Machine.run (next ttl) empty as).talks = []) :
    AtRest (Machine.run (next ttl) empty as) := by
  refine ⟨?_,htalks⟩
  intro id c hc
  by_cases hid : id∈ids
  · have hq:=hquiet id hid
    simpa [quietAt,hc] using hq
  · rw [hub_sessions_run_none ttl as empty id rfl fun a ha h => hid (has a ha id h)] at hc
    cases hc

def registers (id : ConnID) (key : SlotKey) (now : Int) : List Step :=
  [.hub (.accept id key "acct" "relay-1"),.hub (.claimSlot id now),.hub (.loadDisplaced id),
    .hub (.store id)]

def deregisters (id : ConnID) : List Step :=
  [.hub (.unwind id),.hub (.compareAndDelete id),.hub (.releaseSlot id false)]

def speaks (n : ℕ) : Step := .talk n 0 false false

def bothOnline : List Step :=
  registers "desktop" desktopSlot 0 ++ [speaks 0,speaks 0] ++
    registers "phone-1" phoneSlot 1 ++ [speaks 0,speaks 0,speaks 0]

def phoneReturns : List Step :=
  bothOnline ++ deregisters "phone-1" ++ [speaks 0,speaks 0] ++
    registers "phone-2" phoneSlot 2 ++ [speaks 0,speaks 0,speaks 0]

theorem truthful_at_rest_phoneReturns :
    (Machine.run (next 60) empty phoneReturns).sent "desktop" =
        [.peerOnline,.peerOffline,.peerOnline] ∧
      Notice.peerOnline =
        if ((Machine.run (next 60) empty phoneReturns).hub.localIndex "relay-1"
          desktopSlot.peer).isSome then .peerOnline else .peerOffline :=
  ⟨by decide +kernel,
    truthful_at_rest 60 "relay-1" phoneReturns (by decide +kernel) (by decide +kernel)
      (atRest_of_quietAt 60 phoneReturns ["desktop","phone-1","phone-2"] (by decide +kernel)
        (by decide +kernel) (by decide +kernel))
      desktopSlot "desktop" (by decide +kernel) .peerOnline (by decide +kernel)⟩

/- The leaving phone has loaded the desktop's entry when the phone registers again; its
notice comes after that of the newcomer. -/
def lateFarewell : List Step :=
  bothOnline ++ deregisters "phone-1" ++ [speaks 0] ++
    registers "phone-2" phoneSlot 2 ++ [speaks 1,speaks 1,speaks 1,speaks 0]

/- The desktop has loaded the phone's entry when the phone leaves; it tells itself that
the phone is online after the phone has told it that it is not. -/
def lateGreeting : List Step :=
  registers "phone-1" phoneSlot 0 ++ [speaks 0,speaks 0] ++
    registers "desktop" desktopSlot 1 ++ [speaks 0] ++
    deregisters "phone-1" ++ [speaks 1,speaks 1,speaks 0,speaks 0]

/- The desktop's `readPump` has returned, `Serve` has not; its queue is not chosen. -/
def lostFarewell : List Step :=
  bothOnline ++ [.cancel "desktop"] ++ deregisters "phone-1" ++ [speaks 0,speaks 0]

theorem clobbered_presence :
    (let p := Machine.run (next 60) empty lateFarewell
     AtRest p ∧ p.hub.localIndex "relay-1" desktopSlot = some "desktop" ∧
       (p.sent "desktop").head? = some .peerOffline ∧
       p.hub.localIndex "relay-1" desktopSlot.peer = some "phone-2") ∧
    (let p := Machine.run (next 60) empty lateGreeting
     AtRest p ∧ p.hub.localIndex "relay-1" desktopSlot = some "desktop" ∧
       (p.sent "desktop").head? = some .peerOnline ∧
       p.hub.localIndex "relay-1" desktopSlot.peer = none) ∧
    (let p := Machine.run (next 60) empty lostFarewell
     AtRest p ∧ p.hub.localIndex "relay-1" desktopSlot = some "desktop" ∧
       (p.sent "desktop").head? = some .peerOnline ∧
       p.hub.localIndex "relay-1" desktopSlot.peer = none) := by
  refine ⟨⟨?_,by decide +kernel⟩,⟨?_,by decide +kernel⟩,⟨?_,by decide +kernel⟩⟩
  · exact atRest_of_quietAt 60 lateFarewell ["desktop","phone-1","phone-2"] (by decide +kernel)
      (by decide +kernel) (by decide +kernel)
  · exact atRest_of_quietAt 60 lateGreeting ["desktop","phone-1"] (by decide +kernel)
      (by decide +kernel) (by decide +kernel)
  · exact atRest_of_quietAt 60 lostFarewell ["desktop","phone-1"] (by decide +kernel)
      (by decide +kernel) (by decide +kernel)

end Presence
end SecureGateway.Relay
