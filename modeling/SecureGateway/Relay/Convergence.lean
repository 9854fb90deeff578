import SecureGateway.Relay.Offers

/-!
# Handshake convergence

A handshake that arrives while the peer is absent is lost, and across instances
`announcePresence` tells the newcomer alone, so a client may never be asked for its handshake
again (`desktop_never_completes`). `inStep` excludes this and late frames of old connections;
then every quiescent state has both coordinators complete with crossed keys.
-/

namespace SecureGateway.Relay
open E2ee Sdk

namespace Network
variable {N : Native} (P : Pairing N)

/-! ### Connections and slots -/

variable (net : Network)

theorem converging_accept (h : Converging P net) (id : ConnID) (e : Endpoint)
    (hnone : net.conns id=none) :
    Converging P { net with conns := Function.update net.conns id (some e) } := by
  have hkeep : ∀ x e',net.conns x=some e' →
      Function.update net.conns id (some e) x=some e' := by
    intro x e' hx
    have hne : x≠id := by
      rintro rfl
      rw [hnone] at hx
      cases hx
    rw [Function.update_of_ne hne,hx]
  refine { h with holder := ?_, index := ?_, open' := ?_ }
  · intro r cur hs
    obtain ⟨hc,hst,hi⟩:=h.holder r cur hs
    exact ⟨hkeep _ _ hc,hst,hi⟩
  · intro inst r x hx
    exact hkeep _ _ (h.index inst r x hx)
  · intro r x hx
    obtain ⟨inst,c,hc,hrest⟩:=h.open' r x hx
    exact ⟨inst,c,hkeep _ _ hc,hrest⟩

theorem Converging.holder_ne {net : Network} (h : Converging P net) {r : Role} {cur : Entry}
    (hs : net.slots (P.key r)=some cur) {id : ConnID} {r' : Role} {inst : InstanceID}
    (hid : net.conns id=some ⟨r',inst⟩) (hr : r'≠r) : cur.connID≠id := by
  rintro rfl
  rw [(h.holder r cur hs).1,Option.some.injEq,Endpoint.mk.injEq] at hid
  exact hr hid.1.symm

theorem Converging.not_active {net : Network} (h : Converging P net) {id : ConnID}
    (heph : net.eph id=none) (r : Role) : (net.managers r).active≠some id := by
  intro hact
  obtain ⟨_,c,-,-,hc,-⟩:=h.open' r id hact
  rw [heph] at hc
  cases hc

variable (r : Role) (m : ConnectionManager ConnID) (id : ConnID)

theorem accepted_of_not_active (h : m.active≠some id) : accepted m id=none := if_neg h

def claimed (net : Network) (id : ConnID) (e : Endpoint) : Network :=
  { net with
    slots := Function.update net.slots (P.key e.role) (some ⟨id,e.inst,1⟩)
    stage := Function.update net.stage id .registered
    localIndex := Function.update net.localIndex e.inst
      (Function.update (net.localIndex e.inst) (P.key e.role) (some id)) }

theorem converging_claimed (h : Converging P net) (id : ConnID) (e : Endpoint)
    (hc : net.conns id=some e) (hst : net.stage id = .accepted)
    (hpeer : ∀ cur,net.slots (P.key e.role.peer)=some cur → net.willOffer cur.connID=true) :
    Converging P (net.claimed P id e) := by
  have hself : (net.claimed P id e).slots (P.key e.role)=some ⟨id,e.inst,1⟩ := by simp [claimed]
  have hother : (net.claimed P id e).slots (P.key e.role.peer)=net.slots (P.key e.role.peer) := by
    simp [claimed]
  refine { h with lease := ?_, holder := ?_, index := ?_, unrouted := ?_, pending := ?_ }
  · intro key cur hs
    by_cases hk : key=P.key e.role
    · subst hk
      rw [hself,Option.some.injEq] at hs
      rw [← hs]
      exact Int.zero_lt_one
    · simp only [claimed,Function.update_of_ne hk] at hs
      exact h.lease key cur hs
  · intro r cur hs
    rcases Role.eq_or_eq_peer e.role r with rfl | rfl
    · rw [hself,Option.some.injEq] at hs
      subst hs
      exact ⟨hc,by simp [claimed],by simp [claimed]⟩
    rw [hother] at hs
    obtain ⟨hcur,hstage,hindex⟩:=h.holder _ cur hs
    have hne : cur.connID≠id := by
      rintro rfl
      rw [hst] at hstage
      cases hstage
    refine ⟨hcur,by simp [claimed,hne,hstage],?_⟩
    by_cases hi : cur.instanceID=e.inst
    · simp [claimed,hi,← hindex]
    · simp [claimed,hi,hindex]
  · intro inst r x hx
    by_cases hi : inst=e.inst
    · subst hi
      rcases Role.eq_or_eq_peer e.role r with rfl | rfl
      · simp only [claimed,Function.update_self,Option.some.injEq] at hx
        exact hx ▸ hc
      · refine h.index e.inst _ x ?_
        simpa [claimed] using hx
    · refine h.index inst r x ?_
      simpa [claimed,hi] using hx
  · intro x b hsx heph
    have hx : x≠id := by
      rintro rfl
      simp [claimed] at hsx
    simp only [claimed,Function.update_of_ne hx] at hsx
    exact h.unrouted x b hsx heph
  · intro r cur cur' b hs hs' heph hact halive
    rcases Role.eq_or_eq_peer e.role r with rfl | rfl
    · rw [hself,Option.some.injEq] at hs
      subst hs
      exact Or.inl (h.unrouted id b hst heph)
    rw [hother] at hs
    have hwill:=hpeer cur hs
    simp only [willOffer,Bool.or_eq_true,beq_iff_eq,List.any_eq_true,List.contains_iff_mem]
      at hwill
    rcases hwill with (hnone | ⟨env,henv,hsome⟩) | hon
    · have heph' : net.eph cur.connID=some b := heph
      rw [hnone] at heph'
      cases heph'
    · obtain ⟨b',hb'⟩:=Option.isSome_iff_exists.mp hsome
      have heph' : net.eph cur.connID=some b := heph
      rw [h.inqEph _ env henv b' hb',Option.some.injEq] at heph'
      exact Or.inl ⟨env,henv,heph' ▸ hb'⟩
    · exact Or.inr (Or.inl hon)

theorem register_eq (e : Endpoint) :
    net.register P id e=(net.announcePresence P id e).claimed P id e := by
  have hkey : P.key e.role.peer≠P.key e.role := by simp
  have hindex : (net.claimed P id e).localIndex e.inst (P.key e.role.peer) =
      net.localIndex e.inst (P.key e.role.peer) := by
    simp [claimed]
  have hlookup : (net.claimed P id e).slots.lookupInstance 0 (P.key e.role.peer) =
      net.slots.lookupInstance 0 (P.key e.role.peer) := by
    simp [claimed,Slots.lookupInstance,hkey]
  have hreg : net.register P id e=(net.claimed P id e).announcePresence P id e := by
    simp only [register,Slots.claimSlot_slots]
    rfl
  rw [hreg]
  unfold announcePresence
  rw [hindex,hlookup]
  cases net.localIndex e.inst (P.key e.role.peer) with
  | some peer => rfl
  | none =>
    cases net.slots.lookupInstance 0 (P.key e.role.peer) with
    | none => rfl
    | some inst =>
      by_cases hi : inst=e.inst
      · simp [hi]
      · simp only [ne_eq,hi,not_false_eq_true,if_true]
        rfl

theorem converging_announcePresence (h : Converging P net) (id : ConnID) (e : Endpoint) :
    Converging P (net.announcePresence P id e) := by
  unfold announcePresence
  split
  · exact converging_enqueue_plain P _ (converging_enqueue_plain P net h id _ rfl) _ _ rfl
  split
  · split
    · exact converging_enqueue_plain P net h id _ rfl
    · exact h
  · exact h

theorem announcePresence_slots (e : Endpoint) : (net.announcePresence P id e).slots=net.slots := by
  unfold announcePresence
  split
  · rfl
  split
  · split <;> rfl
  · rfl

theorem converging_register (h : Converging P net) (id : ConnID) (e : Endpoint)
    (hc : net.conns id=some e) (hst : net.stage id = .accepted)
    (hok : inStep P net (.register id)=true) : Converging P (net.register P id e) := by
  rw [register_eq]
  have hann:=converging_announcePresence P net h id e
  have hsame : (net.announcePresence P id e).conns=net.conns ∧
      (net.announcePresence P id e).stage=net.stage := by
    unfold announcePresence
    split
    · exact ⟨rfl,rfl⟩
    split
    · split <;> exact ⟨rfl,rfl⟩
    · exact ⟨rfl,rfl⟩
  refine converging_claimed P _ hann id e (by rw [hsame.1,hc]) (by rw [hsame.2,hst]) ?_
  intro cur hs
  rw [announcePresence_slots] at hs
  simp only [inStep,hc,hs,Bool.or_eq_true,beq_iff_eq] at hok
  rcases hok with hlocal | hwill
  · simp [announcePresence,hlocal,willOffer,enqueue]
  have hkeep : ∀ (n : Network) x env, n.willOffer cur.connID=true →
      (n.enqueue x env).willOffer cur.connID=true := by
    intro n x env hn
    simp only [willOffer,Bool.or_eq_true,List.contains_iff_mem] at hn ⊢
    exact hn.imp_right (mem_outq_enqueue n x cur.connID env _)
  unfold announcePresence
  split
  · exact hkeep _ _ _ (hkeep _ _ _ hwill)
  split
  · split
    · exact hkeep _ _ _ hwill
    · exact hwill
  · exact hwill

def dropped (net : Network) (id : ConnID) (e : Endpoint) : Network :=
  { net with
    slots := net.slots.releaseSlot (P.key e.role) id
    stage := Function.update net.stage id .gone
    localIndex :=
      if net.localIndex e.inst (P.key e.role) = some id then
        Function.update net.localIndex e.inst
          (Function.update (net.localIndex e.inst) (P.key e.role) none)
      else net.localIndex }

theorem dropped_localIndex (e : Endpoint) (inst : InstanceID) (r : Role) (x : ConnID) :
    (net.dropped P id e).localIndex inst (P.key r)=some x ↔
      net.localIndex inst (P.key r)=some x ∧ ¬ (inst=e.inst ∧ r=e.role ∧ x=id) := by
  by_cases hat : inst=e.inst ∧ r=e.role
  · obtain ⟨rfl,rfl⟩:=hat
    by_cases hhit : net.localIndex e.inst (P.key e.role)=some id
    · simp [dropped,hhit,eq_comm]
    · simp only [dropped,hhit,if_false,true_and]
      exact ⟨fun h => ⟨h,fun hx => hhit (hx ▸ h)⟩,fun h => h.1⟩
  have hunchanged : (net.dropped P id e).localIndex inst (P.key r) =
      net.localIndex inst (P.key r) := by
    simp only [dropped]
    split
    · by_cases hi : inst=e.inst
      · have hr : r≠e.role := fun hr => hat ⟨hi,hr⟩
        simp [hi,hr]
      · simp [hi]
    · rfl
  rw [hunchanged]
  exact ⟨fun h => ⟨h,fun hx => hat ⟨hx.1,hx.2.1⟩⟩,fun h => h.1⟩

theorem converging_dropped (h : Converging P net) (id : ConnID) (e : Endpoint)
    (hc : net.conns id=some e) : Converging P (net.dropped P id e) := by
  have hslots : ∀ key cur,(net.dropped P id e).slots key=some cur →
      net.slots key=some cur ∧ ¬ (key=P.key e.role ∧ cur.connID=id) := fun key cur hs =>
    Slots.releaseSlot_eq_some net.slots (P.key e.role) key id cur hs
  refine { h with lease := ?_, holder := ?_, index := ?_, unrouted := ?_, pending := ?_ }
  · exact fun key cur hs => h.lease key cur (hslots key cur hs).1
  · intro r cur hs
    obtain ⟨hs,hnot⟩:=hslots _ cur hs
    obtain ⟨hcur,hstage,hindex⟩:=h.holder r cur hs
    have hne : cur.connID≠id := by
      rintro rfl
      rw [hcur,Option.some.injEq] at hc
      exact hnot ⟨by rw [← hc],rfl⟩
    refine ⟨hcur,by simp [dropped,hne,hstage],?_⟩
    exact (dropped_localIndex P net id e _ r _).mpr ⟨hindex,fun hx => hne hx.2.2⟩
  · intro inst r x hx
    exact h.index inst r x ((dropped_localIndex P net id e inst r x).mp hx).1
  · intro x b hsx heph
    have hx : x≠id := by
      rintro rfl
      simp [dropped] at hsx
    simp only [dropped,Function.update_of_ne hx] at hsx
    exact h.unrouted x b hsx heph
  · intro r cur cur' b hs hs' heph hact halive
    exact h.pending r cur cur' b (hslots _ cur hs).1 (hslots _ cur' hs').1 heph hact halive

theorem converging_deregister (h : Converging P net) (id : ConnID) (e : Endpoint)
    (hc : net.conns id=some e) : Converging P (net.deregister P id e) := by
  have hdrop:=converging_dropped P net h id e hc
  have heq : net.deregister P id e=net.dropped P id e ∨
      ∃ peer,net.deregister P id e=(net.dropped P id e).enqueue peer (.sys .peerOffline) := by
    by_cases hhit : net.localIndex e.inst (P.key e.role)=some id
    · cases hp : net.localIndex e.inst (P.key e.role.peer) with
      | none =>
        left
        simp [deregister,dropped,hhit,setIndex,hp]
      | some peer =>
        right
        exact ⟨peer,by simp [deregister,dropped,hhit,setIndex,hp,enqueue]⟩
    · left
      cases hp : net.localIndex e.inst (P.key e.role.peer) with
      | none => simp [deregister,dropped,hhit,hp]
      | some peer => simp [deregister,dropped,hhit,hp]
  rcases heq with heq | ⟨peer,heq⟩
  · rw [heq]
    exact hdrop
  · rw [heq]
    exact converging_enqueue_plain P _ hdrop peer _ rfl

/-! ### Frames between the instances -/

theorem Converging.lookup_of_holder {net : Network} (h : Converging P net) {r : Role}
    {cur : Entry} (hs : net.slots (P.key r)=some cur) :
    net.slots.lookupInstance 0 (P.key r)=some cur.instanceID := by
  simp [Slots.lookupInstance,hs,h.lease _ cur hs]

theorem holds_iff : net.holds P r id=true ↔ ∃ cur,net.slots (P.key r)=some cur ∧ cur.connID=id := by
  unfold holds
  cases net.slots (P.key r) <;> simp

section Route
variable {P} {net : Network} (h : Converging P net) {id : ConnID} {e : Endpoint} {env : Envelope}
  {rest : List Envelope} (hc : net.conns id = some e) (hq : net.inq id = env :: rest)
  (hst : net.stage id = .registered)
include h hc

theorem Converging.role_of_holder {r : Role} {cur : Entry} (hs : net.slots (P.key r)=some cur)
    (hid : cur.connID=id) : r=e.role := by
  have hcur:=(h.holder r cur hs).1
  rw [hid,hc,Option.some.injEq] at hcur
  rw [hcur]

include hq hst

theorem converging_route_local (peer : ConnID)
    (hlocal : net.localIndex e.inst (P.key e.role.peer)=some peer)
    (hok : inStep P net (.route id)=true) :
    Converging P ((net.enqueue peer env).popInq id rest) := by
  have hst' : net.stage id ≠ .accepted := by simp [hst]
  have hpeer : ∀ b,env.offered=some b →
      (∃ cur,net.slots (P.key e.role)=some cur ∧ cur.connID=id) ∧
      ∃ cur,net.slots (P.key e.role.peer)=some cur ∧ cur.connID=peer := by
    intro b hb
    simp only [inStep,hc,hq,hb,hlocal,Bool.and_eq_true,holds_iff] at hok
    exact hok
  refine converging_popInq P _ (converging_enqueue P net h peer env ?_) id env rest hq hst' ?_
  · -- the receiver waits for the sender's handshake and for no other
    intro b hb r cur cur' hs hs' hid
    obtain ⟨⟨own,hown,hownid⟩,⟨_,-,-⟩⟩:=hpeer b hb
    have hindex:=h.index e.inst e.role.peer peer hlocal
    have hcur':=(h.holder r.peer cur' hs').1
    rw [hid,hindex,Option.some.injEq,Endpoint.mk.injEq] at hcur'
    have hr : r=e.role := by rw [← Role.peer_peer r,← hcur'.1,Role.peer_peer]
    rw [hr,hown,Option.some.injEq] at hs
    rw [← hs,hownid]
    exact h.inqEph id env (by simp [hq]) b hb
  · intro b hb r cur cur' hs hs' hid
    right
    obtain ⟨-,own',hown',hownid'⟩:=hpeer b hb
    have hr:=h.role_of_holder hc hs hid
    subst hr
    have hs'' : net.slots (P.key e.role.peer)=some cur' := hs'
    rw [hown',Option.some.injEq] at hs''
    rw [← hs'',hownid']
    exact lastOffer_enqueue_some net peer env _ b hb

theorem converging_route_offline (hfree : ∀ cur',net.slots (P.key e.role.peer)≠some cur') :
    Converging P ((net.enqueue id .errorPeerOffline).popInq id rest) := by
  have hst' : net.stage id ≠ .accepted := by simp [hst]
  refine converging_popInq P _ (converging_enqueue_plain P net h id _ rfl) id env rest hq hst' ?_
  intro b hb r cur cur' hs hs' hid
  have hr:=h.role_of_holder hc hs hid
  subst hr
  exact absurd hs' (hfree cur')

theorem converging_route_publish (inst : InstanceID)
    (hlook : net.slots.lookupInstance 0 (P.key e.role.peer)=some inst) :
    Converging P ((net.publish inst ⟨e.role.peer,id,env⟩).popInq id rest) := by
  have hst' : net.stage id ≠ .accepted := by simp [hst]
  have hoffEph : ∀ b,env.offered=some b → net.eph id=some b := h.inqEph id env (by simp [hq])
  refine converging_popInq P _ (converging_publish P net h inst ⟨e.role.peer,id,env⟩ hoffEph) id
    env rest hq hst' ?_
  intro b hb r cur cur' hs hs' hid
  left
  have hr:=h.role_of_holder hc hs hid
  subst hr
  have hto : inst=cur'.instanceID := by
    rw [h.lookup_of_holder P hs',Option.some.injEq] at hlook
    exact hlook.symm
  exact ⟨⟨e.role.peer,id,env⟩,
    (mem_fabric_publish net inst _ _ _).mpr (Or.inr ⟨hto.symm,rfl⟩),rfl,rfl,hb⟩

end Route

theorem converging_route (h : Converging P net) (id : ConnID) (e : Endpoint) (env : Envelope)
    (rest : List Envelope) (hc : net.conns id=some e) (hq : net.inq id=env::rest)
    (hst : net.stage id = .registered) (hok : inStep P net (.route id)=true) :
    Converging P ((net.popInq id rest).route P id e env) := by
  cases hlocal : net.localIndex e.inst (P.key e.role.peer) with
  | some peer =>
    have heq : (net.popInq id rest).route P id e env=(net.enqueue peer env).popInq id rest := by
      simp only [route,popInq,hlocal]
      rfl
    rw [heq]
    exact converging_route_local h hc hq hst peer hlocal hok
  | none =>
    cases hlook : net.slots.lookupInstance 0 (P.key e.role.peer) with
    | none =>
      have heq : (net.popInq id rest).route P id e env =
          (net.enqueue id .errorPeerOffline).popInq id rest := by
        simp only [route,popInq,hlocal,hlook]
        rfl
      rw [heq]
      refine converging_route_offline h hc hq hst fun cur' hs' => ?_
      rw [h.lookup_of_holder P hs'] at hlook
      cases hlook
    | some inst =>
      by_cases hi : inst=e.inst
      · have heq : (net.popInq id rest).route P id e env =
            (net.enqueue id .errorPeerOffline).popInq id rest := by
          simp only [route,popInq,hlocal,hlook,hi,ne_eq,not_true_eq_false,if_false]
          rfl
        rw [heq]
        -- a holder on this instance would be in the local map
        refine converging_route_offline h hc hq hst fun cur' hs' => ?_
        rw [h.lookup_of_holder P hs',Option.some.injEq] at hlook
        have hindex:=(h.holder _ cur' hs').2.2
        rw [hlook,hi,hlocal] at hindex
        cases hindex
      · have heq : (net.popInq id rest).route P id e env =
            (net.publish inst ⟨e.role.peer,id,env⟩).popInq id rest := by
          simp only [route,popInq,hlocal,hlook,ne_eq,hi,not_false_eq_true,if_true]
          rfl
        rw [heq]
        exact converging_route_publish h hc hq hst inst hlook

theorem converging_deliverLocal (h : Converging P net) (inst : InstanceID) (f : RoutedFrame)
    (rest : List RoutedFrame) (hq : net.fabric inst=f::rest)
    (hok : inStep P net (.deliverLocal inst)=true) :
    Converging P ((net.popFabric inst rest).deliverLocal P inst f) := by
  cases hlocal : net.localIndex inst (P.key f.toRole) with
  | none =>
    have heq : (net.popFabric inst rest).deliverLocal P inst f=net.popFabric inst rest := by
      simp only [deliverLocal,popFabric,hlocal]
    rw [heq]
    refine converging_popFabric P net h inst f rest hq ?_
    intro b hb r cur cur' hs hs' hi hto
    have hindex:=(h.holder _ cur' hs').2.2
    rw [hi,← hto,hlocal] at hindex
    cases hindex
  | some x =>
    have heq : (net.popFabric inst rest).deliverLocal P inst f =
        (net.enqueue x f.data).popFabric inst rest := by
      simp only [deliverLocal,popFabric,hlocal]
      rfl
    have hx:=h.index inst f.toRole x hlocal
    rw [heq]
    refine converging_popFabric P _ (converging_enqueue P net h x f.data ?_) inst f rest hq ?_
    · intro b hb r cur cur' hs hs' hid
      have hcur':=(h.holder r.peer cur' hs').1
      rw [hid,hx,Option.some.injEq,Endpoint.mk.injEq] at hcur'
      simp only [inStep,hq,hb,hlocal,holds_iff] at hok
      obtain ⟨own,hown,hownid⟩:=hok
      rw [hcur'.1,Role.peer_peer,hs,Option.some.injEq] at hown
      rw [hown,hownid]
      exact h.fabricEph inst f (by simp [hq]) b hb
    · intro b hb r cur cur' hs hs' hi hto
      have hindex:=(h.holder _ cur' hs').2.2
      rw [hi,← hto,hlocal,Option.some.injEq] at hindex
      rw [← hindex]
      exact lastOffer_enqueue_some net x f.data _ b hb

/-! ### The clients -/

def fresh (r : Role) (k : HonestKey N) : HandshakeCoordinator :=
  ⟨(P.identity r).priv,(P.identity r.peer).pub,r,k.priv,k.pub,none,none⟩

theorem handleOpen_fresh (k : HonestKey N) (mid : JavaString) (mts : Int64) :
    m.handleOpen N (P.cred r) id k.priv mid mts =
      ({ m with active := some id, handshake := some (fresh P r k) },
        [.msg (fresh P r k).handshakeFrame mid mts]) := by
  have hnew : HandshakeCoordinator.new N (P.cred r).myPrivateKey (P.cred r).peerPublicKey
      (P.cred r).role k.priv = .ok (fresh P r k) := by
    simp only [HandshakeCoordinator.new,k.publicFromPrivate,bind,Except.bind,pure,Except.pure]
    rfl
  simp only [ConnectionManager.handleOpen,hnew]

theorem fits_fresh (k : HonestKey N) : Fits P r (fresh P r k) :=
  ⟨rfl,rfl,rfl,⟨k,rfl,rfl⟩,fun b s₀ hb => by cases hb⟩

def opened (net : Network) (id : ConnID) (r : Role) (k : HonestKey N) (env : Envelope) : Network :=
  { net with
    eph := Function.update net.eph id (some k.pub)
    managers := Function.update net.managers r
      { net.managers r with active := some id, handshake := some (fresh P r k) }
    inq := Function.update net.inq id (net.inq id ++ [env]) }

section Opened
variable {P} {net : Network} {id : ConnID} {r : Role} {k : HonestKey N} {env : Envelope}

@[simp] theorem opened_active : ((net.opened P id r k env).managers r).active=some id := by
  simp [opened]

@[simp] theorem opened_peer : (net.opened P id r k env).managers r.peer=net.managers r.peer := by
  simp [opened]

@[simp] theorem opened_eph_self : (net.opened P id r k env).eph id=some k.pub := by simp [opened]

variable {x : ConnID}

theorem opened_eph_ne (hx : x≠id) : (net.opened P id r k env).eph x=net.eph x := by simp [opened,hx]

theorem opened_eph_of_some (heph : net.eph id=none) {b : Bytes} (hx : net.eph x=some b) :
    (net.opened P id r k env).eph x=some b := by
  have hne : x≠id := by
    rintro rfl
    rw [heph] at hx
    cases hx
  rw [opened_eph_ne hne,hx]

theorem mem_inq_opened {env' : Envelope} :
    env'∈(net.opened P id r k env).inq x ↔ env'∈net.inq x ∨ (x=id ∧ env'=env) := by
  by_cases hx : x=id
  · subst hx
    simp [opened]
  · simp [opened,hx]

theorem opened_lastOffer (h : Converging P net) (hx : net.eph x=none) :
    (net.opened P id r k env).lastOffer r x=net.lastOffer r x := by
  have hbefore : accepted (net.managers r) x=none :=
    accepted_of_not_active _ _ (h.not_active P hx r)
  have hafter : accepted ((net.opened P id r k env).managers r) x=none := by
    simp [accepted,opened,fresh]
  simp only [lastOffer,hbefore,hafter]
  rfl

theorem opened_pending_peer (h : Converging P net) {e : Endpoint} (hc : net.conns id=some e)
    (heph : net.eph id=none) {cur cur' : Entry} {b : Bytes}
    (hs : net.slots (P.key e.role.peer)=some cur)
    (hs' : net.slots (P.key e.role.peer.peer)=some cur')
    (hex : (net.opened P id e.role k env).eph cur.connID=some b)
    (hact : (net.managers e.role.peer).active=some cur.connID)
    (halive : (net.opened P id e.role k env).Alive e.role.peer.peer cur'.connID) :
    (net.opened P id e.role k env).Offering e.role.peer cur.connID cur'.instanceID cur'.connID
      b := by
  have hne : cur.connID≠id := h.holder_ne P hs hc (Role.peer_ne e.role).symm
  rw [opened_eph_ne hne] at hex
  have hunopened : net.eph cur'.connID=none := by
    by_cases hid : cur'.connID=id
    · rw [hid,heph]
    rcases halive with hnone | hact'
    · rwa [opened_eph_ne hid] at hnone
    · rw [Role.peer_peer,opened_active,Option.some.injEq] at hact'
      exact absurd hact'.symm hid
  have hold:=h.pending _ cur cur' b hs hs' hex hact (Or.inl hunopened)
  refine offering_of_same net _ _ _ _ _ b hold (fun env' hmem => mem_inq_opened.mpr (Or.inl hmem))
    rfl rfl ?_
  rw [Role.peer_peer]
  exact opened_lastOffer h hunopened

end Opened

theorem converging_opened (h : Converging P net) (id : ConnID) (e : Endpoint) (k : HonestKey N)
    (env : Envelope) (hc : net.conns id=some e) (heph : net.eph id=none)
    (henv : env.offered=some k.pub) : Converging P (net.opened P id e.role k env) := by
  have hsent : ∃ env'∈(net.opened P id e.role k env).inq id, env'.offered=some k.pub :=
    ⟨env,mem_inq_opened.mpr (Or.inr ⟨rfl,rfl⟩),henv⟩
  refine { h with inqEph := ?_, fabricEph := ?_, open' := ?_, closed := ?_, buffer := ?_,
                  unrouted := ?_, pending := ?_ }
  · intro x env' hx b hb
    rcases mem_inq_opened.mp hx with hold | ⟨rfl,rfl⟩
    · exact opened_eph_of_some heph (h.inqEph x env' hold b hb)
    · rw [← hb,henv,opened_eph_self]
  · intro inst f hf b hb
    exact opened_eph_of_some heph (h.fabricEph inst f hf b hb)
  · intro r x hx
    rcases Role.eq_or_eq_peer e.role r with rfl | rfl
    · rw [opened_active,Option.some.injEq] at hx
      subst hx
      exact ⟨e.inst,fresh P e.role k,hc,by simp [opened],opened_eph_self,fits_fresh P e.role k⟩
    · rw [opened_peer] at hx ⊢
      obtain ⟨inst,c,hcx,hhs,hex,hfits⟩:=h.open' _ x hx
      exact ⟨inst,c,hcx,hhs,opened_eph_of_some heph hex,hfits⟩
  · intro r hr
    rcases Role.eq_or_eq_peer e.role r with rfl | rfl
    · rw [opened_active] at hr
      cases hr
    · rw [opened_peer] at hr ⊢
      exact h.closed _ hr
  · intro r d hd
    rcases Role.eq_or_eq_peer e.role r with rfl | rfl
    · simp only [opened,Function.update_self] at hd
      exact h.buffer _ d hd
    · rw [opened_peer] at hd
      exact h.buffer _ d hd
  · intro x b hst hex
    by_cases hid : x=id
    · subst hid
      rw [opened_eph_self,Option.some.injEq] at hex
      exact hex ▸ hsent
    · rw [opened_eph_ne hid] at hex
      obtain ⟨env',hmem,hb⟩:=h.unrouted x b hst hex
      exact ⟨env',mem_inq_opened.mpr (Or.inl hmem),hb⟩
  · intro r cur cur' b hs hs' hex hact halive
    rcases Role.eq_or_eq_peer e.role r with rfl | rfl
    · rw [opened_active,Option.some.injEq] at hact
      rw [← hact,opened_eph_self,Option.some.injEq] at hex
      rw [← hact]
      exact Or.inl (hex ▸ hsent)
    · rw [opened_peer] at hact
      exact opened_pending_peer h hc heph hs hs' hex hact halive

/-! ### One client changes -/

@[simp] theorem managers_setManager : (net.setManager r m).managers r=m := by simp [setManager]

@[simp] theorem managers_setManager_peer :
    (net.setManager r m).managers r.peer=net.managers r.peer := by
  simp [setManager]

theorem converging_setManager (h : Converging P net) (r : Role) (m : ConnectionManager ConnID)
    (hactive : m.active=none ∨ m.active=(net.managers r).active)
    (hopen : ∀ x,m.active=some x → ∃ inst c,net.conns x=some ⟨r,inst⟩ ∧
      m.handshake=some c ∧ net.eph x=some c.ephPub ∧ Fits P r c)
    (hclosed : m.active=none → m.handshake=none)
    (hbuffer : ∀ d∈m.bufferedData,ConnectionManager.IsData d.1)
    (hlast : ∀ x,(net.setManager r m).Alive r x →
      (net.setManager r m).lastOffer r x=net.lastOffer r x) :
    Converging P (net.setManager r m) := by
  have hstill : ∀ x,m.active=some x → (net.managers r).active=some x := by
    intro x hx
    rcases hactive with hnone | hsame
    · rw [hnone] at hx
      cases hx
    · exact hsame ▸ hx
  refine { h with open' := ?_, closed := ?_, buffer := ?_, pending := ?_ }
  · intro r' x hx
    rcases Role.eq_or_eq_peer r r' with rfl | rfl
    · rw [managers_setManager] at hx ⊢
      exact hopen x hx
    · rw [managers_setManager_peer] at hx ⊢
      exact h.open' _ x hx
  · intro r' hx
    rcases Role.eq_or_eq_peer r r' with rfl | rfl
    · rw [managers_setManager] at hx ⊢
      exact hclosed hx
    · rw [managers_setManager_peer] at hx ⊢
      exact h.closed _ hx
  · intro r' d hd
    rcases Role.eq_or_eq_peer r r' with rfl | rfl
    · rw [managers_setManager] at hd
      exact hbuffer d hd
    · rw [managers_setManager_peer] at hd
      exact h.buffer _ d hd
  · intro r' cur cur' b hs hs' hex hact halive
    rcases Role.eq_or_eq_peer r r' with rfl | rfl
    · -- the peer, to which the handshake goes, is as before
      rw [managers_setManager] at hact
      have halive' : net.Alive r'.peer cur'.connID := by
        rcases halive with hnone | hact'
        · exact Or.inl hnone
        · rw [managers_setManager_peer] at hact'
          exact Or.inr hact'
      have hold:=h.pending _ cur cur' b hs hs' hex (hstill _ hact) halive'
      refine offering_of_same net _ _ _ _ _ b hold (fun _ hm => hm) rfl rfl ?_
      simp only [lastOffer,managers_setManager_peer]
      rfl
    · rw [managers_setManager_peer] at hact
      rw [Role.peer_peer] at halive
      have halive' : net.Alive r.peer.peer cur'.connID := by
        rw [Role.peer_peer]
        rcases halive with hnone | hact'
        · exact Or.inl hnone
        · rw [managers_setManager] at hact'
          exact Or.inr (hstill _ hact')
      have hold:=h.pending _ cur cur' b hs hs' hex hact halive'
      refine offering_of_same net _ _ _ _ _ b hold (fun _ hm => hm) rfl rfl ?_
      rw [Role.peer_peer]
      exact hlast _ halive

theorem converging_teardown (h : Converging P net) (r : Role) :
    Converging P (net.setManager r .idle) := by
  refine converging_setManager P net h r .idle (Or.inl rfl) ?_ (fun _ => rfl) ?_ ?_
  · intro x hx
    cases hx
  · intro d hd
    cases hd
  intro x halive
  have hunopened : net.eph x=none := by
    rcases halive with hnone | hact
    · exact hnone
    · rw [managers_setManager] at hact
      cases hact
  have hbefore : accepted (net.managers r) x=none :=
    accepted_of_not_active _ _ (h.not_active P hunopened r)
  simp only [lastOffer,hbefore,managers_setManager]
  rfl

theorem lastOffer_handled (a : ConnID) (c : HandshakeCoordinator) (env : Envelope)
    (res : ConnectionManager ConnID × List Envelope) (hact : (net.managers r).active=some a)
    (hhs : (net.managers r).handshake=some c)
    (hres : ConnectionManager.Handled N (net.managers r) c env res)
    (hown : env.offered=none ∨ env∈net.outq a) (x : ConnID) :
    (net.setManager r res.1).lastOffer r x=net.lastOffer r x := by
  obtain ⟨c',hc',-,hacc⟩:=hres.coord
  by_cases ha : x=a
  · cases hoff : env.offered with
    | none => simp [lastOffer,accepted,hres.active,hact,hhs,hc',hacc,hoff,setManager]
    | some b₁ =>
      -- the handshake is still queued, so what it made the coordinator accept is hidden
      have hmem : env∈net.outq a := by
        rcases hown with hnone | hmem
        · rw [hoff] at hnone
          cases hnone
        · exact hmem
      have hne : (net.outq a).filterMap Envelope.offered ≠ [] :=
        List.ne_nil_of_mem (List.mem_filterMap.mpr ⟨env,hmem,hoff⟩)
      obtain ⟨b₂,hb₂⟩:=Option.ne_none_iff_exists'.mp
        (fun hnil => hne (List.getLast?_eq_none_iff.mp hnil))
      simp only [lastOffer,ha,setManager,hb₂,Option.some_or]
  · have hnot : (net.managers r).active≠some x := by
      rw [hact]
      intro heq
      exact ha (Option.some.inj heq).symm
    simp only [lastOffer,managers_setManager,accepted_of_not_active _ _ hnot,
      accepted_of_not_active res.1 _ (hres.active ▸ hnot)]
    rfl

theorem converging_handled (h : Converging P net) (r : Role) (a : ConnID)
    (c : HandshakeCoordinator) (env : Envelope) (res : ConnectionManager ConnID × List Envelope)
    (hact : (net.managers r).active=some a) (hhs : (net.managers r).handshake=some c)
    (hres : ConnectionManager.Handled N (net.managers r) c env res)
    (hown : env.offered=none ∨ env∈net.outq a) : Converging P (net.setManager r res.1) := by
  obtain ⟨c',hc',hkeys,-⟩:=hres.coord
  refine converging_setManager P net h r res.1 (Or.inr hres.active) ?_ ?_ hres.buffer
    (fun x _ => lastOffer_handled net r a c env res hact hhs hres hown x)
  · intro x hx
    rw [hres.active] at hx
    obtain ⟨inst,d,hcx,hd,hex,hfits⟩:=h.open' _ x hx
    rw [hhs,Option.some.injEq] at hd
    subst hd
    refine ⟨inst,c',hcx,hc',by rw [hkeys.ephPub]; exact hex,?_⟩
    obtain ⟨k,hpriv,hpub⟩:=hfits.eph
    exact ⟨hkeys.idPriv.trans hfits.idPriv,hkeys.peerIdPub.trans hfits.peerIdPub,
      hkeys.myRole.trans hfits.myRole,⟨k,hkeys.ephPriv.trans hpriv,hkeys.ephPub.trans hpub⟩,
      hkeys.coherent hfits.coherent⟩
  · intro hx
    rw [hres.active,hact] at hx
    cases hx

theorem setManager_self : net.setManager r (net.managers r)=net := by simp [setManager]

theorem converging_onMessage (h : Converging P net) (id : ConnID) (e : Endpoint) (env : Envelope)
    (rest : List Envelope) (mid : JavaString) (mts : Int64) (hc : net.conns id=some e)
    (hq : net.outq id=env::rest) (hok : inStep P net (.onMessage id mid mts)=true) :
    Converging P
      (((net.setManager e.role ((net.managers e.role).handleMessage N env mid mts).1).send
        ((net.managers e.role).handleMessage N env mid mts).1.active
        ((net.managers e.role).handleMessage N env mid mts).2).popOutq id rest) := by
  have hcur : ∀ b,env.offered=some b → (net.managers e.role).active=some id := by
    intro b hb
    simp only [inStep,hc,hq,hb,Bool.or_eq_true,beq_iff_eq,reduceCtorEq,false_or] at hok
    exact hok
  have hrole : ∀ r,(net.managers r).active=some id → r=e.role := by
    intro r hact
    obtain ⟨inst,-,hcx,-⟩:=h.open' r id hact
    rw [hc,Option.some.injEq] at hcx
    rw [hcx]
  cases hact : (net.managers e.role).active with
  | none =>
    have hhs:=h.closed e.role hact
    have hres : (net.managers e.role).handleMessage N env mid mts=(net.managers e.role,[]) := by
      simp [ConnectionManager.handleMessage,hhs]
    simp only [hres,hact,setManager_self,send]
    refine converging_popOutq P net h id env rest hq ?_ ?_
    · intro _ r b hr _
      rw [hrole r hr,hact] at hr
      cases hr
    · intro b hb
      rw [hcur b hb] at hact
      cases hact
  | some a =>
    obtain ⟨inst,c,hca,hhs,hex,hfits⟩:=h.open' e.role a hact
    have hlen : c.ephPub.length=keySize := by
      obtain ⟨k,-,hpub⟩:=hfits.eph
      rw [hpub]
      exact k.pubLen
    have hres:=ConnectionManager.handleMessage_handled N (net.managers e.role) c env mid mts hhs
      hlen (h.buffer e.role)
    generalize (net.managers e.role).handleMessage N env mid mts=res at hres ⊢
    obtain ⟨c',hc',hkeys,hacc⟩:=hres.coord
    have hown : env.offered=none ∨ env∈net.outq a := by
      cases hoff : env.offered with
      | none => exact Or.inl rfl
      | some b =>
        have ha:=hcur b hoff
        rw [hact,Option.some.injEq] at ha
        exact Or.inr (by rw [ha,hq]; exact List.mem_cons_self)
    have hman:=converging_handled P net h e.role a c env res hact hhs hres hown
    have hsend : Converging P ((net.setManager e.role res.1).send res.1.active res.2) := by
      refine converging_send P _ hman _ _ ?_
      intro x hx env' hmem b hb
      rw [hres.active,hact,Option.some.injEq] at hx
      rw [← hx,hres.sent env' hmem b hb]
      exact hex
    have hsame : ∀ t envs,((net.setManager e.role res.1).send t envs).managers =
        (net.setManager e.role res.1).managers ∧
        ((net.setManager e.role res.1).send t envs).outq=net.outq ∧
        ((net.setManager e.role res.1).send t envs).conns=net.conns ∧
        ((net.setManager e.role res.1).send t envs).eph=net.eph := by
      intro t envs
      cases t <;> exact ⟨rfl,rfl,rfl,rfl⟩
    obtain ⟨hmanagers,hout,hconns,heph⟩:=hsame res.1.active res.2
    refine converging_popOutq P _ hsend id env rest (by rw [hout,hq]) ?_ ?_
    · -- the answer to `peer_online` is queued before the notice is taken
      intro hsys r b hr hb
      have hr' : r=e.role := by
        rcases Role.eq_or_eq_peer e.role r with hr' | hr'
        · exact hr'
        · rw [hmanagers,hr'] at hr
          exact hr' ▸ hrole _ (by simpa [setManager] using hr)
      subst hr'
      rw [hmanagers,managers_setManager,hres.active,hact,Option.some.injEq] at hr
      subst hr
      obtain ⟨env',hmem,hoff⟩:=hres.resent hsys
      rw [heph,hex,Option.some.injEq] at hb
      refine ⟨env',?_,hb ▸ hoff⟩
      rw [hres.active,hact]
      simp [send,hmem]
    · intro b hb r inst' hcx
      rw [hconns,hc,Option.some.injEq] at hcx
      subst hcx
      rw [hmanagers,managers_setManager]
      have ha:=hcur b hb
      simp [accepted,hres.active,ha,hc',hacc,hb]

/-! ### Every step, every run -/

theorem converging_next (a : Step N) (h : Converging P net) (hok : inStep P net a=true) :
    Converging P (net.next P a) := by
  cases a with
  | accept id role inst =>
    simp only [next]
    split
    next hnone => exact converging_accept P net h id ⟨role,inst⟩ hnone
    next => exact h
  | onOpen id k mid mts =>
    simp only [next]
    split
    next e hc =>
      split
      next heph =>
        have hoff:=ConnectionManager.offered_handshakeFrame (fresh P e.role k) mid mts k.pubLen
        rw [handleOpen_fresh]
        exact converging_opened P net h id e k _ hc heph hoff
      next => exact h
    next => exact h
  | register id =>
    simp only [next]
    split
    next e hc =>
      split
      next hst => exact converging_register P net h id e hc hst hok
      next => exact h
    next => exact h
  | deregister id =>
    simp only [next]
    split
    next e hc =>
      split
      next hst => exact converging_deregister P net h id e hc
      next => exact h
    next => exact h
  | route id =>
    simp only [next]
    split
    next e env rest hc hq =>
      split
      next hst => exact converging_route P net h id e env rest hc hq hst hok
      next => exact h
    next => exact h
  | deliverLocal inst =>
    simp only [next]
    split
    next f rest hq => exact converging_deliverLocal P net h inst f rest hq hok
    next => exact h
  | onMessage id mid mts =>
    simp only [next]
    split
    next e env rest hc hq =>
      split
      next heph =>
        have hstep:=converging_onMessage P net h id e env rest mid mts hc hq hok
        revert hstep
        generalize (net.managers e.role).handleMessage N env mid mts=res
        intro hstep
        cases hact : res.1.active with
        | none =>
          rw [hact] at hstep
          exact hstep
        | some a =>
          rw [hact] at hstep
          exact hstep
      next => exact h
    next => exact h
  | write role payload mid mts =>
    simp only [next]
    split
    next hoff =>
      refine converging_send P net h _ _ ?_
      intro x _ env henv b hb
      rw [List.mem_singleton] at henv
      rw [henv] at hb
      simp only [Envelope.offered,hoff,reduceCtorEq] at hb
    next => exact h
  | teardown role => exact converging_teardown P net h role

theorem converging_run (as : List (Step N))
    (hg : Machine.Guarded (next P) (fun net a => inStep P net a=true) empty as) :
    Converging P (Machine.run (next P) empty as) :=
  Machine.guarded_invariant (next P) _ (Converging P)
    (fun net a h hok => converging_next P net a h hok) empty as (converging_empty P) hg

/-- Both clients' current sessions are registered and hold their slots, and every
queued or published frame has been processed. -/
structure Quiescent (net : Network) : Prop where
  current : ∀ r, ∃ cur, net.slots (P.key r) = some cur ∧
    (net.managers r).active = some cur.connID ∧ net.stage cur.connID = .registered ∧
    net.inq cur.connID = [] ∧ net.outq cur.connID = []
  fabric : ∀ inst, net.fabric inst = []

theorem Converging.accepted_peer {net : Network} (h : Converging P net) (hq : Quiescent P net)
    (r : Role) :
    ∃ c c',(net.managers r).handshake=some c ∧ Fits P r c ∧
      (net.managers r.peer).handshake=some c' ∧ c'.sessionPeerEphPub=some c.ephPub := by
  obtain ⟨cur,hs,hact,-,hinq,hout⟩:=hq.current r
  obtain ⟨cur',hs',hact',-,hinq',hout'⟩:=hq.current r.peer
  obtain ⟨inst,c,-,hhs,heph,hfits⟩:=h.open' r _ hact
  obtain ⟨inst',c',-,hhs',-,-⟩:=h.open' r.peer _ hact'
  refine ⟨c,c',hhs,hfits,hhs',?_⟩
  rcases h.pending r cur cur' c.ephPub hs hs' heph hact (Or.inr hact') with h1 | h2 | h3 | h4
  · simp [hinq] at h1
  · simp [hout] at h2
  · simp [hq.fabric] at h3
  · simpa [lastOffer,hout',accepted,hact',hhs'] using h4

/-- Handshake convergence: in every run whose steps all meet `inStep`, every quiescent
state has both coordinators complete, and each side sends with the key the other side
receives with. -/
theorem handshake_converges (hN : X25519Agrees N) (as : List (Step N))
    (hg : Machine.Guarded (next P) (fun net a => inStep P net a = true) empty as)
    (hq : Quiescent P (Machine.run (next P) empty as)) :
    ∃ cm cd sm sd,
      ((Machine.run (next P) empty as).managers .mobile).handshake = some cm ∧
      ((Machine.run (next P) empty as).managers .desktop).handshake = some cd ∧
      cm.session = some sm ∧ cd.session = some sd ∧
      sm.sendKey = sd.recvKey ∧ sm.recvKey=sd.sendKey := by
  have h := converging_run P as hg
  obtain ⟨cm,cd,hm,hfm,hd,hcd⟩ := h.accepted_peer P hq .mobile
  obtain ⟨cd',cm',hd',hfd,hm',hcm⟩ := h.accepted_peer P hq .desktop
  have hd'' : some cd = some cd' := hd.symm.trans hd'
  have hm'' : some cm = some cm' := hm.symm.trans hm'
  rw [Option.some.injEq] at hd'' hm''
  subst hd'' hm''
  obtain ⟨km,hpriv,hpub⟩ := hfm.eph
  obtain ⟨kd,hpriv',hpub'⟩ := hfd.eph
  obtain ⟨s₀,t₀,hs₀,ht₀,hsend,hrecv⟩ := create_agree hN P.mobile P.desktop km kd
  have hrekey : cm.rekey N cd.ephPub = .ok s₀ := by
    rw [HandshakeCoordinator.rekey,hfm.idPriv,hfm.peerIdPub,hpriv,hpub',hfm.myRole]
    exact hs₀
  have hrekey' : cd.rekey N cm.ephPub = .ok t₀ := by
    rw [HandshakeCoordinator.rekey,hfd.idPriv,hfd.peerIdPub,hpriv',hpub,hfd.myRole]
    exact ht₀
  obtain ⟨sm,hsm,hsmSend,hsmRecv⟩ := hfm.coherent _ s₀ hcm hrekey
  obtain ⟨sd,hsd,hsdSend,hsdRecv⟩ := hfd.coherent _ t₀ hcd hrekey'
  refine ⟨cm,cd,sm,sd,hm,hd,hsm,hsd,?_,?_⟩
  · rw [hsmSend,hsdRecv,hsend]
  · rw [hsmRecv,hsdSend,hrecv]

/-! ### A phone and a laptop on two relays -/

def sampleIdentity (b : UInt8) (h : isAllZero (List.replicate keySize b) = false) :
    HonestKey transparent where
  priv := List.replicate keySize b
  pub := List.replicate keySize b
  privLen := by simp
  pubLen := by simp
  isPub := by simp [transparent,h]

def samplePairing : Pairing transparent :=
  ⟨"pair-1",sampleIdentity 1 (by decide),sampleIdentity 2 (by decide)⟩

def sameRelay : List (Step transparent) :=
  [.accept "m" .mobile "relay-1",.register "m",.onOpen "m" (sampleIdentity 3 (by decide)) "h1" 0,
    .route "m",.accept "d" .desktop "relay-1",.register "d",
    .onOpen "d" (sampleIdentity 4 (by decide)) "h2" 0,.route "d",.onMessage "d" "h3" 0,
    .route "d",.onMessage "m" "h4" 0,.onMessage "m" "h5" 0,.onMessage "m" "h6" 0,.route "m",
    .onMessage "m" "h7" 0,.onMessage "d" "h8" 0]

/- On two relays: the phone's handshake is lost before the laptop connects, and only the
laptop is told that its peer is online. -/
def twoRelays : List (Step transparent) :=
  [.accept "m" .mobile "relay-1",.register "m",.onOpen "m" (sampleIdentity 3 (by decide)) "h1" 0,
    .route "m",.onMessage "m" "h2" 0,.accept "d" .desktop "relay-2",.register "d",
    .onOpen "d" (sampleIdentity 4 (by decide)) "h3" 0,.route "d",.deliverLocal "relay-1",
    .onMessage "d" "h4" 0,.route "d",.deliverLocal "relay-1",.onMessage "m" "h5" 0,
    .onMessage "m" "h6" 0]

theorem sameRelay_quiescent :
    Quiescent samplePairing (Machine.run (next samplePairing) empty sameRelay) where
  current r := by
    cases r with
    | mobile => exact ⟨⟨"m","relay-1",1⟩,by decide +kernel⟩
    | desktop => exact ⟨⟨"d","relay-1",1⟩,by decide +kernel⟩
  fabric _ := rfl

theorem handshake_converges_sameRelay :
    ∃ cm cd sm sd,
      ((Machine.run (next samplePairing) empty sameRelay).managers .mobile).handshake = some cm ∧
      ((Machine.run (next samplePairing) empty sameRelay).managers .desktop).handshake = some cd ∧
      cm.session = some sm ∧ cd.session = some sd ∧
      sm.sendKey = sd.recvKey ∧ sm.recvKey=sd.sendKey :=
  handshake_converges samplePairing transparent_x25519 sameRelay (by decide +kernel)
    sameRelay_quiescent

theorem twoRelays_quiescent :
    Quiescent samplePairing (Machine.run (next samplePairing) empty twoRelays) where
  current r := by
    cases r with
    | mobile => exact ⟨⟨"m","relay-1",1⟩,by decide +kernel⟩
    | desktop => exact ⟨⟨"d","relay-2",1⟩,by decide +kernel⟩
  fabric inst := by
    by_cases hi : inst = "relay-1"
    · subst hi
      decide +kernel
    have hfabric : (Machine.run (next samplePairing) empty twoRelays).fabric =
        Function.update (Function.update (Function.update (Function.update (fun _ => [])
          "relay-1" _) "relay-1" _) "relay-1" _) "relay-1" _ := rfl
    rw [hfabric]
    simp [hi]

theorem desktop_never_completes :
    X25519Agrees transparent ∧
    Quiescent samplePairing (Machine.run (next samplePairing) empty twoRelays) ∧
    ((Machine.run (next samplePairing) empty twoRelays).managers .desktop).handshake.map
      HandshakeCoordinator.isComplete = some false :=
  ⟨transparent_x25519,twoRelays_quiescent,by decide +kernel⟩

end Network
end SecureGateway.Relay
