import SecureGateway.Relay.Network

/-!
# Handshakes under way

`inStep` is the condition under which handshakes converge, and `Converging` the invariant it
keeps, which follows the handshake of the slot's holder to the holder of the other slot. This
module has the effect of adding a frame to a queue and of taking one from it.
-/

namespace SecureGateway.Relay
open E2ee Sdk

namespace Network
variable {N : Native} (P : Pairing N)

/-! ### The condition on steps -/

def willOffer (net : Network) (id : ConnID) : Bool :=
  net.eph id == none || (net.inq id).any (fun env => env.offered.isSome) ||
    (net.outq id).contains (.sys .peerOnline)

def holds (net : Network) (r : Role) (id : ConnID) : Bool :=
  match net.slots (P.key r) with
  | some cur => cur.connID == id
  | none => false

/-- A connection registers beside a peer that will be asked for its handshake or has
it still to send, a handshake is handed over from holder to holder, and a client takes
handshakes from its current transport only. -/
def inStep (net : Network) : Step N → Bool
  | .register id =>
    match net.conns id with
    | some e =>
      match net.slots (P.key e.role.peer) with
      | some cur =>
        net.localIndex e.inst (P.key e.role.peer) == some cur.connID || net.willOffer cur.connID
      | none => true
    | none => true
  | .route id =>
    match net.conns id, net.inq id with
    | some e, env :: _ =>
      match env.offered, net.localIndex e.inst (P.key e.role.peer) with
      | some _, some peer => net.holds P e.role id && net.holds P e.role.peer peer
      | _, _ => true
    | _, _ => true
  | .deliverLocal inst =>
    match net.fabric inst with
    | f :: _ =>
      match f.data.offered, net.localIndex inst (P.key f.toRole) with
      | some _, some _ => net.holds P f.toRole.peer f.fromConn
      | _, _ => true
    | [] => true
  | .onMessage id _ _ =>
    match net.conns id, net.outq id with
    | some e, env :: _ => env.offered == none || (net.managers e.role).active == some id
    | _, _ => true
  | _ => true

/-! ### The handshake under way -/

def accepted (m : ConnectionManager ConnID) (id : ConnID) : Option Bytes :=
  if m.active = some id then m.handshake.bind (·.sessionPeerEphPub) else none

/-- The ephemeral a client will have accepted once it has read what is queued for it. -/
def lastOffer (net : Network) (r : Role) (id : ConnID) : Option Bytes :=
  ((net.outq id).filterMap Envelope.offered).getLast?.or (accepted (net.managers r) id)

/-- The handshake `b` of connection `id` of role `r` is on its way to connection `id'`
of the other role, or has arrived there last. -/
def Offering (net : Network) (r : Role) (id : ConnID) (inst' : InstanceID) (id' : ConnID)
    (b : Bytes) : Prop :=
  (∃ env ∈ net.inq id, env.offered = some b) ∨
  .sys .peerOnline ∈ net.outq id ∨
  (∃ f ∈ net.fabric inst', f.fromConn=id ∧ f.toRole=r.peer ∧ f.data.offered = some b) ∨
  net.lastOffer r.peer id' = some b

/-- The connection is, or can still become, the one its client works on. -/
def Alive (net : Network) (r : Role) (id : ConnID) : Prop :=
  net.eph id = none ∨ (net.managers r).active = some id

structure Fits (r : Role) (c : HandshakeCoordinator) : Prop where
  idPriv : c.idPriv = (P.identity r).priv
  peerIdPub : c.peerIdPub = (P.identity r.peer).pub
  myRole : c.myRole=r
  eph : ∃ k : HonestKey N, c.ephPriv=k.priv ∧ c.ephPub=k.pub
  coherent : Coherent N c

structure Converging (net : Network) : Prop where
  lease : ∀ key cur, net.slots key = some cur → 0<cur.expiresAt
  holder : ∀ r cur, net.slots (P.key r) = some cur →
    net.conns cur.connID = some ⟨r,cur.instanceID⟩ ∧ net.stage cur.connID = .registered ∧
      net.localIndex cur.instanceID (P.key r) = some cur.connID
  index : ∀ inst r id, net.localIndex inst (P.key r) = some id → net.conns id = some ⟨r,inst⟩
  /- handshakes on their way are those of the connection they came from -/
  inqEph : ∀ id, ∀ env ∈ net.inq id, ∀ b, env.offered = some b → net.eph id = some b
  fabricEph : ∀ inst, ∀ f ∈ net.fabric inst, ∀ b, f.data.offered = some b →
    net.eph f.fromConn = some b
  open' : ∀ r id, (net.managers r).active = some id →
    ∃ inst c, net.conns id = some ⟨r,inst⟩ ∧ (net.managers r).handshake = some c ∧
      net.eph id = some c.ephPub ∧ Fits P r c
  closed : ∀ r, (net.managers r).active = none → (net.managers r).handshake = none
  buffer : ∀ r, ∀ d ∈ (net.managers r).bufferedData, ConnectionManager.IsData d.1
  /- nothing is routed before registration -/
  unrouted : ∀ id b, net.stage id = .accepted → net.eph id = some b →
    ∃ env ∈ net.inq id, env.offered = some b
  pending : ∀ r cur cur' b, net.slots (P.key r) = some cur → net.slots (P.key r.peer) = some cur' →
    net.eph cur.connID = some b → (net.managers r).active = some cur.connID →
    net.Alive r.peer cur'.connID →
    net.Offering r cur.connID cur'.instanceID cur'.connID b

theorem converging_empty : Converging P empty where
  lease key cur h := by cases h
  holder r cur h := by cases h
  index inst r id h := by cases h
  inqEph id env h := by cases h
  fabricEph inst f h := by cases h
  open' r id h := by cases h
  closed r _ := rfl
  buffer r d h := by cases h
  unrouted id b _ h := by cases h
  pending r cur cur' b h := by cases h

theorem offering_of_same (net net' : Network) (r : Role) (id : ConnID) (inst' : InstanceID)
    (id' : ConnID) (b : Bytes) (h : net.Offering r id inst' id' b)
    (hinq : ∀ env∈net.inq id,env∈net'.inq id) (hout : net'.outq id=net.outq id)
    (hfab : net'.fabric=net.fabric) (hlast : net'.lastOffer r.peer id'=net.lastOffer r.peer id') :
    net'.Offering r id inst' id' b := by
  rcases h with ⟨env,hmem,hb⟩ | h2 | h3 | h4
  · exact Or.inl ⟨env,hinq env hmem,hb⟩
  · exact Or.inr (Or.inl (hout ▸ h2))
  · exact Or.inr (Or.inr (Or.inl (hfab ▸ h3)))
  · exact Or.inr (Or.inr (Or.inr (hlast.trans h4)))

/-! ### Adding frames -/

variable (net : Network)

theorem lastOffer_enqueue_none (x id : ConnID) (env : Envelope) (r : Role)
    (h : env.offered=none) : (net.enqueue x env).lastOffer r id=net.lastOffer r id := by
  by_cases hx : id=x
  · subst hx
    simp [lastOffer,enqueue,h]
  · simp [lastOffer,enqueue,hx]

theorem lastOffer_enqueue_ne (x id : ConnID) (env : Envelope) (r : Role) (hx : id≠x) :
    (net.enqueue x env).lastOffer r id=net.lastOffer r id := by
  simp [lastOffer,enqueue,hx]

theorem lastOffer_enqueue_some (x : ConnID) (env : Envelope) (r : Role) (b : Bytes)
    (h : env.offered=some b) : (net.enqueue x env).lastOffer r x=some b := by
  simp [lastOffer,enqueue,h]

theorem mem_outq_enqueue (x id : ConnID) (env env' : Envelope) (h : env'∈net.outq id) :
    env'∈(net.enqueue x env).outq id := by
  by_cases hx : id=x
  · subst hx
    simp [enqueue,h]
  · simpa [enqueue,hx] using h

theorem offering_enqueue (x : ConnID) (env : Envelope) (r : Role) (id : ConnID)
    (inst' : InstanceID) (id' : ConnID) (b : Bytes) (h : net.Offering r id inst' id' b)
    (hlast : env.offered=none ∨ id'≠x ∨ env.offered=some b) :
    (net.enqueue x env).Offering r id inst' id' b := by
  rcases h with h | h | h | h
  · exact Or.inl h
  · exact Or.inr (Or.inl (mem_outq_enqueue net x id env _ h))
  · exact Or.inr (Or.inr (Or.inl h))
  refine Or.inr (Or.inr (Or.inr ?_))
  rcases hlast with hnone | hne | hsome
  · rw [lastOffer_enqueue_none net x id' env _ hnone]
    exact h
  · rw [lastOffer_enqueue_ne net x id' env _ hne]
    exact h
  · by_cases hx : id'=x
    · subst hx
      exact lastOffer_enqueue_some net id' env _ b hsome
    · rw [lastOffer_enqueue_ne net x id' env _ hx]
      exact h

theorem converging_enqueue (h : Converging P net) (x : ConnID) (env : Envelope)
    (hx : ∀ b₀,env.offered=some b₀ → ∀ r cur cur',net.slots (P.key r)=some cur →
      net.slots (P.key r.peer)=some cur' → cur'.connID=x → net.eph cur.connID=some b₀) :
    Converging P (net.enqueue x env) := by
  refine { h with pending := ?_ }
  intro r cur cur' b hs hs' heph hact halive
  refine offering_enqueue net x env r _ _ _ b (h.pending r cur cur' b hs hs' heph hact halive) ?_
  cases hoff : env.offered with
  | none => exact Or.inl rfl
  | some b₀ =>
    by_cases hid : cur'.connID=x
    · have hb:=hx b₀ hoff r cur cur' hs hs' hid
      exact Or.inr (Or.inr (hb.symm.trans heph))
    · exact Or.inr (Or.inl hid)

theorem converging_enqueue_plain (h : Converging P net) (x : ConnID) (env : Envelope)
    (hx : env.offered=none) : Converging P (net.enqueue x env) :=
  converging_enqueue P net h x env fun b₀ hb => by
    rw [hx] at hb
    cases hb

theorem converging_send (h : Converging P net) (t : Option ConnID) (envs : List Envelope)
    (hsend : ∀ id,t=some id → ∀ env∈envs,∀ b,env.offered=some b → net.eph id=some b) :
    Converging P (net.send t envs) := by
  cases t with
  | none => exact h
  | some a =>
    have hmono : ∀ id,∀ env∈net.inq id,env∈(net.send (some a) envs).inq id := by
      intro id env henv
      by_cases hid : id=a
      · subst hid
        simp [send,henv]
      · simpa [send,hid] using henv
    refine { h with inqEph := ?_, unrouted := ?_, pending := ?_ }
    · intro id env henv b hb
      by_cases hid : id=a
      · subst hid
        simp only [send,Function.update_self,List.mem_append] at henv
        rcases henv with hold | hnew
        · exact h.inqEph id env hold b hb
        · exact hsend id rfl env hnew b hb
      · simp only [send,Function.update_of_ne hid] at henv
        exact h.inqEph id env henv b hb
    · intro id b hst heph
      obtain ⟨env,henv,hb⟩:=h.unrouted id b hst heph
      exact ⟨env,hmono id env henv,hb⟩
    · intro r cur cur' b hs hs' heph hact halive
      rcases h.pending r cur cur' b hs hs' heph hact halive with ⟨env,henv,hb⟩ | hrest
      · exact Or.inl ⟨env,hmono _ env henv,hb⟩
      · exact Or.inr hrest

def publish (net : Network) (inst : InstanceID) (f : RoutedFrame) : Network :=
  { net with fabric := Function.update net.fabric inst (net.fabric inst ++ [f]) }

theorem mem_fabric_publish (inst inst' : InstanceID) (f g : RoutedFrame) :
    g∈(net.publish inst f).fabric inst' ↔ g∈net.fabric inst' ∨ (inst'=inst ∧ g=f) := by
  by_cases hi : inst'=inst
  · subst hi
    simp [publish]
  · simp [publish,hi]

theorem converging_publish (h : Converging P net) (inst : InstanceID) (f : RoutedFrame)
    (hf : ∀ b,f.data.offered=some b → net.eph f.fromConn=some b) :
    Converging P (net.publish inst f) := by
  refine { h with fabricEph := ?_, pending := ?_ }
  · intro i g hg b hb
    rcases (mem_fabric_publish net inst i f g).mp hg with hold | ⟨-,rfl⟩
    · exact h.fabricEph i g hold b hb
    · exact hf b hb
  intro r cur cur' b hs hs' heph hact halive
  rcases h.pending r cur cur' b hs hs' heph hact halive with h1 | h2 | ⟨g,hg,hrest⟩ | h4
  · exact Or.inl h1
  · exact Or.inr (Or.inl h2)
  · exact Or.inr (Or.inr (Or.inl
      ⟨g,(mem_fabric_publish net inst cur'.instanceID f g).mpr (Or.inl hg),hrest⟩))
  · exact Or.inr (Or.inr (Or.inr h4))

/-! ### Taking frames

Each taking step is seen as the addition of what it causes, followed by the removal of
the frame; the removal is safe once the frame's handshake is covered elsewhere. -/

def popInq (net : Network) (id : ConnID) (rest : List Envelope) : Network :=
  { net with inq := Function.update net.inq id rest }

def popFabric (net : Network) (inst : InstanceID) (rest : List RoutedFrame) : Network :=
  { net with fabric := Function.update net.fabric inst rest }

def popOutq (net : Network) (id : ConnID) (rest : List Envelope) : Network :=
  { net with outq := Function.update net.outq id rest }

theorem converging_popInq (h : Converging P net) (id : ConnID) (env : Envelope)
    (rest : List Envelope) (hq : net.inq id=env::rest) (hst : net.stage id ≠ .accepted)
    (hcov : ∀ b,env.offered=some b → ∀ r cur cur',net.slots (P.key r)=some cur →
      net.slots (P.key r.peer)=some cur' → cur.connID=id →
      (∃ f∈net.fabric cur'.instanceID,f.fromConn=id ∧ f.toRole=r.peer ∧
        f.data.offered=some b) ∨ net.lastOffer r.peer cur'.connID=some b) :
    Converging P (net.popInq id rest) := by
  refine { h with inqEph := ?_, unrouted := ?_, pending := ?_ }
  · intro x env' henv b hb
    by_cases hx : x=id
    · subst hx
      simp only [popInq,Function.update_self] at henv
      exact h.inqEph x env' (by simp [hq,henv]) b hb
    · simp only [popInq,Function.update_of_ne hx] at henv
      exact h.inqEph x env' henv b hb
  · intro x b hsx heph
    have hx : x≠id := by
      rintro rfl
      exact hst hsx
    simpa only [popInq,Function.update_of_ne hx] using h.unrouted x b hsx heph
  · intro r cur cur' b hs hs' heph hact halive
    rcases h.pending r cur cur' b hs hs' heph hact halive with ⟨env',henv,hb⟩ | hrest
    · by_cases hid : cur.connID=id
      · rw [hid,hq,List.mem_cons] at henv
        rcases henv with rfl | hrest
        · rcases hcov b hb r cur cur' hs hs' hid with hf | hl
          · exact Or.inr (Or.inr (Or.inl (hid ▸ hf)))
          · exact Or.inr (Or.inr (Or.inr hl))
        · exact Or.inl ⟨env',by simpa [popInq,hid] using hrest,hb⟩
      · exact Or.inl ⟨env',by simpa [popInq,hid] using henv,hb⟩
    · exact Or.inr hrest

theorem converging_popFabric (h : Converging P net) (inst : InstanceID) (f : RoutedFrame)
    (rest : List RoutedFrame) (hq : net.fabric inst=f::rest)
    (hcov : ∀ b,f.data.offered=some b → ∀ r cur cur',net.slots (P.key r)=some cur →
      net.slots (P.key r.peer)=some cur' → cur'.instanceID=inst → f.toRole=r.peer →
      net.lastOffer r.peer cur'.connID=some b) : Converging P (net.popFabric inst rest) := by
  have hsub : ∀ i,∀ g∈(net.popFabric inst rest).fabric i, g∈net.fabric i := by
    intro i g hg
    by_cases hi : i=inst
    · subst hi
      simp only [popFabric,Function.update_self] at hg
      simp [hq,hg]
    · simpa only [popFabric,Function.update_of_ne hi] using hg
  refine { h with fabricEph := ?_, pending := ?_ }
  · intro i g hg b hb
    exact h.fabricEph i g (hsub i g hg) b hb
  intro r cur cur' b hs hs' heph hact halive
  rcases h.pending r cur cur' b hs hs' heph hact halive with h1 | h2 | ⟨g,hg,hconn,hrole,hb⟩ | h4
  · exact Or.inl h1
  · exact Or.inr (Or.inl h2)
  · by_cases hi : cur'.instanceID=inst
    · rw [hi,hq,List.mem_cons] at hg
      rcases hg with rfl | hrest
      · exact Or.inr (Or.inr (Or.inr (hcov b hb r cur cur' hs hs' hi hrole)))
      · exact Or.inr (Or.inr (Or.inl ⟨g,by simpa [popFabric,hi] using hrest,hconn,hrole,hb⟩))
    · exact Or.inr (Or.inr (Or.inl ⟨g,by simpa [popFabric,hi] using hg,hconn,hrole,hb⟩))
  · exact Or.inr (Or.inr (Or.inr h4))

theorem lastOffer_popOutq (id x : ConnID) (env : Envelope) (rest : List Envelope) (r : Role)
    (hq : net.outq id=env::rest)
    (hacc : ∀ b,env.offered=some b → x=id → accepted (net.managers r) id=some b) :
    (net.popOutq id rest).lastOffer r x=net.lastOffer r x := by
  by_cases hx : x=id
  · subst hx
    simp only [lastOffer,popOutq,Function.update_self,hq,List.filterMap_cons]
    cases hoff : env.offered with
    | none => rfl
    | some b =>
      simp only [List.getLast?_cons]
      cases hlast : (rest.filterMap Envelope.offered).getLast? with
      | none => simp [hacc b hoff rfl]
      | some b' => simp
  · simp [lastOffer,popOutq,hx]

theorem converging_popOutq (h : Converging P net) (id : ConnID) (env : Envelope)
    (rest : List Envelope) (hq : net.outq id=env::rest)
    (hsys : env = .sys .peerOnline → ∀ r b,(net.managers r).active=some id →
      net.eph id=some b → ∃ env'∈net.inq id,env'.offered=some b)
    (hacc : ∀ b,env.offered=some b → ∀ r inst,net.conns id=some ⟨r,inst⟩ →
      accepted (net.managers r) id=some b) : Converging P (net.popOutq id rest) := by
  refine { h with pending := ?_ }
  intro r cur cur' b hs hs' heph hact halive
  rcases h.pending r cur cur' b hs hs' heph hact halive with h1 | h2 | h3 | h4
  · exact Or.inl h1
  · by_cases hid : cur.connID=id
    · rw [hid,hq,List.mem_cons] at h2
      rcases h2 with rfl | hrest
      · have hact' : (net.managers r).active=some id := hid ▸ hact
        obtain ⟨env',henv,hb⟩:=hsys rfl r b hact' (hid ▸ heph)
        exact Or.inl ⟨env',hid ▸ henv,hb⟩
      · exact Or.inr (Or.inl (by simpa [popOutq,hid] using hrest))
    · exact Or.inr (Or.inl (by simpa [popOutq,hid] using h2))
  · exact Or.inr (Or.inr (Or.inl h3))
  · refine Or.inr (Or.inr (Or.inr ?_))
    rw [lastOffer_popOutq net id cur'.connID env rest r.peer hq ?_]
    · exact h4
    · rintro b' hb' hid
      exact hacc b' hb' r.peer cur'.instanceID (hid ▸ (h.holder r.peer cur' hs').1)

end Network
end SecureGateway.Relay
