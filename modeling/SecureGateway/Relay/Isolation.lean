import SecureGateway.Relay.Ownership
import SecureGateway.Relay.Traffic

/-!
# Isolation, integrity and order of relayed frames

What a session sends to another goes past the local map if both live on one instance, and
through the fabric otherwise; on either way frames stay in order, and both ends address by
pair and role. `Faithful` is the invariant; the numbers in `inTransit` only ever increase.
-/

namespace SecureGateway.Relay
namespace Traffic
variable {Text : Type} (cfg : Config Text)

/-! ### What no step takes back -/

structure Extends (w w' : Traffic Text) : Prop where
  reads : ∀ id, w.reads id <+: w'.reads id
  sessions : ∀ id c, w.hub.sessions id = some c →
    ∃ c', w'.hub.sessions id = some c' ∧ c'.key=c.key ∧ c'.inst=c.inst

theorem record_reads (w : Traffic Text) (x id : ConnID) (data : E2ee.Bytes) :
    w.reads id <+: (w.record x data).reads id := by
  by_cases hx : id=x
  · subst hx
    simp [record]
  · simp [record,Function.update_of_ne hx]

theorem hub_sessions (st : State) (a : Relay.Step) (id : ConnID) (c : Session)
    (hc : st.sessions id=some c) :
    ∃ c',(st.next cfg.ttl a).sessions id=some c' ∧ c'.key=c.key ∧ c'.inst=c.inst := by
  obtain ⟨c',hc',hkey,hinst,-⟩ :=
    State.moves_session cfg.ttl st _ a (State.next_moves cfg.ttl st a) id c hc
  exact ⟨c',hc',hkey,hinst⟩

theorem moves_extends (w w' : Traffic Text) (a : Step) (hm : Moves cfg w a w') : Extends w w' := by
  have same : ∀ id c,w.hub.sessions id=some c →
      ∃ c',w.hub.sessions id=some c' ∧ c'.key=c.key ∧ c'.inst=c.inst :=
    fun id c hc => ⟨c,hc,rfl,rfl⟩
  cases hm with
  | hub a => exact ⟨fun _ => List.prefix_rfl,hub_sessions cfg w.hub a⟩
  | read x data p hp hf => exact ⟨fun id => record_reads w x id data,same⟩
  | rejected x data hp => exact ⟨fun id => record_reads w x id data,hub_sessions cfg w.hub _⟩
  | refused x peer pick pick' => exact ⟨fun _ => List.prefix_rfl,hub_sessions cfg w.hub _⟩
  | _ => exact ⟨fun _ => List.prefix_rfl,same⟩

/-! ### Facts about frames under way -/

def Genuine (w : Traffic Text) (src : ConnID) (f : Frame) : Prop :=
  ∃ r, (w.reads src)[f.seq]? = some r ∧ r.data=f.data

def Foreign (w : Traffic Text) (src : ConnID) (inst : InstanceID) : Prop :=
  ∃ c, w.hub.sessions src = some c ∧ c.inst≠inst

/-- `dest` has the slot opposite to that of `src`, and lives on `inst`. -/
def Opposite (w : Traffic Text) (src dest : ConnID) (inst : InstanceID) : Prop :=
  ∃ c d, w.hub.sessions src = some c ∧ w.hub.sessions dest = some d ∧ d.key=c.key.peer ∧
    d.inst = inst

def Carries (w : Traffic Text) (src : ConnID) (p : Packet Text) : Prop :=
  ∃ c f, w.hub.sessions src = some c ∧ p = ⟨f.seq,cfg.json.marshal (routed src c f)⟩ ∧
    w.Genuine src f

variable {w w' : Traffic Text} {src : ConnID}

theorem Extends.read (he : Extends w w') {seq : ℕ} {r : Read} (hr : (w.reads src)[seq]? = some r) :
    (w'.reads src)[seq]? = some r := by
  obtain ⟨more,hmore⟩:=he.reads src
  have hlt:=(List.getElem?_eq_some_iff.mp hr).1
  rw [← hmore,List.getElem?_append_left hlt,hr]

theorem Genuine.mono (he : Extends w w') {f : Frame} (h : w.Genuine src f) : w'.Genuine src f := by
  obtain ⟨r,hr,hdata⟩:=h
  exact ⟨r,he.read hr,hdata⟩

variable {inst : InstanceID}

theorem Foreign.mono (he : Extends w w') (h : w.Foreign src inst) : w'.Foreign src inst := by
  obtain ⟨c,hc,hne⟩:=h
  obtain ⟨c',hc',-,hinst⟩:=he.sessions src c hc
  exact ⟨c',hc',hinst ▸ hne⟩

theorem Opposite.mono (he : Extends w w') {src dest : ConnID} (h : w.Opposite src dest inst) :
    w'.Opposite src dest inst := by
  obtain ⟨c,d,hc,hd,hkey,hinst⟩:=h
  obtain ⟨c',hc',hck,-⟩:=he.sessions src c hc
  obtain ⟨d',hd',hdk,hdi⟩:=he.sessions dest d hd
  exact ⟨c',d',hc',hd',by rw [hdk,hck,hkey],hdi.trans hinst⟩

theorem Carries.mono (he : Extends w w') {p : Packet Text} (h : w.Carries cfg src p) :
    w'.Carries cfg src p := by
  obtain ⟨c,f,hc,hp,hf⟩:=h
  obtain ⟨c',hc',hkey,-⟩:=he.sessions src c hc
  refine ⟨c',f,hc',?_,hf.mono he⟩
  rw [hp,routed,routed,hkey]

theorem not_foreign {w : Traffic Text} {c : Session} (hc : w.hub.sessions src=some c) :
    ¬ w.Foreign src c.inst := by
  rintro ⟨d,hd,hne⟩
  rw [hc,Option.some.injEq] at hd
  exact hne (by rw [hd])

/-! ### What is under way from one session to another -/

def arrived (w : Traffic Text) (src dest : ConnID) : List ℕ :=
  ((w.received dest).filter (·.src == src)).map (·.frame.seq)

def inHand (w : Traffic Text) (src : ConnID) (inst : InstanceID) : List ℕ :=
  ((w.handling inst).filter (·.src == src)).toList.map (·.frame.seq)

def inFabric (w : Traffic Text) (src : ConnID) (inst : InstanceID) : List ℕ :=
  (w.fabric src inst).map (·.seq)

def inPump (w : Traffic Text) (src : ConnID) : List ℕ :=
  (w.pump src).frame.toList.map (·.seq)

def inTransit (w : Traffic Text) (src dest : ConnID) (inst : InstanceID) : List ℕ :=
  w.arrived src dest ++ (w.inHand src inst ++ (w.inFabric src inst ++ w.inPump src))

def Placed (w : Traffic Text) (id : ConnID) (inst : InstanceID) : Prop :=
  ∀ d, w.hub.sessions id = some d → d.inst=inst

theorem Placed.of_extends (he : Extends w w') {id : ConnID} (h : w'.Placed id inst) :
    w.Placed id inst := by
  intro d hd
  obtain ⟨d',hd',-,hinst⟩:=he.sessions id d hd
  rw [← hinst]
  exact h d' hd'

structure Faithful (w : Traffic Text) : Prop where
  tracked : w.hub.Tracked
  pump : ∀ id f, (w.pump id).frame = some f → w.Genuine id f
  enqueueing : ∀ id f dest, w.pump id = .enqueueing f dest →
    ∃ c, w.hub.sessions id = some c ∧ w.Opposite id dest c.inst
  publishing : ∀ id f inst, w.pump id = .publishing f inst → w.Foreign id inst
  fabric : ∀ id inst, ∀ p ∈ w.fabric id inst, w.Foreign id inst ∧ w.Carries cfg id p
  handling : ∀ inst h, w.handling inst = some h →
    w.Foreign h.src inst ∧ w.Opposite h.src h.dest inst ∧ w.Genuine h.src h.frame
  received : ∀ dest, ∀ d ∈ w.received dest,
    (∃ inst, w.Opposite d.src dest inst) ∧ w.Genuine d.src d.frame
  order : ∀ src dest inst, w.Placed dest inst →
    (w.inTransit src dest inst).Sublist (List.range (w.reads src).length)

theorem faithful_empty : Faithful cfg (empty : Traffic Text) where
  tracked := State.tracked_empty
  pump id f h := by cases h
  enqueueing id f dest h := by cases h
  publishing id f inst h := by cases h
  fabric id inst p h := by cases h
  handling inst h hh := by cases hh
  received dest d h := by cases h
  order src dest inst _ := List.nil_sublist _

/-! ### Where each piece of the state comes from -/

/-- How the read pump of `id` can stand after a step. -/
inductive PumpMove (w : Traffic Text) (a : Step) (w' : Traffic Text) (id : ConnID) : Pump → Prop
  | same : PumpMove w a w' id (w.pump id)
  | done (p : Pump) (hp : p.frame=none) : PumpMove w a w' id p
  | read (data : E2ee.Bytes)
      (hr : w'.reads id = w.reads id ++ [⟨data,(w.hub.closed id).isSome⟩]) :
      PumpMove w a w' id (.routing ⟨(w.reads id).length,data⟩)
  | found (c : Session) (f : Frame) (peer : ConnID) (ha : a = .load id)
      (hc : w.hub.sessions id = some c) (hp : w.pump id = .routing f)
      (hl : w.hub.localIndex c.inst c.key.peer = some peer) :
      PumpMove w a w' id (.enqueueing f peer)
  | absent (f : Frame) (hp : w.pump id = .routing f) : PumpMove w a w' id (.lookingUp f)
  | lookup (c : Session) (f : Frame) (now : Int) (pick : Bool) (inst : InstanceID)
      (ha : a = .lookup id now false pick) (hc : w.hub.sessions id = some c)
      (hp : w.pump id = .lookingUp f) (hr : w.route cfg c now = some inst) :
      PumpMove w a w' id (.publishing f inst)

theorem moves_pump (w w' : Traffic Text) (a : Step) (hm : Moves cfg w a w') (id : ConnID) :
    PumpMove cfg w a w' id (w'.pump id) := by
  have set : ∀ x p,(id=x → PumpMove cfg w a w' id p) →
      PumpMove cfg w a w' id (Function.update w.pump x p id) := by
    intro x p hp
    by_cases hx : id=x
    · rw [hx,Function.update_self,← hx]
      exact hp hx
    · rw [Function.update_of_ne hx]
      exact .same
  cases hm with
  | read x data p hp hf =>
    refine set x p ?_
    rintro rfl
    rcases hf with rfl | rfl
    · exact .done _ rfl
    · exact .read data (by simp [setPump,record])
  | rejected x data hp => exact set x .stopped fun _ => .done _ rfl
  | readFails x => exact set x .stopped fun _ => .done _ rfl
  | found x c f peer hc hp hl =>
    refine set x _ ?_
    rintro rfl
    exact .found c f peer rfl hc hp hl
  | absent x f hp =>
    refine set x _ ?_
    rintro rfl
    exact .absent f hp
  | enqueued x f peer pick pick' hp => exact set x .reading fun _ => .done _ rfl
  | refused x peer pick pick' => exact set x .reading fun _ => .done _ rfl
  | lookup x c f now pick inst hc hp hr =>
    refine set x _ ?_
    rintro rfl
    exact .lookup c f now pick inst rfl hc hp hr
  | peerOffline _ x pick => exact set x .reading fun _ => .done _ rfl
  | publish x c f inst pick hc hp => exact set x .reading fun _ => .done _ rfl
  | _ => exact .same

theorem moves_enqueueing (w w' : Traffic Text) (a : Step) (hm : Moves cfg w a w') (id : ConnID)
    (f : Frame) (dest : ConnID) (hf : w'.pump id = .enqueueing f dest) :
    w.pump id = .enqueueing f dest ∨
      ∃ c,a = .load id ∧ w.hub.sessions id=some c ∧ w.pump id = .routing f ∧
        w.hub.localIndex c.inst c.key.peer=some dest := by
  have hp:=moves_pump cfg w w' a hm id
  rw [hf] at hp
  generalize hq : Pump.enqueueing f dest=p at hp
  cases hp with
  | same => exact Or.inl rfl
  | done _ hnone =>
    subst hq
    cases hnone
  | found c g peer ha hc hp hl =>
    cases hq
    exact Or.inr ⟨c,ha,hc,hp,hl⟩
  | _ => cases hq

theorem moves_publishing (w w' : Traffic Text) (a : Step) (hm : Moves cfg w a w') (id : ConnID)
    (f : Frame) (inst : InstanceID) (hf : w'.pump id = .publishing f inst) :
    w.pump id = .publishing f inst ∨
      ∃ c now pick,a = .lookup id now false pick ∧ w.hub.sessions id=some c ∧
        w.pump id = .lookingUp f ∧ w.route cfg c now=some inst := by
  have hp:=moves_pump cfg w w' a hm id
  rw [hf] at hp
  generalize hq : Pump.publishing f inst=p at hp
  cases hp with
  | same => exact Or.inl rfl
  | done _ hnone =>
    subst hq
    cases hnone
  | lookup c g now pick i ha hc hp hr =>
    cases hq
    exact Or.inr ⟨c,now,pick,ha,hc,hp,hr⟩
  | _ => cases hq

theorem moves_fabric (w w' : Traffic Text) (a : Step) (hm : Moves cfg w a w') (id : ConnID)
    (inst : InstanceID) (p : Packet Text) (h : p∈w'.fabric id inst) :
    p∈w.fabric id inst ∨
      ∃ c f,w.hub.sessions id=some c ∧ w.pump id = .publishing f inst ∧
        p=⟨f.seq,cfg.json.marshal (routed id c f)⟩ := by
  have set : ∀ x i ps,p∈Function.update w.fabric x (Function.update (w.fabric x) i ps) id inst →
      p∈w.fabric id inst ∨ (id=x ∧ inst=i ∧ p∈ps) := by
    intro x i ps hmem
    by_cases hx : id=x
    · subst hx
      rw [Function.update_self] at hmem
      by_cases hi : inst=i
      · subst hi
        rw [Function.update_self] at hmem
        exact Or.inr ⟨rfl,rfl,hmem⟩
      · rw [Function.update_of_ne hi] at hmem
        exact Or.inl hmem
    · rw [Function.update_of_ne hx] at hmem
      exact Or.inl hmem
  cases hm with
  | publish x c f i pick hc hp =>
    rcases set x i _ h with hold | ⟨rfl,rfl,hmem⟩
    · exact Or.inl hold
    rcases List.mem_append.mp hmem with hold | hnew
    · exact Or.inl hold
    · exact Or.inr ⟨c,f,hc,hp,List.mem_singleton.mp hnew⟩
  | lose x i n =>
    rcases set x i _ h with hold | ⟨rfl,rfl,hmem⟩
    · exact Or.inl hold
    · exact Or.inl (List.mem_of_mem_eraseIdx hmem)
  | receive i x q rest hh hf =>
    rcases set x i _ h with hold | ⟨rfl,rfl,hmem⟩
    · exact Or.inl hold
    · exact Or.inl (hf ▸ List.mem_cons_of_mem q hmem)
  | _ => exact Or.inl h

theorem loaded_src (w : Traffic Text) (inst : InstanceID) (id : ConnID) (p : Packet Text)
    (h : Handling) (hl : w.loaded cfg inst id p=some h) : h.src=id ∧ h.frame.seq=p.seq := by
  unfold loaded at hl
  split at hl
  next f hf =>
    obtain ⟨dest,-,rfl⟩:=Option.map_eq_some_iff.mp hl
    exact ⟨rfl,rfl⟩
  next => cases hl

theorem moves_handling (w w' : Traffic Text) (a : Step) (hm : Moves cfg w a w')
    (inst : InstanceID) (h : Handling) (hh : w'.handling inst=some h) :
    w.handling inst=some h ∨ ∃ p∈w.fabric h.src inst,w.loaded cfg inst h.src p=some h := by
  have set : ∀ i v,Function.update w.handling i v inst=some h →
      w.handling inst=some h ∨ (inst=i ∧ v=some h) := by
    intro i v hv
    by_cases hi : inst=i
    · subst hi
      rw [Function.update_self] at hv
      exact Or.inr ⟨rfl,hv⟩
    · rw [Function.update_of_ne hi] at hv
      exact Or.inl hv
  cases hm with
  | receive i x p rest hnone hf =>
    rcases set i _ hh with hold | ⟨rfl,hl⟩
    · exact Or.inl hold
    · obtain ⟨rfl,-⟩:=loaded_src cfg w inst x p h hl
      exact Or.inr ⟨p,hf ▸ List.mem_cons_self,hl⟩
  | handed i g pick hg =>
    rcases set i none hh with hold | ⟨-,hnone⟩
    · exact Or.inl hold
    · cases hnone
  | dropped i pick =>
    rcases set i none hh with hold | ⟨-,hnone⟩
    · exact Or.inl hold
    · cases hnone
  | _ => exact Or.inl hh

theorem mem_received_deliver (w : Traffic Text) (x dest : ConnID) (e d : Delivery)
    (h : d∈(w.deliver x e).received dest) : d∈w.received dest ∨ (dest=x ∧ d=e) := by
  simp only [deliver] at h
  by_cases hx : dest=x
  · subst hx
    rw [Function.update_self] at h
    rcases List.mem_append.mp h with hold | hnew
    · exact Or.inl hold
    · exact Or.inr ⟨rfl,List.mem_singleton.mp hnew⟩
  · rw [Function.update_of_ne hx] at h
    exact Or.inl h

theorem moves_received (w w' : Traffic Text) (a : Step) (hm : Moves cfg w a w') (dest : ConnID)
    (d : Delivery) (h : d∈w'.received dest) :
    d∈w.received dest ∨ w.pump d.src = .enqueueing d.frame dest ∨
      ∃ inst g,w.handling inst=some g ∧ g.dest=dest ∧ d=⟨g.src,g.frame⟩ := by
  cases hm with
  | enqueued x f peer pick pick' hp =>
    rcases mem_received_deliver w peer dest ⟨x,f⟩ d h with hold | ⟨rfl,rfl⟩
    · exact Or.inl hold
    · exact Or.inr (Or.inl hp)
  | handed inst g pick hg =>
    rcases mem_received_deliver (w.setHandling inst none) g.dest dest ⟨g.src,g.frame⟩ d h with
      hold | ⟨rfl,hd⟩
    · exact Or.inl hold
    · exact Or.inr (Or.inr ⟨inst,g,hg,rfl,hd⟩)
  | _ => exact Or.inl h

/-! ### Isolation and integrity -/

section Steps
variable {w w' : Traffic Text} {a : Step} (hm : Moves cfg w a w') (h : Faithful cfg w)
include hm h

theorem tracked_moves : w'.hub.Tracked := by
  cases hm with
  | hub a => exact State.tracked_next cfg.ttl w.hub a h.tracked
  | rejected x data hp => exact State.tracked_next cfg.ttl w.hub (.close x .protocol) h.tracked
  | refused x peer pick pick' =>
    exact State.tracked_next cfg.ttl w.hub (.close peer .protocol) h.tracked
  | _ => exact h.tracked

variable (id : ConnID)

theorem pump_moves (f : Frame) (hf : (w'.pump id).frame=some f) : w'.Genuine id f := by
  have he:=moves_extends cfg w w' a hm
  have hp:=moves_pump cfg w w' a hm id
  generalize w'.pump id=p at hp hf
  cases hp with
  | same => exact (h.pump id f hf).mono he
  | done _ hnone => cases hnone.symm.trans hf
  | read data hr =>
    cases hf
    exact ⟨⟨data,(w.hub.closed id).isSome⟩,by simp [hr],rfl⟩
  | found c g peer _ _ hp _ =>
    cases hf
    exact (h.pump id f (by rw [hp]; rfl)).mono he
  | absent g hp =>
    cases hf
    exact (h.pump id f (by rw [hp]; rfl)).mono he
  | lookup c g now pick inst _ _ hp _ =>
    cases hf
    exact (h.pump id f (by rw [hp]; rfl)).mono he

theorem enqueueing_moves (f : Frame) (dest : ConnID) (hf : w'.pump id = .enqueueing f dest) :
    ∃ c,w'.hub.sessions id=some c ∧ w'.Opposite id dest c.inst := by
  have he:=moves_extends cfg w w' a hm
  suffices hold : ∃ c,w.hub.sessions id=some c ∧ w.Opposite id dest c.inst by
    obtain ⟨c,hc,hopp⟩:=hold
    obtain ⟨c',hc',-,hinst⟩:=he.sessions id c hc
    exact ⟨c',hc',hinst ▸ hopp.mono he⟩
  rcases moves_enqueueing cfg w w' a hm id f dest hf with hold | ⟨c,-,hc,-,hl⟩
  · exact h.enqueueing id f dest hold
  · obtain ⟨d,hd,hkey,hinst,-⟩:=h.tracked.index c.inst c.key.peer dest hl
    exact ⟨c,hc,c,d,hc,hd,hkey,hinst⟩

theorem publishing_moves (f : Frame) (inst : InstanceID) (hf : w'.pump id = .publishing f inst) :
    w'.Foreign id inst := by
  have he:=moves_extends cfg w w' a hm
  rcases moves_publishing cfg w w' a hm id f inst hf with hold | ⟨c,now,pick,-,hc,-,hr⟩
  · exact (h.publishing id f inst hold).mono he
  have hne : c.inst≠inst := by
    rw [route,Option.filter_eq_some_iff] at hr
    simp only [Bool.and_eq_true,bne_iff_ne] at hr
    exact hr.2.2.symm
  exact Foreign.mono he ⟨c,hc,hne⟩

theorem fabric_moves (inst : InstanceID) (p : Packet Text) (hp : p∈w'.fabric id inst) :
    w'.Foreign id inst ∧ w'.Carries cfg id p := by
  have he:=moves_extends cfg w w' a hm
  rcases moves_fabric cfg w w' a hm id inst p hp with hold | ⟨c,f,hc,hpump,hnew⟩
  · obtain ⟨hfor,hcar⟩:=h.fabric id inst p hold
    exact ⟨hfor.mono he,hcar.mono cfg he⟩
  · have hgen : w.Genuine id f := h.pump id f (by rw [hpump]; rfl)
    exact ⟨(h.publishing id f inst hpump).mono he,Carries.mono cfg he ⟨c,f,hc,hnew,hgen⟩⟩

end Steps

theorem Faithful.loaded {w : Traffic Text} (h : Faithful cfg w) {p : Packet Text} {g : Handling}
    (hp : p∈w.fabric src inst) (hl : w.loaded cfg inst src p=some g) :
    w.Opposite src g.dest inst ∧ w.Genuine src g.frame := by
  obtain ⟨-,c,f,hc,rfl,hgen⟩:=h.fabric src inst p hp
  simp only [Traffic.loaded,cfg.json.unmarshal_marshal,routed,Option.map_eq_some_iff] at hl
  obtain ⟨dest,hidx,rfl⟩:=hl
  obtain ⟨d,hd,hkey,hinst,-⟩:=h.tracked.index inst _ dest hidx
  exact ⟨⟨c,d,hc,hd,hkey,hinst⟩,hgen⟩

theorem handling_moves {a : Step} (hm : Moves cfg w a w') (h : Faithful cfg w) (inst : InstanceID)
    (g : Handling) (hg : w'.handling inst=some g) :
    w'.Foreign g.src inst ∧ w'.Opposite g.src g.dest inst ∧ w'.Genuine g.src g.frame := by
  have he:=moves_extends cfg w w' a hm
  rcases moves_handling cfg w w' a hm inst g hg with hold | ⟨p,hp,hl⟩
  · obtain ⟨hfor,hopp,hgen⟩:=h.handling inst g hold
    exact ⟨hfor.mono he,hopp.mono he,hgen.mono he⟩
  · obtain ⟨hopp,hgen⟩:=h.loaded cfg hp hl
    exact ⟨(h.fabric g.src inst p hp).1.mono he,hopp.mono he,hgen.mono he⟩

theorem received_moves {a : Step} (hm : Moves cfg w a w') (h : Faithful cfg w) (dest : ConnID)
    (d : Delivery) (hd : d∈w'.received dest) :
    (∃ inst,w'.Opposite d.src dest inst) ∧ w'.Genuine d.src d.frame := by
  have he:=moves_extends cfg w w' a hm
  rcases moves_received cfg w w' a hm dest d hd with hold | hpump | ⟨inst,g,hg,rfl,rfl⟩
  · obtain ⟨⟨inst,hopp⟩,hgen⟩:=h.received dest d hold
    exact ⟨⟨inst,hopp.mono he⟩,hgen.mono he⟩
  · obtain ⟨c,-,hopp⟩:=h.enqueueing d.src d.frame dest hpump
    have hgen : w.Genuine d.src d.frame := h.pump d.src d.frame (by rw [hpump]; rfl)
    exact ⟨⟨c.inst,hopp.mono he⟩,hgen.mono he⟩
  · obtain ⟨-,hopp,hgen⟩:=h.handling inst g hg
    exact ⟨⟨inst,hopp.mono he⟩,hgen.mono he⟩

/-! ### Order -/

theorem arrived_deliver (w : Traffic Text) (x src dest : ConnID) (d : Delivery) :
    (w.deliver x d).arrived src dest =
      w.arrived src dest++if dest=x ∧ d.src=src then [d.frame.seq] else [] := by
  by_cases hx : dest=x
  · subst hx
    by_cases hs : d.src=src <;> simp [arrived,deliver,hs]
  · simp [arrived,deliver,hx]

theorem inHand_setHandling (w : Traffic Text) (src : ConnID) (i inst : InstanceID)
    (v : Option Handling) :
    (w.setHandling i v).inHand src inst =
      if inst=i then (v.filter (·.src == src)).toList.map (·.frame.seq)
      else w.inHand src inst := by
  by_cases hi : inst=i
  · subst hi
    simp [inHand,setHandling]
  · simp [inHand,setHandling,hi]

theorem inFabric_setFabric (w : Traffic Text) (x src : ConnID) (i inst : InstanceID)
    (ps : List (Packet Text)) :
    (w.setFabric x i ps).inFabric src inst =
      if src=x ∧ inst=i then ps.map (·.seq) else w.inFabric src inst := by
  by_cases hx : src=x
  · subst hx
    by_cases hi : inst=i
    · subst hi
      simp [inFabric,setFabric]
    · simp [inFabric,setFabric,hi]
  · simp [inFabric,setFabric,hx]

theorem inPump_setPump (w : Traffic Text) (x src : ConnID) (p : Pump) :
    (w.setPump x p).inPump src =
      if src=x then p.frame.toList.map (·.seq) else w.inPump src := by
  by_cases hx : src=x
  · subst hx
    simp [inPump,setPump]
  · simp [inPump,setPump,hx]

theorem inPump_setPump_sublist (w : Traffic Text) (x src : ConnID) (p : Pump)
    (hp : p.frame=none ∨ p.frame=(w.pump x).frame) :
    ((w.setPump x p).inPump src).Sublist (w.inPump src) := by
  rw [inPump_setPump]
  split
  next hx =>
    subst hx
    rcases hp with hp | hp
    · simp [hp]
    · rw [hp]
      exact List.Sublist.refl _
  next => exact List.Sublist.refl _

theorem inTransit_sublist {src dest : ConnID}
    (ha : (w'.arrived src dest).Sublist (w.arrived src dest))
    (hh : (w'.inHand src inst).Sublist (w.inHand src inst))
    (hf : (w'.inFabric src inst).Sublist (w.inFabric src inst))
    (hp : (w'.inPump src).Sublist (w.inPump src)) :
    (w'.inTransit src dest inst).Sublist (w.inTransit src dest inst) :=
  ha.append (hh.append (hf.append hp))

theorem Faithful.fabric_own {w : Traffic Text} (h : Faithful cfg w) {c : Session}
    (hc : w.hub.sessions src=some c) : w.fabric src c.inst = [] := by
  cases hf : w.fabric src c.inst with
  | nil => rfl
  | cons p rest =>
    have hfor:=(h.fabric src c.inst p (hf ▸ List.mem_cons_self)).1
    exact absurd hfor (not_foreign hc)

theorem Faithful.inHand_own {w : Traffic Text} (h : Faithful cfg w) {c : Session}
    (hc : w.hub.sessions src=some c) : w.inHand src c.inst = [] := by
  unfold inHand
  cases hh : w.handling c.inst with
  | none => rfl
  | some g =>
    have hne : g.src≠src := by
      rintro rfl
      exact not_foreign hc (h.handling c.inst g hh).1
    simp [Option.filter,hne]

theorem Opposite.placed {w : Traffic Text} {src dest : ConnID} {i inst : InstanceID}
    (ho : w.Opposite src dest i) (hat : w.Placed dest inst) : inst=i := by
  obtain ⟨-,d,-,hd,-,hinst⟩:=ho
  rw [← hat d hd,hinst]

section Transit
variable {w : Traffic Text} (h : Faithful cfg w) (src dest : ConnID) (inst : InstanceID)
include h

theorem transit_enqueued (hat : w.Placed dest inst) (x : ConnID) (f : Frame) (peer : ConnID)
    (hp : w.pump x = .enqueueing f peer) :
    (((w.deliver peer ⟨x,f⟩).setPump x .reading).inTransit src dest inst).Sublist
      (w.inTransit src dest inst) := by
  have hdel:=arrived_deliver w peer src dest ⟨x,f⟩
  have hset:=inPump_setPump (w.deliver peer ⟨x,f⟩) x src .reading
  by_cases hto : dest=peer ∧ x=src
  · obtain ⟨rfl,rfl⟩:=hto
    obtain ⟨c,hc,hopp⟩:=h.enqueueing x f dest hp
    obtain rfl : inst=c.inst := hopp.placed hat
    have hpump : w.inPump x = [f.seq] := by simp [inPump,hp,Pump.frame]
    have hfab : w.inFabric x c.inst = [] := by simp [inFabric,h.fabric_own cfg hc]
    have hhand : w.inHand x c.inst = [] := h.inHand_own cfg hc
    simp only [and_self,if_true] at hdel hset
    show ((w.deliver dest ⟨x,f⟩).arrived x dest++(w.inHand x c.inst ++
      (w.inFabric x c.inst ++ _))).Sublist _
    rw [hset,hdel,inTransit,hpump,hfab,hhand]
    simp [Pump.frame]
  · simp only [hto,if_false,List.append_nil] at hdel
    refine inTransit_sublist (hdel ▸ List.Sublist.refl _) (List.Sublist.refl _)
      (List.Sublist.refl _) ?_
    exact inPump_setPump_sublist (w.deliver peer ⟨x,f⟩) x src .reading (Or.inl rfl)

omit h in
theorem transit_publish (x : ConnID) (f : Frame) (i : InstanceID) (text : Text)
    (hp : w.pump x = .publishing f i) :
    (((w.setFabric x i (w.fabric x i ++ [⟨f.seq,text⟩])).setPump x .reading).inTransit
      src dest inst).Sublist (w.inTransit src dest inst) := by
  have hfab:=inFabric_setFabric w x src i inst (w.fabric x i ++ [⟨f.seq,text⟩])
  have hset:=inPump_setPump (w.setFabric x i (w.fabric x i ++ [⟨f.seq,text⟩])) x src .reading
  by_cases hto : src=x ∧ inst=i
  · obtain ⟨rfl,rfl⟩:=hto
    have hpump : w.inPump src = [f.seq] := by simp [inPump,hp,Pump.frame]
    simp only [and_self,if_true] at hfab hset
    show (w.arrived src dest++(w.inHand src inst ++
      ((w.setFabric src inst _).inFabric src inst ++ _))).Sublist _
    rw [hset,hfab,inTransit,hpump]
    simp [Pump.frame,inFabric]
  · simp only [hto,if_false] at hfab
    refine inTransit_sublist (List.Sublist.refl _) (List.Sublist.refl _)
      (hfab ▸ List.Sublist.refl _) ?_
    exact inPump_setPump_sublist (w.setFabric x i _) x src .reading (Or.inl rfl)

omit h in
theorem loaded_sublist (i : InstanceID) (x : ConnID) (p : Packet Text) :
    (((w.loaded cfg i x p).filter (·.src == src)).toList.map (·.frame.seq)).Sublist
      (if src=x then [p.seq] else []) := by
  cases hl : w.loaded cfg i x p with
  | none => simp
  | some g =>
    obtain ⟨rfl,hseq⟩:=loaded_src cfg w i x p g hl
    by_cases hx : src=g.src
    · simp [Option.filter,hx,hseq]
    · simp [Option.filter,Ne.symm hx]

omit h in
theorem transit_receive (i : InstanceID) (x : ConnID) (p : Packet Text)
    (rest : List (Packet Text)) (hnone : w.handling i=none) (hf : w.fabric x i=p::rest) :
    (((w.setFabric x i rest).setHandling i (w.loaded cfg i x p)).inTransit src dest inst).Sublist
      (w.inTransit src dest inst) := by
  have hhand:=inHand_setHandling (w.setFabric x i rest) src i inst (w.loaded cfg i x p)
  have hfab:=inFabric_setFabric w x src i inst rest
  have hload:=loaded_sublist cfg (w := w) src i x p
  by_cases hi : inst=i
  · subst hi
    have hempty : w.inHand src inst = [] := by simp [inHand,hnone]
    show (w.arrived src dest++(((w.setFabric x inst rest).setHandling inst _).inHand src inst ++
      ((w.setFabric x inst rest).inFabric src inst++w.inPump src))).Sublist _
    rw [hhand,hfab,inTransit,hempty,List.nil_append,if_pos rfl]
    refine (List.Sublist.refl _).append ?_
    rw [← List.append_assoc]
    refine List.Sublist.append ?_ (List.Sublist.refl _)
    by_cases hx : src=x
    · subst hx
      rw [if_pos rfl] at hload
      simp only [and_self,if_true]
      have hold : w.inFabric src inst = [p.seq]++rest.map (·.seq) := by simp [inFabric,hf]
      rw [hold]
      exact hload.append (List.Sublist.refl _)
    · rw [if_neg hx] at hload
      simp only [hx,false_and,if_false]
      exact hload.append (List.Sublist.refl _)
  · simp only [hi,and_false,if_false] at hhand hfab
    exact inTransit_sublist (List.Sublist.refl _) (hhand ▸ List.Sublist.refl _)
      (hfab ▸ List.Sublist.refl _) (List.Sublist.refl _)

theorem transit_handed (hat : w.Placed dest inst) (i : InstanceID) (g : Handling)
    (hg : w.handling i=some g) :
    (((w.setHandling i none).deliver g.dest ⟨g.src,g.frame⟩).inTransit src dest inst).Sublist
      (w.inTransit src dest inst) := by
  have hdel:=arrived_deliver (w.setHandling i none) g.dest src dest ⟨g.src,g.frame⟩
  have hhand:=inHand_setHandling w src i inst none
  by_cases hto : dest=g.dest ∧ g.src=src
  · obtain ⟨rfl,rfl⟩:=hto
    obtain ⟨-,hopp,-⟩:=h.handling i g hg
    obtain rfl : inst=i := hopp.placed hat
    have hold : w.inHand g.src inst = [g.frame.seq] := by simp [inHand,hg,Option.filter]
    simp only [and_self,if_true] at hdel hhand
    show (((w.setHandling inst none).deliver _ _).arrived g.src g.dest ++
      ((w.setHandling inst none).inHand g.src inst++(w.inFabric g.src inst ++
        w.inPump g.src))).Sublist _
    rw [hdel,hhand,inTransit,hold]
    simp only [Option.filter_none,Option.toList_none,List.map_nil,List.nil_append,
      List.append_assoc]
    exact List.Sublist.refl _
  · simp only [hto,if_false,List.append_nil] at hdel
    refine inTransit_sublist (hdel ▸ List.Sublist.refl _) ?_ (List.Sublist.refl _)
      (List.Sublist.refl _)
    show ((w.setHandling i none).inHand src inst).Sublist _
    rw [hhand]
    split
    · simp
    · exact List.Sublist.refl _

theorem transit_read (hat : w.Placed dest inst) (x : ConnID) (data : E2ee.Bytes) (p : Pump)
    (hp : w.pump x = .reading) (hf : p.frame=none ∨ p.frame=some ⟨(w.reads x).length,data⟩) :
    (((w.record x data).setPump x p).inTransit src dest inst).Sublist
      (List.range (((w.record x data).setPump x p).reads src).length) := by
  have hold:=h.order src dest inst hat
  have hset:=inPump_setPump (w.record x data) x src p
  by_cases hx : src=x
  · subst hx
    have hlen : (((w.record src data).setPump src p).reads src).length =
        (w.reads src).length+1 := by
      simp [setPump,record]
    have hempty : w.inPump src = [] := by simp [inPump,hp,Pump.frame]
    have hnew : (((w.record src data).setPump src p).inPump src).Sublist
        [(w.reads src).length] := by
      rw [hset,if_pos rfl]
      rcases hf with hf | hf <;> simp [hf]
    have heq : ((w.record src data).setPump src p).inTransit src dest inst =
        w.inTransit src dest inst++((w.record src data).setPump src p).inPump src := by
      simp only [inTransit,hempty,List.append_nil,List.append_assoc]
      rfl
    rw [hlen,heq,List.range_succ]
    exact hold.append hnew
  · rw [if_neg hx] at hset
    have hreads : ((w.record x data).setPump x p).reads src=w.reads src := by
      simp [setPump,record,hx]
    rw [hreads]
    refine List.Sublist.trans ?_ hold
    exact inTransit_sublist (List.Sublist.refl _) (List.Sublist.refl _) (List.Sublist.refl _)
      (hset ▸ List.Sublist.refl _)

end Transit

theorem order_moves {a : Step} (hm : Moves cfg w a w') (h : Faithful cfg w) (src dest : ConnID)
    (inst : InstanceID) (hat' : w'.Placed dest inst) :
    (w'.inTransit src dest inst).Sublist (List.range (w'.reads src).length) := by
  have hat : w.Placed dest inst := hat'.of_extends (moves_extends cfg w w' a hm)
  have hold:=h.order src dest inst hat
  -- a pump that keeps or drops its frame, everything else unchanged
  have pumped : ∀ x p,p.frame=none ∨ p.frame=(w.pump x).frame →
      ((w.setPump x p).inTransit src dest inst).Sublist (List.range (w.reads src).length) := by
    intro x p hp
    refine List.Sublist.trans ?_ hold
    exact inTransit_sublist (List.Sublist.refl _) (List.Sublist.refl _) (List.Sublist.refl _)
      (inPump_setPump_sublist w x src p hp)
  cases hm with
  | read x data p hp hf =>
    refine transit_read cfg h src dest inst hat x data p hp ?_
    rcases hf with rfl | rfl
    · exact Or.inl rfl
    · exact Or.inr rfl
  | rejected x data hp => exact transit_read cfg h src dest inst hat x data .stopped hp (Or.inl rfl)
  | readFails x => exact pumped x .stopped (Or.inl rfl)
  | found x c f peer hc hp hl => exact pumped x _ (Or.inr (by rw [hp]; rfl))
  | absent x f hp => exact pumped x _ (Or.inr (by rw [hp]; rfl))
  | enqueued x f peer pick pick' hp =>
    exact (transit_enqueued cfg h src dest inst hat x f peer hp).trans hold
  | refused x peer pick pick' => exact pumped x .reading (Or.inl rfl)
  | lookup x c f now pick i hc hp hr => exact pumped x _ (Or.inr (by rw [hp]; rfl))
  | peerOffline _ x pick => exact pumped x .reading (Or.inl rfl)
  | publish x c f i pick hc hp => exact (transit_publish src dest inst x f i _ hp).trans hold
  | lose x i n =>
    refine List.Sublist.trans ?_ hold
    refine inTransit_sublist (List.Sublist.refl _) (List.Sublist.refl _) ?_ (List.Sublist.refl _)
    rw [inFabric_setFabric]
    split
    next hx =>
      rw [hx.1,hx.2]
      exact (List.eraseIdx_sublist _ n).map _
    next => exact List.Sublist.refl _
  | receive i x p rest hh hf =>
    exact (transit_receive cfg src dest inst i x p rest hh hf).trans hold
  | handed i g pick hg => exact (transit_handed cfg h src dest inst hat i g hg).trans hold
  | dropped i pick =>
    refine List.Sublist.trans ?_ hold
    refine inTransit_sublist (List.Sublist.refl _) ?_ (List.Sublist.refl _) (List.Sublist.refl _)
    rw [inHand_setHandling]
    split
    · simp
    · exact List.Sublist.refl _
  | _ => exact hold

theorem faithful_next (w : Traffic Text) (a : Step) (h : Faithful cfg w) :
    Faithful cfg (w.next cfg a) := by
  have hm:=next_moves cfg w a
  exact
    { tracked := tracked_moves cfg hm h
      pump := pump_moves cfg hm h
      enqueueing := enqueueing_moves cfg hm h
      publishing := publishing_moves cfg hm h
      fabric := fabric_moves cfg hm h
      handling := handling_moves cfg hm h
      received := received_moves cfg hm h
      order := order_moves cfg hm h }

theorem faithful_run (as : List Step) : Faithful cfg (Machine.run (next cfg) empty as) :=
  Machine.run_invariant (next cfg) (Faithful cfg) (fun w a h => faithful_next cfg w a h) empty as
    (faithful_empty cfg)

/-- Distinct slots have distinct Redis keys, and after every run and for every session
`dest`: what `Route` and `deliverLocal` have enqueued to it was read, byte for byte,
from sessions of the same pair and the opposite role, and what came from one of them
came in the order of reading and each frame at most once. -/
theorem relayed_frames_isolated_in_order (as : List Step) (dest : ConnID) (d : Session)
    (hd : (Machine.run (next cfg) empty as).hub.sessions dest = some d) :
    Function.Injective SlotKey.string ∧
    (∀ m ∈ (Machine.run (next cfg) empty as).received dest,
      ∃ c, (Machine.run (next cfg) empty as).hub.sessions m.src = some c ∧
        c.key.pairID = d.key.pairID ∧ c.key.role=d.key.role.peer ∧
        ∃ r, ((Machine.run (next cfg) empty as).reads m.src)[m.frame.seq]? = some r ∧
          r.data = m.frame.data) ∧
    ∀ src, (((Machine.run (next cfg) empty as).received dest).filter (·.src == src)).Pairwise
      fun m m' => m.frame.seq < m'.frame.seq := by
  have h := faithful_run cfg as
  refine ⟨SlotKey.string_injective,?_,?_⟩
  · intro m hmem
    obtain ⟨⟨inst,c,d',hc,hd',hkey,-⟩,hgen⟩ := h.received dest m hmem
    rw [hd,Option.some.injEq] at hd'
    subst hd'
    exact ⟨c,hc,by simp [hkey,SlotKey.peer],by simp [hkey,SlotKey.peer],hgen⟩
  · intro src
    have hplaced : (Machine.run (next cfg) empty as).Placed dest d.inst := by
      intro e he
      rw [hd,Option.some.injEq] at he
      rw [he]
    have hsub := (List.sublist_append_left _ _).trans (h.order src dest d.inst hplaced)
    exact List.pairwise_map.mp (List.pairwise_lt_range.sublist hsub)

/-! ### Two relays -/

def plainConfig : Config RoutedFrame where
  json := ⟨id,some,fun raw => some ⟨1,Protocol.typeMsg,"id",0,raw⟩,fun _ => rfl⟩
  ttl := 60
  lookupInstance := Slots.lookupInstance
  maxMessageBytes := 65536
  outQueueSize := 64

def joins (id : ConnID) (role : Role) (inst : InstanceID) : List Step :=
  [.hub (.accept id ⟨"pair-1",role⟩ "acct" inst),.hub (.claimSlot id 0),
    .hub (.loadDisplaced id),.hub (.store id)]

def sends (id : ConnID) (data : E2ee.Bytes) : List Step :=
  [.read id data,.load id,.lookup id 1 false false,.publish id false false]

def twoInstances : List Step :=
  joins "phone" .mobile "relay-1" ++ joins "laptop" .desktop "relay-2" ++
    sends "phone" [1] ++ sends "phone" [2] ++ sends "phone" [3] ++
    [.lose "phone" "relay-2" 1,.receive "relay-2" "phone",.hand "relay-2" false,
      .receive "relay-2" "phone",.hand "relay-2" false]

theorem relayed_frames_isolated_in_order_twoInstances :
    let w := Machine.run (next plainConfig) empty twoInstances
    w.received "laptop" = [⟨"phone",⟨0,[1]⟩⟩,⟨"phone",⟨2,[3]⟩⟩] ∧
      (w.received "laptop").Pairwise fun m m' => m.frame.seq < m'.frame.seq := by
  have h := relayed_frames_isolated_in_order plainConfig twoInstances "laptop"
    ⟨desktopSlot,"acct","relay-2",.serving⟩ (by decide +kernel)
  have hrec : (Machine.run (next plainConfig) empty twoInstances).received "laptop" =
      [⟨"phone",⟨0,[1]⟩⟩,⟨"phone",⟨2,[3]⟩⟩] := by
    decide +kernel
  have hpair := h.2.2 "phone"
  rw [hrec] at hpair
  exact ⟨hrec,hrec ▸ hpair⟩

end Traffic
end SecureGateway.Relay
