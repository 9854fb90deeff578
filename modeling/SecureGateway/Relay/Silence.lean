import SecureGateway.Relay.Isolation

/-!
# What a closed session still sends

`CloseWith` cancels the context of the session, but the read pump reads on a second one that
lives on for the close grace. The load from the local map and the `Enqueue` at the peer look
at neither, so a peer on the same instance gets the frame (`expired_session_is_heard`).
Elsewhere no frame read after the close arrives.
-/

namespace SecureGateway.Relay

namespace State
variable (ttl : Int)

theorem closeWith_closed (st : State) (x id : ConnID) (code : CloseCode)
    (h : (st.closed id).isSome) : ((st.closeWith x code).closed id).isSome := by
  by_cases hx : id=x
  · subst hx
    simp [closeWith]
  · simp [closeWith,hx,h]

theorem next_closed (st : State) (a : Step) (id : ConnID) (h : (st.closed id).isSome) :
    ((st.next ttl a).closed id).isSome := by
  have hm:=next_moves ttl st a
  generalize st.next ttl a=st' at hm ⊢
  cases hm with
  | supersede x old c hc hp => exact closeWith_closed st old id _ h
  | closeLost x c hc hl => exact closeWith_closed st x id _ h
  | close x code hcode => exact closeWith_closed st x id code h
  | evictClose inst x he => exact closeWith_closed st x id _ h
  | revoke inst ev =>
    simp only [revoke]
    split
    · split
      · rfl
      · exact h
    · exact h
  | delete x c hc hp =>
    simp only [setSession,deleted]
    split <;> exact h
  | release x c fails hc hp =>
    simp only [setSession,released]
    split <;> exact h
  | _ => exact h

end State

namespace Traffic
variable {Text : Type} (cfg : Config Text)

/-! ### The condition -/

def late (w : Traffic Text) (id : ConnID) (f : Frame) : Bool :=
  ((w.reads id)[f.seq]?).any (·.late)

/-- When the pump of a closed session routes a frame it has read since, the peer is not
in the local map. -/
def peerAway (w : Traffic Text) : Step → Bool
  | .load id =>
    match w.hub.sessions id, w.pump id with
    | some c, .routing f => !w.late id f || (w.hub.localIndex c.inst c.key.peer).isNone
    | _, _ => true
  | _ => true

/-- A call on a cancelled context fails, or there is no other instance to be found. -/
def cancelHonoured (w : Traffic Text) : Step → Bool
  | .lookup id now fails _ =>
    match w.hub.sessions id with
    | some c => (w.hub.closed id).isNone || fails || (w.route cfg c now).isNone
    | none => true
  | _ => true

/-! ### The invariant -/

def Early (w : Traffic Text) (src : ConnID) (seq : ℕ) : Prop :=
  ∃ r, (w.reads src)[seq]? = some r ∧ r.late=false

theorem Early.mono {w w' : Traffic Text} (he : Extends w w') {src : ConnID} {seq : ℕ}
    (h : w.Early src seq) : w'.Early src seq := by
  obtain ⟨r,hr,hlate⟩:=h
  exact ⟨r,he.read hr,hlate⟩

structure Silent (w : Traffic Text) : Prop where
  faithful : Faithful cfg w
  closed : ∀ id, ∀ r ∈ w.reads id, r.late=true → (w.hub.closed id).isSome
  enqueueing : ∀ id f dest, w.pump id = .enqueueing f dest → w.Early id f.seq
  publishing : ∀ id f inst, w.pump id = .publishing f inst → w.Early id f.seq
  fabric : ∀ id inst, ∀ p ∈ w.fabric id inst, w.Early id p.seq
  handling : ∀ inst h, w.handling inst = some h → w.Early h.src h.frame.seq
  received : ∀ dest, ∀ d ∈ w.received dest, w.Early d.src d.frame.seq

theorem silent_empty : Silent cfg (empty : Traffic Text) where
  faithful := faithful_empty cfg
  closed id r h := by cases h
  enqueueing id f dest h := by cases h
  publishing id f inst h := by cases h
  fabric id inst p h := by cases h
  handling inst h hh := by cases hh
  received dest d h := by cases h

theorem mem_reads_record (w : Traffic Text) (x id : ConnID) (data : E2ee.Bytes) (r : Read)
    (h : r∈(w.record x data).reads id) : r∈w.reads id ∨ r.late=(w.hub.closed id).isSome := by
  by_cases hx : id=x
  · subst hx
    simp only [record,Function.update_self] at h
    rcases List.mem_append.mp h with hold | hnew
    · exact Or.inl hold
    · exact Or.inr (by rw [List.mem_singleton.mp hnew])
  · simp only [record,Function.update_of_ne hx] at h
    exact Or.inl h

section Steps
variable {w w' : Traffic Text} {a : Step} (hm : Moves cfg w a w') (h : Silent cfg w)
include hm h

theorem closed_moves (id : ConnID) (r : Read) (hr : r∈w'.reads id) (hlate : r.late=true) :
    (w'.hub.closed id).isSome := by
  have old : r∈w.reads id ∨ r.late=(w.hub.closed id).isSome → (w.hub.closed id).isSome := by
    rintro (hold | hnew)
    · exact h.closed id r hold hlate
    · rw [← hnew,hlate]
  cases hm with
  | hub a => exact State.next_closed cfg.ttl w.hub a id (h.closed id r hr hlate)
  | read x data p hp hf => exact old (mem_reads_record w x id data r hr)
  | rejected x data hp =>
    exact State.next_closed cfg.ttl w.hub (.close x .protocol) id
      (old (mem_reads_record w x id data r hr))
  | refused x peer pick pick' =>
    exact State.next_closed cfg.ttl w.hub (.close peer .protocol) id (h.closed id r hr hlate)
  | _ => exact h.closed id r hr hlate

theorem enqueueing_early (hok : w.peerAway a=true) (id : ConnID) (f : Frame) (dest : ConnID)
    (hf : w'.pump id = .enqueueing f dest) : w'.Early id f.seq := by
  have he:=moves_extends cfg w w' a hm
  rcases moves_enqueueing cfg w w' a hm id f dest hf with hold | ⟨c,rfl,hc,hp,hl⟩
  · exact (h.enqueueing id f dest hold).mono he
  obtain ⟨r,hr,-⟩:=h.faithful.pump id f (by rw [hp]; rfl)
  have hearly : r.late=false := by simpa [peerAway,hc,hp,hl,late,hr] using hok
  exact Early.mono he ⟨r,hr,hearly⟩

theorem publishing_early (hok : w.cancelHonoured cfg a=true) (id : ConnID) (f : Frame)
    (inst : InstanceID) (hf : w'.pump id = .publishing f inst) : w'.Early id f.seq := by
  have he:=moves_extends cfg w w' a hm
  rcases moves_publishing cfg w w' a hm id f inst hf with hold | ⟨c,now,pick,rfl,hc,hp,hr⟩
  · exact (h.publishing id f inst hold).mono he
  have hopen : w.hub.closed id=none := by simpa [cancelHonoured,hc,hr] using hok
  obtain ⟨r,hread,-⟩:=h.faithful.pump id f (by rw [hp]; rfl)
  have hearly : r.late=false := by
    cases hl : r.late with
    | false => rfl
    | true =>
      have hclosed:=h.closed id r (List.mem_of_getElem? hread) hl
      simp [hopen] at hclosed
  exact Early.mono he ⟨r,hread,hearly⟩

theorem fabric_early (id : ConnID) (inst : InstanceID) (p : Packet Text)
    (hp : p∈w'.fabric id inst) : w'.Early id p.seq := by
  have he:=moves_extends cfg w w' a hm
  rcases moves_fabric cfg w w' a hm id inst p hp with hold | ⟨c,f,-,hpump,rfl⟩
  · exact (h.fabric id inst p hold).mono he
  · exact (h.publishing id f inst hpump).mono he

theorem handling_early (inst : InstanceID) (g : Handling) (hg : w'.handling inst=some g) :
    w'.Early g.src g.frame.seq := by
  have he:=moves_extends cfg w w' a hm
  rcases moves_handling cfg w w' a hm inst g hg with hold | ⟨p,hp,hl⟩
  · exact (h.handling inst g hold).mono he
  obtain ⟨-,hseq⟩:=loaded_src cfg w inst g.src p g hl
  rw [hseq]
  exact (h.fabric g.src inst p hp).mono he

theorem received_early (dest : ConnID) (d : Delivery) (hd : d∈w'.received dest) :
    w'.Early d.src d.frame.seq := by
  have he:=moves_extends cfg w w' a hm
  rcases moves_received cfg w w' a hm dest d hd with hold | hpump | ⟨inst,g,hg,-,rfl⟩
  · exact (h.received dest d hold).mono he
  · exact (h.enqueueing d.src d.frame dest hpump).mono he
  · exact (h.handling inst g hg).mono he

end Steps

theorem silent_next (w : Traffic Text) (a : Step) (h : Silent cfg w)
    (hok : w.peerAway a=true ∧ w.cancelHonoured cfg a=true) : Silent cfg (w.next cfg a) := by
  have hm:=next_moves cfg w a
  exact
    { faithful := faithful_next cfg w a h.faithful
      closed := closed_moves cfg hm h
      enqueueing := enqueueing_early cfg hm h hok.1
      publishing := publishing_early cfg hm h hok.2
      fabric := fabric_early cfg hm h
      handling := handling_early cfg hm h
      received := received_early cfg hm h }

/-- In every run in which the pump of a closed session never finds its peer on its own
instance, and calls on a cancelled context fail, every frame that is enqueued to a
session was read before the session it comes from was closed. -/
theorem closed_session_is_silent (as : List Step)
    (hg : Machine.Guarded (next cfg)
      (fun w a => w.peerAway a = true ∧ w.cancelHonoured cfg a = true) empty as)
    (dest : ConnID) (d : Delivery) (hd : d ∈ (Machine.run (next cfg) empty as).received dest) :
    ∃ r, ((Machine.run (next cfg) empty as).reads d.src)[d.frame.seq]? = some r ∧
      r.late = false := by
  have h : Silent cfg (Machine.run (next cfg) empty as) :=
    Machine.guarded_invariant (next cfg) _ (Silent cfg)
      (fun w a h hok => silent_next cfg w a h hok) empty as (silent_empty cfg) hg
  exact h.received dest d hd

/-! ### A session that is still heard -/

/- The token of the phone expires after its first frame; the second is read and looked up. -/
def expiresAway : List Step :=
  joins "phone" .mobile "relay-1" ++ joins "laptop" .desktop "relay-2" ++ sends "phone" [1] ++
    [.receive "relay-2" "phone",.hand "relay-2" false,.hub (.close "phone" .tokenExpired),
      .read "phone" [2],.load "phone",.lookup "phone" 1 true false]

theorem closed_session_is_silent_expiresAway :
    ∃ r, ((Machine.run (next plainConfig) empty expiresAway).reads "phone")[0]? = some r ∧
      r.late = false :=
  closed_session_is_silent plainConfig expiresAway (by decide +kernel) "laptop"
    ⟨"phone",⟨0,[1]⟩⟩ (by decide +kernel)

def expiresBeside : List Step :=
  joins "phone" .mobile "relay-1" ++ joins "laptop" .desktop "relay-1" ++
    [.hub (.close "phone" .tokenExpired),.read "phone" [2],.load "phone",
      .enqueue "phone" false false]

theorem expired_session_is_heard :
    let w := Machine.run (next plainConfig) empty expiresBeside
    w.hub.closed "phone" = some .tokenExpired ∧ w.reads "phone" = [⟨[2],true⟩] ∧
      w.received "laptop" = [⟨"phone",⟨0,[2]⟩⟩] := by
  decide +kernel

end Traffic
end SecureGateway.Relay
