import SecureGateway.Auth.Rotation

/-!
# Reuse of a refresh token

A request that presents a revoked token revokes all tokens of its device. Where this falls
between the consumption of a token by a rotation and the storing of its successor, or fails,
the successor stays live. In all other runs no token obtained from the reused one is live.
-/

namespace SecureGateway.Auth
open Authstore Prog

def revokedDevice : Event → Option String
  | ⟨.store (.revokeRefreshTokensByDevice deviceID _),.ok _⟩ => some deviceID
  | _ => none

/-- The device's tokens were revoked after request `i` consumed its token. -/
def killedSince (i : ℕ) (deviceID : String) : List (ℕ × Event) → Bool
  | [] => false
  | (j,e) :: history =>
    revokedDevice e == some deviceID ||
      if j=i ∧ (consumedBy e).isSome then false else killedSince i deviceID history

/-- A rotation stores its successor only while the device's tokens have not been
revoked since it consumed its token, and where a token was presented the
device-wide revocation does not fail. -/
def unbroken (st : Requests) : Step → Bool
  | .call i a =>
    match nextCall st i with
    | some (.store (.putRefreshToken r)) =>
      ((Pool.logOf i st.history).all fun e => (consumedBy e).isNone) ||
        !killedSince i r.deviceID st.history
    | some (.store (.revokeRefreshTokensByDevice _ _)) =>
      (presented (Pool.logOf i st.history)).isNone || !a.fault
    | _ => true
  | _ => true

theorem handleRefreshToken_reuse (srv : Service) (req : Option String) :
    Obeys (fun _ _ => True) (fun res l => ∀ rt,presented l=some rt → rt.revokedAt≠0 →
        res = .error ⟨401,"refresh_invalid"⟩ ∧
        (∃ id,Saw l (.getRefreshToken id) (.ok rt)) ∧
        ∃ t r,Saw l (.revokeRefreshTokensByDevice rt.deviceID t) r) []
      (handleRefreshToken srv req) := by
  refine obeys_ite (fun _ => obeys_pure (by simp [presented])) fun _ => ?_
  refine obeys_stored trivial (fun rt => ?_) fun _ => obeys_pure (by simp [presented])
  -- from here on `rt` is the token that was presented
  have hfirst (l : List Event) (t : Time) (hl : [⟨.now,t⟩,
      ⟨.store (.getRefreshToken (srv.hashSecret (req.getD ""))),.ok rt⟩] <:+ l) :
      presented l=some rt := presented_of_suffix ((List.suffix_cons _ _).trans hl)
  refine obeys_step trivial fun t => obeys_ite (fun _ => ?_) fun hactive => ?_
  · refine obeys_ite (fun _ => ?_) fun hlive => obeys_pure fun rt' hrt' hne => ?_
    · have hchain (l : List Event) : Obeys (fun _ _ => True)
          (fun _ l => ∃ t r,Saw l (.revokeRefreshTokensByDevice rt.deviceID t) r) l
          (revokeChain srv rt) :=
        obeys_step trivial fun t => obeys_step trivial fun r =>
          obeys_mono (obeys_grows (obeys_any _ _)) fun _ _ hl =>
            ⟨t,r,Saw.mono (saw_head _ _ _) hl.2⟩
      refine obeys_seq (hchain _) fun _ l hrevoked hl => obeys_pure fun rt' hrt' hne => ?_
      rw [hfirst l t hl] at hrt'
      cases hrt'
      exact ⟨rfl,⟨_,(saw_head _ _ _).tail.mono hl⟩,hrevoked⟩
    · cases hrt'
      exact absurd (not_not.1 hlive) hne
  · have hlive : rt.revokedAt=0 := by
      simp only [RefreshToken.active,Bool.not_eq_true',Bool.not_eq_false,Bool.and_eq_true,
        beq_iff_eq] at hactive
      exact hactive.1
    refine obeys_mono (obeys_grows (obeys_any _ _)) fun res l hl rt' hrt' hne => ?_
    rw [hfirst l t hl.2] at hrt'
    cases hrt'
    exact absurd hlive hne

/-- The revoked token `rt` was presented to a request that has revoked the tokens
of its device. -/
def Killed (history : List (ℕ × Event)) (rt : RefreshToken) : Prop :=
  rt.revokedAt ≠ 0 ∧ ∃ i, (∃ id, Saw (Pool.logOf i history) (.getRefreshToken id) (.ok rt)) ∧
    ∃ e ∈ Pool.logOf i history, revokedDevice e = some rt.deviceID

def TokenOf (s : Store) (id deviceID : String) : Prop :=
  ∃ rt, s.refreshTokens.get id = some rt ∧ rt.deviceID=deviceID

structure Chained (srv : Service) (w : World) (history : List (ℕ × Event)) : Prop where
  rotated : Rotated srv w history
  device : ∀ i id dev, Saw (Pool.logOf i history) (.getDevice id) (.ok dev) → dev.id=id
  read : ∀ i id rt, Saw (Pool.logOf i history) (.getRefreshToken id) (.ok rt) →
    rt.id = id ∧ TokenOf w.store id rt.deviceID ∧ (rt.revokedAt≠0 → Dead w.store id)
  /- a successor is for the same device -/
  kin : ∀ id id', Parent history id id' → ∀ deviceID, TokenOf w.store id deviceID →
    TokenOf w.store id' deviceID
  killed : ∀ rt, Killed history rt → ∀ id, Family history rt.id id → Dead w.store id
  /- a rotation of the family that is under way has seen the revocation -/
  pending : ∀ rt, Killed history rt → ∀ x ∈ history, ∀ id, consumedBy x.2 = some id →
    Family history rt.id id → Never storedBy (Pool.logOf x.1 history) →
    killedSince x.1 rt.deviceID history = true
  effective : ∀ i deviceID t err,
    Saw (Pool.logOf i history) (.revokeRefreshTokensByDevice deviceID t) (.error err) →
    presented (Pool.logOf i history) = none

theorem chained_start {srv : Service} (w : World) : Chained srv w [] where
  rotated := rotated_start w
  device i id dev h := by cases h
  read i id rt h := by cases h
  kin id id' h := by
    obtain ⟨x,hx,-⟩:=h
    cases hx
  killed rt h := by
    obtain ⟨-,i,⟨id,hsaw⟩,-⟩:=h
    cases hsaw
  pending rt h x hx := by cases hx
  effective i deviceID t err h := by cases h

variable {id : String} {rt : RefreshToken}

section Call
variable {srv : Service} {w : World} {history : List (ℕ × Event)} {i : ℕ} {a : Answer} {op : Op}

theorem Rotated.tokenOf_called (h : Rotated srv w history)
    (hok : Conducts srv true (Pool.logOf i history) op) {deviceID : String}
    (ht : TokenOf w.store id deviceID) : TokenOf (perform a op w).2.store id deviceID := by
  obtain ⟨rt,hget,rfl⟩:=ht
  cases hs : storedBy ⟨op,(perform a op w).1⟩ with
  | none =>
    obtain ⟨rt',hget',hdev,-⟩:=(ages_of_not_stored hs).kept id rt hget
    exact ⟨rt',hget',hdev⟩
  | some r =>
    obtain ⟨rfl,hput⟩:=storedBy_perform hs
    have hid : r.id≠id := by
      rintro rfl
      rw [h.new_id hok] at hget
      cases hget
    exact ⟨rt,by rw [hput,Table.get_put_ne _ _ hid]; exact hget,rfl⟩

theorem Chained.read_called (h : Chained srv w history)
    (hok : Conducts srv true (Pool.logOf i history) op) (j : ℕ) (id : String) (rt : RefreshToken)
    (hsaw : Saw (Pool.logOf j ((i,⟨op,(perform a op w).1⟩)::history)) (.getRefreshToken id)
      (.ok rt)) :
    rt.id=id ∧ TokenOf (perform a op w).2.store id rt.deviceID ∧
      (rt.revokedAt≠0 → Dead (perform a op w).2.store id) := by
  have hnow : rt.id=id ∧ TokenOf w.store id rt.deviceID ∧
      (rt.revokedAt≠0 → Dead w.store id) := by
    rcases saw_called hsaw with ⟨-,rfl,hexec⟩ | hold
    · have hget : w.store.refreshTokens.get id=some rt := by simpa [Store.exec] using hexec
      exact ⟨Table.key_of_get hget,⟨rt,hget,rfl⟩,fun hne => ⟨rt,hget,hne⟩⟩
    · exact h.read j id rt hold
  exact ⟨hnow.1,h.rotated.tokenOf_called hok hnow.2.1,
    fun hne => h.rotated.dead_called hok (hnow.2.2 hne)⟩

theorem Chained.family_device (h : Chained srv w history) {id' deviceID : String}
    (hfam : Family history id id') (ht : TokenOf w.store id deviceID) :
    TokenOf w.store id' deviceID := by
  induction hfam with
  | refl => exact ht
  | tail _ hp ih => exact h.kin _ _ hp deviceID ih

theorem tokenOf_unique {s : Store} {d d' : String} (h : TokenOf s id d) (h' : TokenOf s id d') :
    d=d' := by
  obtain ⟨rt,hget,rfl⟩:=h
  obtain ⟨rt',hget',rfl⟩:=h'
  rw [hget] at hget'
  cases hget'
  rfl

theorem killed_called (hok : Conducts srv true (Pool.logOf i history) op)
    (hk : Killed ((i,⟨op,(perform a op w).1⟩)::history) rt) :
    Killed history rt ∨ revokedDevice ⟨op,(perform a op w).1⟩=some rt.deviceID ∧
      ∃ id,Saw (Pool.logOf i history) (.getRefreshToken id) (.ok rt) := by
  obtain ⟨hne,j,⟨id,hsaw⟩,e,he,hrevoked⟩:=hk
  rcases saw_called hsaw with ⟨rfl,rfl,-⟩ | hold
  · -- the token is read first, so nothing was revoked before
    have hempty : Pool.logOf i history = [] := hok
    rw [Pool.logOf_cons_self,hempty,List.mem_singleton] at he
    subst he
    cases hrevoked
  · rw [Pool.mem_logOf] at he
    rcases List.mem_cons.1 he with heq | hbefore
    · cases heq
      exact .inr ⟨hrevoked,id,hold⟩
    · exact .inl ⟨hne,j,⟨id,hold⟩,e,Pool.mem_logOf.2 hbefore,hrevoked⟩

theorem parent_called (hok : Conducts srv true (Pool.logOf i history) op) {id' : String}
    (hp : Parent ((i,⟨op,(perform a op w).1⟩)::history) id id') :
    Parent history id id' ∨ ∃ r,storedBy ⟨op,(perform a op w).1⟩=some r ∧ r.id=id' ∧
      ∃ e∈Pool.logOf i history,consumedBy e=some id := by
  obtain ⟨x,hx,y,hy,hxy,hc,hs⟩:=hp
  obtain ⟨r,hr,rfl⟩:=Option.map_eq_some_iff.1 hs
  rcases List.mem_cons.1 hx with rfl | hx
  · -- a request does not consume after it has stored
    obtain ⟨t,rfl,-⟩:=consumedBy_perform hc
    obtain ⟨-,-,-,hnever⟩:=hok
    rcases List.mem_cons.1 hy with rfl | hy
    · cases (storedBy_perform hr).1
    have hi : i=y.1 := hxy
    rw [hnever y.2 (Pool.mem_logOf.2 (by rw [hi]; exact hy))] at hr
    cases hr
  · rcases List.mem_cons.1 hy with rfl | hy
    · have hi : x.1=i := hxy
      exact .inr ⟨r,hr,rfl,x.2,Pool.mem_logOf.2 (by rw [← hi]; exact hx),hc⟩
    · exact .inl ⟨x,hx,y,hy,hxy,hc,hs⟩

theorem Chained.successor_device (h : Chained srv w history) {r : RefreshToken}
    (hok : Conducts srv true (Pool.logOf i history) (.store (.putRefreshToken r)))
    (hc : ∃ e∈Pool.logOf i history,consumedBy e=some id) : TokenOf w.store id r.deviceID := by
  obtain ⟨-,-,-,hsucceeds⟩:=hok
  obtain ⟨hash,rt,dev,hrt,hid,hdev,hr⟩:=hsucceeds id hc
  obtain ⟨hhash,htoken,-⟩:=h.read i hash rt hrt
  rw [hr,h.device i _ dev hdev,← hid,hhash]
  exact htoken

theorem Chained.kin_called (h : Chained srv w history)
    (hok : Conducts srv true (Pool.logOf i history) op) {id' : String}
    (hp : Parent ((i,⟨op,(perform a op w).1⟩)::history) id id') (deviceID : String)
    (ht : TokenOf (perform a op w).2.store id deviceID) :
    TokenOf (perform a op w).2.store id' deviceID := by
  rcases parent_called hok hp with hold | ⟨r,hr,rfl,hc⟩
  · obtain ⟨rt,hget,-⟩:=h.rotated.parent_dead hold
    have hbefore : TokenOf w.store id rt.deviceID := ⟨rt,hget,rfl⟩
    rw [tokenOf_unique ht (h.rotated.tokenOf_called hok hbefore)]
    exact h.rotated.tokenOf_called hok (h.kin id id' hold _ hbefore)
  · obtain ⟨rfl,hput⟩:=storedBy_perform hr
    have hbefore : TokenOf w.store id r.deviceID := h.successor_device hok hc
    rw [tokenOf_unique ht (h.rotated.tokenOf_called hok hbefore)]
    exact ⟨r,by rw [hput]; exact Table.get_put_self _ _,rfl⟩

theorem Chained.killed_device (h : Chained srv w history)
    (hsaw : Saw (Pool.logOf i history) (.getRefreshToken id) (.ok rt)) {id' : String}
    (hfam : Family history rt.id id') : TokenOf w.store id' rt.deviceID := by
  obtain ⟨hid,htoken,-⟩:=h.read i id rt hsaw
  rw [hid] at hfam
  exact h.family_device hfam htoken

def Unbroken (i : ℕ) (history : List (ℕ × Event)) (r : RefreshToken) : Prop :=
  Never consumedBy (Pool.logOf i history) ∨ killedSince i r.deviceID history = false

theorem Chained.family_called (h : Chained srv w history)
    (hok : Conducts srv true (Pool.logOf i history) op)
    (hguard : ∀ r,op = .store (.putRefreshToken r) → Unbroken i history r)
    (hk : Killed ((i,⟨op,(perform a op w).1⟩)::history) rt)
    (hfam : Family ((i,⟨op,(perform a op w).1⟩)::history) rt.id id) : Family history rt.id id := by
  induction hfam with
  | refl => exact .refl
  | @tail b c _ hp ih =>
    rcases parent_called hok hp with hold | ⟨r,hr,-,hc⟩
    · exact ih.tail hold
    obtain ⟨rfl,-⟩:=storedBy_perform hr
    obtain ⟨e,he,hb⟩:=hc
    rcases killed_called hok hk with hk | ⟨hrevoked,-⟩
    · -- the rotation of `b` is under way, so it has seen the revocation
      have hnever : Never storedBy (Pool.logOf i history) := hok.2.2.1
      have hsince:=h.pending rt hk (i,e) (Pool.mem_logOf.1 he) b hb ih hnever
      obtain ⟨-,j,⟨id,hsaw⟩,-⟩:=hk
      have hdevice : r.deviceID=rt.deviceID :=
        tokenOf_unique (h.successor_device hok ⟨e,he,hb⟩) (h.killed_device hsaw ih)
      rcases hguard r rfl with hclean | hnot
      · rw [hclean e he] at hb
        cases hb
      · rw [hdevice,hsince] at hnot
        cases hnot
    · cases hrevoked

theorem revokedDevice_perform {deviceID : String}
    (h : revokedDevice ⟨op,(perform a op w).1⟩=some deviceID) :
    ∃ t,op = .store (.revokeRefreshTokensByDevice deviceID t) ∧
      (perform a op w).2.store=w.store.revokeRefreshTokensByDevice deviceID t := by
  unfold revokedDevice at h
  split at h
  · next d t _ heq =>
    obtain ⟨rfl,hr⟩:=Sigma.mk.inj heq
    cases h
    exact ⟨t,rfl,(perform_ok (eq_of_heq hr)).2⟩
  · cases h

theorem dead_revokeByDevice {s : Store} {deviceID : String} {t : Time} (ht : t≠0)
    (h : TokenOf s id deviceID) : Dead (s.revokeRefreshTokensByDevice deviceID t) id := by
  obtain ⟨rt,hget,hdev⟩:=h
  refine ⟨_,by rw [get_revokeByDevice,hget,Option.map_some],?_⟩
  by_cases hc : rt.deviceID=deviceID ∧ rt.revokedAt=0
  · rw [if_pos hc]
    exact ht
  · rw [if_neg hc]
    exact fun hlive => hc ⟨hdev,hlive⟩

theorem Chained.killed_called (h : Chained srv w history)
    (hok : Conducts srv true (Pool.logOf i history) op)
    (hguard : ∀ r,op = .store (.putRefreshToken r) → Unbroken i history r)
    (hk : Killed ((i,⟨op,(perform a op w).1⟩)::history) rt)
    (hfam : Family ((i,⟨op,(perform a op w).1⟩)::history) rt.id id) :
    Dead (perform a op w).2.store id := by
  have hold:=h.family_called hok hguard hk hfam
  rcases Auth.killed_called hok hk with hk | ⟨hrevoked,id',hsaw⟩
  · exact h.rotated.dead_called hok (h.killed rt hk id hold)
  obtain ⟨t,rfl,hstore⟩:=revokedDevice_perform hrevoked
  have ht : t≠0 := h.rotated.clock (i,_) (Pool.mem_logOf.1 hok) t rfl
  rw [hstore]
  exact dead_revokeByDevice ht (h.killed_device hsaw hold)

theorem Chained.pending_called (h : Chained srv w history)
    (hok : Conducts srv true (Pool.logOf i history) op)
    (hguard : ∀ r,op = .store (.putRefreshToken r) → Unbroken i history r)
    (hk : Killed ((i,⟨op,(perform a op w).1⟩)::history) rt) {x : ℕ × Event}
    (hx : x∈(i,⟨op,(perform a op w).1⟩)::history) (hc : consumedBy x.2=some id)
    (hfam : Family ((i,⟨op,(perform a op w).1⟩)::history) rt.id id)
    (hnever : Never storedBy (Pool.logOf x.1 ((i,⟨op,(perform a op w).1⟩)::history))) :
    killedSince x.1 rt.deviceID ((i,⟨op,(perform a op w).1⟩)::history)=true := by
  have hold:=h.family_called hok hguard hk hfam
  rcases Auth.killed_called hok hk with hk | ⟨hrevoked,-⟩
  · rcases List.mem_cons.1 hx with rfl | hbefore
    · -- a token of a killed family is not live, so it is not consumed
      obtain ⟨t,-,hlive,-⟩:=consumedBy_perform hc
      exact absurd hlive (h.killed rt hk id hold).not_live
    have hsince:=h.pending rt hk x hbefore id hc hold fun e he =>
      hnever e (Pool.mem_logOf.2 (List.mem_cons_of_mem _ (Pool.mem_logOf.1 he)))
    have hother : ¬ (i=x.1 ∧ (consumedBy ⟨op,(perform a op w).1⟩).isSome) := by
      rintro ⟨hi,hsome⟩
      obtain ⟨id',hid'⟩:=Option.isSome_iff_exists.1 hsome
      obtain ⟨t,rfl,-⟩:=consumedBy_perform hid'
      obtain ⟨-,-,hclean,-⟩:=hok
      rw [hclean x.2 (Pool.mem_logOf.2 (by rw [hi]; exact hbefore))] at hc
      cases hc
    simp only [killedSince,if_neg hother,hsince,Bool.or_true]
  · simp [killedSince,hrevoked]

theorem Chained.effective_called (h : Chained srv w history)
    (hguard : ∀ d t,op = .store (.revokeRefreshTokensByDevice d t) →
      presented (Pool.logOf i history)=none ∨ a.fault=false) (j : ℕ) (deviceID : String)
    (t : Time) (err : Err)
    (hsaw : Saw (Pool.logOf j ((i,⟨op,(perform a op w).1⟩)::history))
      (.revokeRefreshTokensByDevice deviceID t) (.error err)) :
    presented (Pool.logOf j ((i,⟨op,(perform a op w).1⟩)::history))=none := by
  by_cases hij : i=j
  · subst hij
    rw [Pool.logOf_cons_self] at hsaw ⊢
    rcases List.mem_cons.1 hsaw with heq | hold
    · obtain ⟨rfl,hr⟩:=Sigma.mk.inj heq
      have hbefore : presented (Pool.logOf i history)=none := by
        refine (hguard deviceID t rfl).resolve_right fun hf => ?_
        simp [perform,hf,Store.exec] at hr
      by_cases hempty : Pool.logOf i history = []
      · rw [hempty]
        rfl
      · rw [presented_cons hempty]
        exact hbefore
    · rw [presented_cons (List.ne_nil_of_mem hold)]
      exact h.effective i deviceID t err hold
  · rw [Pool.logOf_cons_ne hij] at hsaw ⊢
    exact h.effective j deviceID t err hsaw

end Call

theorem chained_called {srv : Service} (st : Requests) (i : ℕ) (a : Answer) (op : Op)
    (h : Chained srv st.world st.history)
    (hguard : (freshSecret srv st (.call i a) && neverReads 0 st (.call i a) &&
      unbroken st (.call i a))=true)
    (hnext : nextCall st i=some op) (hok : Conducts srv true (Pool.logOf i st.history) op) :
    Chained srv (perform a op st.world).2 ((i,⟨op,(perform a op st.world).1⟩)::st.history) := by
  obtain ⟨henv,hunbroken⟩:=Bool.and_eq_true_iff.1 hguard
  have hstored (r : RefreshToken) (hop : op = .store (.putRefreshToken r)) :
      Unbroken i st.history r := by
    subst hop
    simpa [unbroken,hnext,Unbroken,Never] using hunbroken
  have hrevoked (d : String) (t : Time) (hop : op = .store (.revokeRefreshTokensByDevice d t)) :
      presented (Pool.logOf i st.history)=none ∨ a.fault=false := by
    subst hop
    simpa [unbroken,hnext] using hunbroken
  exact {
    rotated := rotated_called st i a op h.rotated henv hnext hok
    device := device_called h.device
    read := h.read_called hok
    kin := fun _ _ => h.kin_called hok
    killed := fun _ hk _ => h.killed_called hok hstored hk
    pending := fun _ hk _ hx _ hc => h.pending_called hok hstored hk hx hc
    effective := h.effective_called hrevoked }

/-- The revoked token that the refresh request `i` presented, once it is answered. -/
def reused (steps : List Step) (st : Requests) (i : ℕ) : Option RefreshToken :=
  match (requests steps)[i]?, st.threads[i]? with
  | some (.refreshToken _), some t =>
    if t.returned then (presented t.log).filter fun rt => rt.revokedAt != 0 else none
  | _, _ => none

theorem eq_of_reused {steps : List Step} {st : Requests} {i : ℕ} (h : reused steps st i=some rt) :
    ∃ req t,(requests steps)[i]? = some (.refreshToken req) ∧
      st.threads[i]? = some t ∧ t.returned=true ∧ presented t.log=some rt ∧
      rt.revokedAt≠0 := by
  unfold reused at h
  split at h
  · next req t hreq ht =>
    split at h
    · next hdone =>
      obtain ⟨hp,hne⟩:=Option.filter_eq_some_iff.1 h
      exact ⟨req,t,hreq,ht,hdone,hp,by simpa using hne⟩
    · cases h
  · cases h

/-- All requests in any order: once a refresh that presented a revoked token is
answered, the answer is `refresh_invalid` and no token obtained from the
presented one by successive refreshes is live. -/
theorem reuse_revokes_family (srv : Service) (w : World) (steps : List Step)
    (hsteps : Machine.Guarded (interleave srv)
      (fun st x => (freshSecret srv st x && neverReads 0 st x && unbroken st x) = true)
      (Pool.start w) steps) (i : ℕ) (rt : RefreshToken)
    (hreused : reused steps (Machine.run (interleave srv) (Pool.start w) steps) i = some rt) :
    (∃ req t, (requests steps)[i]? = some (.refreshToken req) ∧
        (Machine.run (interleave srv) (Pool.start w) steps).threads[i]? = some t ∧
        Returns (handleRefreshToken srv req) t.log.reverse (.error ⟨401,"refresh_invalid"⟩)) ∧
      ∀ id, Family (Machine.run (interleave srv) (Pool.start w) steps).history rt.id id →
        ¬ Live (Machine.run (interleave srv) (Pool.start w) steps).world.store id := by
  obtain ⟨req,t,hreq,ht,hdone,hpresented,hne⟩ := eq_of_reused hreused
  obtain ⟨res,hret⟩ := returns_of_bind_pure (returns_of_returned hreq ht hdone)
  obtain ⟨hres,hread,hrevoked⟩ := hret.obeys (handleRefreshToken_reuse srv req) rt
    (by simpa using hpresented) hne
  subst hres
  simp only [List.reverse_reverse,List.append_nil] at hread hrevoked
  refine ⟨⟨req,t,hreq,ht,hret⟩,fun id hfam => ?_⟩
  have hrun := ledger_run (Chained srv) _ (fun _ r _ => handle_conducts srv r)
    (fun st i a op => chained_called st i a op) (Pool.ledger_start (chained_start w)) hsteps
  rw [hrun.recorded.log_eq ht] at hpresented hread hrevoked
  obtain ⟨time,_ | u,hsaw⟩ := hrevoked
  · rw [hrun.inv.effective i rt.deviceID time _ hsaw] at hpresented
    cases hpresented
  · exact (hrun.inv.killed rt ⟨hne,i,hread,_,hsaw,rfl⟩ id hfam).not_live

/- The first request has consumed the token when the second presents it; the
second is answered before the first stores the successor. -/
theorem successor_outlives_reuse :
    Machine.Guarded (interleave sampleService)
        (fun st x => (freshSecret sampleService st x && neverReads 0 st x) = true)
        (Pool.start pairedWorld) (refreshRace 9) ∧
      ∃ rt id, reused (refreshRace 9) (Machine.run (interleave sampleService)
          (Pool.start pairedWorld) (refreshRace 9)) 2 = some rt ∧
        Family (Machine.run (interleave sampleService) (Pool.start pairedWorld)
          (refreshRace 9)).history rt.id id ∧
        Live (Machine.run (interleave sampleService) (Pool.start pairedWorld)
          (refreshRace 9)).world.store id := by
  have hreused : (reused (refreshRace 9) (Machine.run (interleave sampleService)
      (Pool.start pairedWorld) (refreshRace 9)) 2).map RefreshToken.id = some "#rt_t" := by
    decide +kernel
  have hlive : ((Machine.run (interleave sampleService) (Pool.start pairedWorld)
      (refreshRace 9)).world.store.refreshTokens.get "#rt_u").map RefreshToken.revokedAt =
        some 0 := by
    decide +kernel
  obtain ⟨rt,hrt,hid⟩ := Option.map_eq_some_iff.1 hreused
  refine ⟨by decide +kernel,rt,"#rt_u",hrt,?_,Option.map_eq_some_iff.1 hlive⟩
  rw [hid]
  exact .single (by unfold Parent; decide +kernel)

theorem reuse_revokes_family_late :
    ∃ rt, reused (refreshRace 20) (Machine.run (interleave sampleService)
        (Pool.start pairedWorld) (refreshRace 20)) 2 = some rt ∧
      ((∃ req t, (requests (refreshRace 20))[2]? = some (.refreshToken req) ∧
          (Machine.run (interleave sampleService) (Pool.start pairedWorld)
            (refreshRace 20)).threads[2]? = some t ∧
          Returns (handleRefreshToken sampleService req) t.log.reverse
            (.error ⟨401,"refresh_invalid"⟩)) ∧
        ∀ id, Family (Machine.run (interleave sampleService) (Pool.start pairedWorld)
            (refreshRace 20)).history rt.id id →
          ¬ Live (Machine.run (interleave sampleService) (Pool.start pairedWorld)
            (refreshRace 20)).world.store id) := by
  have hreused : (reused (refreshRace 20) (Machine.run (interleave sampleService)
      (Pool.start pairedWorld) (refreshRace 20)) 2).isSome = true := by
    decide +kernel
  obtain ⟨rt,hrt⟩ := Option.isSome_iff_exists.1 hreused
  exact ⟨rt,hrt,reuse_revokes_family sampleService pairedWorld (refreshRace 20)
    (by decide +kernel) 2 rt hrt⟩

end SecureGateway.Auth
