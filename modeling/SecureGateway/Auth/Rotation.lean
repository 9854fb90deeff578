import Mathlib.Logic.Relation
import SecureGateway.Auth.Authorization
import SecureGateway.Auth.Interleaving

/-!
# Refresh-token rotation

`ConsumeRefreshToken` succeeds once for each token, so a token has at most one successor, and
the family of a token is a chain of which only the last can be unrevoked. Refresh secrets
are fresh, also after hashing, and the clock never shows the zero time, which the store
reads as "not revoked".
-/

namespace SecureGateway.Auth
open Authstore Prog

/-- Some request has consumed the token `id` and stored the token `id'`. -/
def Parent (history : List (ℕ × Event)) (id id' : String) : Prop :=
  ∃ x ∈ history, ∃ y ∈ history, x.1=y.1 ∧ consumedBy x.2 = some id ∧
    (storedBy y.2).map RefreshToken.id = some id'

/- The token and all that were obtained from it by successive refreshes. -/
def Family (history : List (ℕ × Event)) : String → String → Prop :=
  Relation.ReflTransGen (Parent history)

def Live (s : Store) (id : String) : Prop :=
  ∃ rt, s.refreshTokens.get id = some rt ∧ rt.revokedAt=0

def Dead (s : Store) (id : String) : Prop :=
  ∃ rt, s.refreshTokens.get id = some rt ∧ rt.revokedAt≠0

variable {id : String}

theorem Dead.not_live {s : Store} (h : Dead s id) : ¬ Live s id := by
  rintro ⟨rt,hget,hlive⟩
  obtain ⟨rt',hget',hdead⟩:=h
  rw [hget] at hget'
  cases hget'
  exact hdead hlive

/-- A refresh secret that is drawn hashes to no stored id and to none of the
hashes of the secrets drawn before. -/
def freshSecret (srv : Service) (st : Requests) : Step → Bool
  | .call i a =>
    match nextCall st i with
    | some (.newID tag) =>
      tag != "rt" ||
        ((st.world.store.refreshTokens.get (srv.hashSecret (tag ++ "_" ++ a.fresh))).isNone &&
          st.history.all fun x => (drawnBy x.2).all fun secret =>
            srv.hashSecret secret != srv.hashSecret (tag ++ "_" ++ a.fresh))
    | _ => true
  | _ => true

/-- No token is added, each keeps its device, and what is revoked stays so. -/
structure Ages (s s' : Store) : Prop where
  kept : ∀ id rt, s.refreshTokens.get id = some rt → ∃ rt', s'.refreshTokens.get id = some rt' ∧
    rt'.deviceID = rt.deviceID ∧ (rt.revokedAt≠0 → rt'.revokedAt≠0)
  absent : ∀ id, s.refreshTokens.get id = none → s'.refreshTokens.get id = none

theorem ages_of_eq {s s' : Store} (h : s'.refreshTokens=s.refreshTokens) : Ages s s' where
  kept id rt hget := ⟨rt,by rw [h]; exact hget,rfl,fun hne => hne⟩
  absent id hget := by rw [h]; exact hget

theorem ages_put {s s' : Store} {rt : RefreshToken} {t : Time}
    (hold : s.refreshTokens.get id=some rt) (hlive : rt.revokedAt=0)
    (hs : s'.refreshTokens=s.refreshTokens.put { rt with revokedAt := t }) : Ages s s' where
  kept id' rt' hget := by
    rw [hs,Table.get_put]
    split
    · next hid =>
      have hrow:=Table.replaced (a := { rt with revokedAt := t }) hold rfl
      rw [hid,hget] at hrow
      cases hrow
      exact ⟨_,rfl,rfl,fun hne => absurd hlive hne⟩
    · exact ⟨rt',hget,rfl,fun hne => hne⟩
  absent id' hget := by
    rw [hs,Table.get_put_ne]
    · exact hget
    rintro rfl
    have hrow:=Table.replaced (a := { rt with revokedAt := t }) hold rfl
    rw [hget] at hrow
    cases hrow

theorem Ages.dead {s s' : Store} (h : Ages s s') (hd : Dead s id) : Dead s' id := by
  obtain ⟨rt,hget,hne⟩:=hd
  obtain ⟨rt',hget',-,hdead⟩:=h.kept id rt hget
  exact ⟨rt',hget',hdead hne⟩

section Call
variable {srv : Service} {w : World} {history : List (ℕ × Event)} {i : ℕ} {a : Answer} {op : Op}

theorem get_revokeByDevice (s : Store) (deviceID : String) (t : Time) (id : String) :
    (s.revokeRefreshTokensByDevice deviceID t).refreshTokens.get id =
      (s.refreshTokens.get id).map fun r =>
        if r.deviceID=deviceID ∧ r.revokedAt=0 then { r with revokedAt := t } else r := by
  simp [Store.revokeRefreshTokensByDevice]

theorem ages_revokeByDevice (s : Store) (deviceID : String) (t : Time) :
    Ages s (s.revokeRefreshTokensByDevice deviceID t) where
  kept id rt hget := by
    rw [get_revokeByDevice,hget,Option.map_some]
    by_cases hc : rt.deviceID=deviceID ∧ rt.revokedAt=0
    · exact ⟨_,rfl,by rw [if_pos hc],fun hne => absurd hc.2 hne⟩
    · exact ⟨_,rfl,by rw [if_neg hc],fun hne => by rw [if_neg hc]; exact hne⟩
  absent id hget := by rw [get_revokeByDevice,hget]; rfl

theorem ages_perform (hop : ∀ r,op ≠ .store (.putRefreshToken r)) :
    Ages w.store (perform a op w).2.store := by
  cases op with
  | store sop =>
    have hframe:=(perform_frame a sop w).1
    cases hf : a.fault with
    | true => exact ages_of_eq (by simp [perform,hf])
    | false =>
      have hstore : (perform a (.store sop) w).2.store=(w.store.exec ⟨w.clock,a.ties⟩ sop).2 := by
        simp [perform,hf]
      cases sop with
      | putRefreshToken r => exact absurd rfl (hop r)
      | revokeRefreshToken id =>
        rw [hstore]
        simp only [Store.exec,Store.revokeRefreshToken]
        split
        · next rt hget =>
          split
          · next hlive => exact ages_put hget hlive rfl
          · exact ages_of_eq rfl
        · exact ages_of_eq rfl
      | consumeRefreshToken id t =>
        rw [hstore]
        simp only [Store.exec,Store.consumeRefreshToken]
        split
        · next rt hget =>
          split
          · exact ages_of_eq rfl
          · next hlive => exact ages_put hget (not_not.1 hlive) rfl
        · exact ages_of_eq rfl
      | revokeRefreshTokensByDevice deviceID t =>
        rw [hstore]
        exact ages_revokeByDevice w.store deviceID t
      | _ => exact ages_of_eq (hframe rfl)
  | _ => exact ages_of_eq rfl

theorem storedBy_perform {r : RefreshToken} (h : storedBy ⟨op,(perform a op w).1⟩=some r) :
    op = .store (.putRefreshToken r) ∧
      (perform a op w).2.store.refreshTokens=w.store.refreshTokens.put r := by
  unfold storedBy at h
  split at h
  · next r' _ heq =>
    obtain ⟨rfl,hr⟩:=Sigma.mk.inj heq
    cases h
    refine ⟨rfl,?_⟩
    rw [(perform_ok (eq_of_heq hr)).2]
    rfl
  · cases h

theorem ages_of_not_stored (h : storedBy ⟨op,(perform a op w).1⟩=none) :
    Ages w.store (perform a op w).2.store := by
  by_cases hop : ∃ r,op = .store (.putRefreshToken r)
  · obtain ⟨r,rfl⟩:=hop
    cases hr : (perform a (.store (.putRefreshToken r)) w).1 with
    | error e => exact ages_of_eq (by rw [perform_error hr])
    | ok u => rw [hr] at h; cases h
  · exact ages_perform fun r hr => hop ⟨r,hr⟩

theorem consumedBy_perform (h : consumedBy ⟨op,(perform a op w).1⟩=some id) :
    ∃ t,op = .store (.consumeRefreshToken id t) ∧ Live w.store id ∧
      (t≠0 → Dead (perform a op w).2.store id) := by
  unfold consumedBy at h
  split at h
  · next id' t _ heq =>
    obtain ⟨rfl,hr⟩:=Sigma.mk.inj heq
    cases h
    obtain ⟨hexec,hstore⟩:=perform_ok (eq_of_heq hr)
    refine ⟨t,rfl,?_⟩
    rw [hstore]
    simp only [Store.exec,Store.consumeRefreshToken] at hexec ⊢
    cases hget : w.store.refreshTokens.get id with
    | none => simp [hget] at hexec
    | some rt =>
      simp only [hget] at hexec ⊢
      split at hexec
      · cases hexec
      next hlive =>
      have hid : rt.id=id := Table.key_of_get hget
      refine ⟨⟨rt,hget,not_not.1 hlive⟩,fun ht => ⟨{ rt with revokedAt := t },?_,ht⟩⟩
      rw [if_neg hlive,← hid]
      exact Table.get_put_self _ _
  · cases h

theorem drawnBy_perform {secret : String} (h : drawnBy ⟨op,(perform a op w).1⟩=some secret) :
    op = .newID "rt" ∧ secret = "rt" ++ "_" ++ a.fresh := by
  unfold drawnBy at h
  split at h
  · next tag s heq =>
    obtain ⟨rfl,hr⟩:=Sigma.mk.inj heq
    split at h
    · next htag =>
      subst htag
      cases h
      exact ⟨rfl,(eq_of_heq hr).symm⟩
    · cases h
  · cases h

structure Rotated (srv : Service) (w : World) (history : List (ℕ × Event)) : Prop where
  clock : ∀ x ∈ history, ∀ t, x.2 = ⟨.now,t⟩ → t≠0
  spent : ∀ x ∈ history, ∀ id, consumedBy x.2 = some id → Dead w.store id
  /- a token is consumed once -/
  once : ∀ x ∈ history, ∀ y ∈ history, ∀ id, consumedBy x.2 = some id →
    consumedBy y.2 = some id → x.1=y.1
  /- a request stores one token -/
  single : ∀ x ∈ history, ∀ y ∈ history, x.1=y.1 → ∀ r r', storedBy x.2 = some r →
    storedBy y.2 = some r' → r=r'
  distinct : ∀ x ∈ history, ∀ y ∈ history, ∀ secret secret', drawnBy x.2 = some secret →
    drawnBy y.2 = some secret' → srv.hashSecret secret = srv.hashSecret secret' → x.1=y.1
  /- the token of a secret is not stored before the request that drew it does so -/
  unborn : ∀ x ∈ history, ∀ secret, drawnBy x.2 = some secret →
    Never storedBy (Pool.logOf x.1 history) →
    w.store.refreshTokens.get (srv.hashSecret secret) = none

theorem rotated_start (w : World) : Rotated srv w [] where
  clock x h := by cases h
  spent x h := by cases h
  once x h := by cases h
  single x h := by cases h
  distinct x h := by cases h
  unborn x h := by cases h

theorem Rotated.new_id (h : Rotated srv w history) {r : RefreshToken}
    (hok : Conducts srv true (Pool.logOf i history) (.store (.putRefreshToken r))) :
    w.store.refreshTokens.get r.id=none := by
  obtain ⟨⟨secret,hmem,hid⟩,-,hnever,-⟩:=hok
  rw [hid]
  exact h.unborn (i,_) (Pool.mem_logOf.1 hmem) secret rfl hnever

theorem Rotated.dead_called (h : Rotated srv w history)
    (hok : Conducts srv true (Pool.logOf i history) op) (hd : Dead w.store id) :
    Dead (perform a op w).2.store id := by
  cases hs : storedBy ⟨op,(perform a op w).1⟩ with
  | none => exact (ages_of_not_stored hs).dead hd
  | some r =>
    obtain ⟨rfl,hput⟩:=storedBy_perform hs
    obtain ⟨rt,hget,hne⟩:=hd
    have hid : r.id≠id := by
      rintro rfl
      rw [h.new_id hok] at hget
      cases hget
    exact ⟨rt,by rw [hput,Table.get_put_ne _ _ hid]; exact hget,hne⟩

theorem Rotated.spent_called (h : Rotated srv w history)
    (hok : Conducts srv true (Pool.logOf i history) op) :
    ∀ x∈(i,⟨op,(perform a op w).1⟩)::history, ∀ id,consumedBy x.2=some id →
      Dead (perform a op w).2.store id := by
  intro x hx id hid
  rcases List.mem_cons.1 hx with rfl | hold
  · obtain ⟨t,rfl,-,hdead⟩:=consumedBy_perform hid
    obtain ⟨-,hnow,-⟩:=hok
    exact hdead (h.clock (i,_) (Pool.mem_logOf.1 hnow) t rfl)
  · exact h.dead_called hok (h.spent x hold id hid)

theorem Rotated.once_called (h : Rotated srv w history) :
    ∀ x∈(i,⟨op,(perform a op w).1⟩)::history,
    ∀ y∈(i,⟨op,(perform a op w).1⟩)::history, ∀ id,consumedBy x.2=some id →
      consumedBy y.2=some id → x.1=y.1 := by
  -- a token that was consumed is not live, so it is not consumed again
  have hnew (y : ℕ × Event) (hy : y∈history) (id : String)
      (hid : consumedBy ⟨op,(perform a op w).1⟩=some id) : consumedBy y.2≠some id := by
    intro hold
    obtain ⟨t,-,hlive,-⟩:=consumedBy_perform hid
    exact (h.spent y hy id hold).not_live hlive
  intro x hx y hy id hcx hcy
  rcases List.mem_cons.1 hx with rfl | hx
  · rcases List.mem_cons.1 hy with rfl | hy
    · rfl
    · exact absurd hcy (hnew y hy id hcx)
  · rcases List.mem_cons.1 hy with rfl | hy
    · exact absurd hcx (hnew x hx id hcy)
    · exact h.once x hx y hy id hcx hcy

theorem Rotated.single_called (h : Rotated srv w history)
    (hok : Conducts srv true (Pool.logOf i history) op) :
    ∀ x∈(i,⟨op,(perform a op w).1⟩)::history,
    ∀ y∈(i,⟨op,(perform a op w).1⟩)::history, x.1=y.1 → ∀ r r',storedBy x.2=some r →
      storedBy y.2=some r' → r=r' := by
  have hnew (y : ℕ × Event) (hy : y∈history) (hi : i=y.1) (r : RefreshToken)
      (hr : storedBy ⟨op,(perform a op w).1⟩=some r) : storedBy y.2=none := by
    obtain ⟨rfl,-⟩:=storedBy_perform hr
    obtain ⟨-,-,hnever,-⟩:=hok
    exact hnever y.2 (Pool.mem_logOf.2 (by rw [hi]; exact hy))
  intro x hx y hy hxy r r' hrx hry
  rcases List.mem_cons.1 hx with rfl | hx
  · rcases List.mem_cons.1 hy with rfl | hy
    · exact Option.some.inj (hrx.symm.trans hry)
    · rw [hnew y hy hxy r hrx] at hry
      cases hry
  · rcases List.mem_cons.1 hy with rfl | hy
    · rw [hnew x hx hxy.symm r' hry] at hrx
      cases hrx
    · exact h.single x hx y hy hxy r r' hrx hry

def Fresh (srv : Service) (w : World) (history : List (ℕ × Event)) (secret : String) : Prop :=
  w.store.refreshTokens.get (srv.hashSecret secret) = none ∧
    ∀ x ∈ history, ∀ secret', drawnBy x.2 = some secret' →
      srv.hashSecret secret' ≠ srv.hashSecret secret

theorem Rotated.distinct_called (h : Rotated srv w history)
    (hfresh : op = .newID "rt" → Fresh srv w history ("rt" ++ "_" ++ a.fresh)) :
    ∀ x∈(i,⟨op,(perform a op w).1⟩)::history,
    ∀ y∈(i,⟨op,(perform a op w).1⟩)::history, ∀ secret secret',drawnBy x.2=some secret →
      drawnBy y.2=some secret' → srv.hashSecret secret=srv.hashSecret secret' → x.1=y.1 := by
  have hnew (y : ℕ × Event) (hy : y∈history) (secret secret' : String)
      (hs : drawnBy ⟨op,(perform a op w).1⟩=some secret) (hs' : drawnBy y.2=some secret') :
      srv.hashSecret secret'≠srv.hashSecret secret := by
    obtain ⟨hop,rfl⟩:=drawnBy_perform hs
    exact (hfresh hop).2 y hy secret' hs'
  intro x hx y hy secret secret' hsx hsy heq
  rcases List.mem_cons.1 hx with rfl | hx
  · rcases List.mem_cons.1 hy with rfl | hy
    · rfl
    · exact absurd heq.symm (hnew y hy secret secret' hsx hsy)
  · rcases List.mem_cons.1 hy with rfl | hy
    · exact absurd heq (hnew x hx secret' secret hsy hsx)
    · exact h.distinct x hx y hy secret secret' hsx hsy heq

theorem Rotated.unborn_called (h : Rotated srv w history)
    (hok : Conducts srv true (Pool.logOf i history) op)
    (hfresh : op = .newID "rt" → Fresh srv w history ("rt" ++ "_" ++ a.fresh)) :
    ∀ x∈(i,⟨op,(perform a op w).1⟩)::history, ∀ secret,drawnBy x.2=some secret →
      Never storedBy (Pool.logOf x.1 ((i,⟨op,(perform a op w).1⟩)::history)) →
      (perform a op w).2.store.refreshTokens.get (srv.hashSecret secret)=none := by
  intro x hx secret hs hnever
  rcases List.mem_cons.1 hx with rfl | hbefore
  · obtain ⟨rfl,rfl⟩:=drawnBy_perform hs
    exact (hfresh rfl).1
  have hold : Never storedBy (Pool.logOf x.1 history) := by
    intro e he
    exact hnever e (Pool.mem_logOf.2 (List.mem_cons_of_mem _ (Pool.mem_logOf.1 he)))
  cases hst : storedBy ⟨op,(perform a op w).1⟩ with
  | none => exact (ages_of_not_stored hst).absent _ (h.unborn x hbefore secret hs hold)
  | some r =>
    obtain ⟨hop,hput⟩:=storedBy_perform hst
    have hne : r.id≠srv.hashSecret secret := by
      intro heq
      subst hop
      obtain ⟨⟨secret',hmem,hid⟩,-⟩:=hok
      have hi : i=x.1 := h.distinct (i,_) (Pool.mem_logOf.1 hmem) x hbefore secret' secret rfl hs
        (hid.symm.trans heq)
      rw [hi,Pool.logOf_cons_self] at hnever
      rw [hnever _ List.mem_cons_self] at hst
      cases hst
    rw [hput,Table.get_put_ne _ _ hne]
    exact h.unborn x hbefore secret hs hold

end Call

theorem fresh_of_guard {srv : Service} {st : Requests} {i : ℕ} {a : Answer}
    (hguard : freshSecret srv st (.call i a)=true) (hnext : nextCall st i=some (.newID "rt")) :
    Fresh srv st.world st.history ("rt" ++ "_" ++ a.fresh) := by
  simp only [freshSecret,hnext,bne_self_eq_false,Bool.false_or,Bool.and_eq_true,
    Option.isNone_iff_eq_none,List.all_eq_true] at hguard
  refine ⟨hguard.1,fun x hx secret hs => ?_⟩
  have hall:=hguard.2 x hx
  simpa [hs] using hall

theorem rotated_called {srv : Service} (st : Requests) (i : ℕ) (a : Answer) (op : Op)
    (h : Rotated srv st.world st.history)
    (hguard : (freshSecret srv st (.call i a) && neverReads 0 st (.call i a))=true)
    (hnext : nextCall st i=some op) (hok : Conducts srv true (Pool.logOf i st.history) op) :
    Rotated srv (perform a op st.world).2 ((i,⟨op,(perform a op st.world).1⟩)::st.history) := by
  rw [Bool.and_eq_true] at hguard
  have hfresh (hop : op = .newID "rt") : Fresh srv st.world st.history ("rt" ++ "_" ++ a.fresh) :=
    fresh_of_guard hguard.1 (hop ▸ hnext)
  refine ⟨fun x hx t ht => ?_,h.spent_called hok,h.once_called,h.single_called hok,
    h.distinct_called hfresh,h.unborn_called hok hfresh⟩
  rcases List.mem_cons.1 hx with rfl | hx
  · obtain ⟨rfl,hr⟩:=Sigma.mk.inj ht
    cases hr
    simpa [neverReads,hnext,perform] using hguard.2
  · exact h.clock x hx t ht

section Chain
variable {srv : Service} {w : World} {history : List (ℕ × Event)}

theorem Rotated.parent_unique (h : Rotated srv w history) {r r' : String} (hr : Parent history id r)
    (hr' : Parent history id r') : r=r' := by
  obtain ⟨x,hx,y,hy,hxy,hc,hs⟩:=hr
  obtain ⟨x',hx',y',hy',hxy',hc',hs'⟩:=hr'
  obtain ⟨rt,hrt,rfl⟩:=Option.map_eq_some_iff.1 hs
  obtain ⟨rt',hrt',rfl⟩:=Option.map_eq_some_iff.1 hs'
  have hsame : y.1=y'.1 := by rw [← hxy,← hxy',h.once x hx x' hx' id hc hc']
  rw [h.single y hy y' hy' hsame rt rt' hrt hrt']

theorem Rotated.parent_dead (h : Rotated srv w history) {r : String} (hp : Parent history id r) :
    Dead w.store id := by
  obtain ⟨x,hx,-,-,-,hc,-⟩:=hp
  exact h.spent x hx id hc

theorem Rotated.eq_of_family (h : Rotated srv w history) {x y : String} (hxy : Family history x y)
    (hx : Live w.store x) : x=y := by
  rcases Relation.ReflTransGen.cases_head hxy with heq | ⟨z,hz,-⟩
  · exact heq
  · exact absurd hx (h.parent_dead hz).not_live

end Chain

/-- All requests in any order: every refresh token has at most one successor, and
of the tokens obtained from one by successive refreshes at most one is
unrevoked. -/
theorem rotation_is_linear (srv : Service) (w : World) (steps : List Step)
    (hsteps : Machine.Guarded (interleave srv)
      (fun st x => (freshSecret srv st x && neverReads 0 st x) = true) (Pool.start w) steps) :
    (∀ id r r', Parent (Machine.run (interleave srv) (Pool.start w) steps).history id r →
        Parent (Machine.run (interleave srv) (Pool.start w) steps).history id r' → r=r') ∧
      ∀ root x y, Family (Machine.run (interleave srv) (Pool.start w) steps).history root x →
        Family (Machine.run (interleave srv) (Pool.start w) steps).history root y →
        Live (Machine.run (interleave srv) (Pool.start w) steps).world.store x →
        Live (Machine.run (interleave srv) (Pool.start w) steps).world.store y → x=y := by
  have hrun := ledger_run (Rotated srv) _ (fun _ r _ => handle_conducts srv r)
    (fun st i a op => rotated_called st i a op) (Pool.ledger_start (rotated_start w)) hsteps
  refine ⟨fun id r r' => hrun.inv.parent_unique,fun root x y hx hy hlx hly => ?_⟩
  have hunique : Relator.RightUnique (Parent
      (Machine.run (interleave srv) (Pool.start w) steps).history) :=
    fun id r r' => hrun.inv.parent_unique
  rcases Relation.ReflTransGen.total_of_right_unique hunique hx hy with hxy | hyx
  · exact hrun.inv.eq_of_family hxy hlx
  · exact (hrun.inv.eq_of_family hyx hly).symm

/- The phone gets its first refresh token and presents it twice; the second
request makes all its calls after so many of the first. -/
def refreshRace (n : ℕ) : List Step :=
  .start phoneRequest :: calls 20 0 "t" ++
    [.start (.refreshToken (some "rt_t")),.start (.refreshToken (some "rt_t"))] ++
    calls n 1 "u" ++ calls 20 2 "v" ++ calls 20 1 "u"

theorem rotation_is_linear_race :
    Parent (Machine.run (interleave sampleService) (Pool.start pairedWorld)
        (refreshRace 8)).history "#rt_t" "#rt_v" ∧
      (∀ id r r', Parent (Machine.run (interleave sampleService) (Pool.start pairedWorld)
          (refreshRace 8)).history id r →
        Parent (Machine.run (interleave sampleService) (Pool.start pairedWorld)
          (refreshRace 8)).history id r' → r=r') ∧
      ∀ root x y, Family (Machine.run (interleave sampleService) (Pool.start pairedWorld)
          (refreshRace 8)).history root x →
        Family (Machine.run (interleave sampleService) (Pool.start pairedWorld)
          (refreshRace 8)).history root y →
        Live (Machine.run (interleave sampleService) (Pool.start pairedWorld)
          (refreshRace 8)).world.store x →
        Live (Machine.run (interleave sampleService) (Pool.start pairedWorld)
          (refreshRace 8)).world.store y → x=y :=
  ⟨by unfold Parent; decide +kernel,
    rotation_is_linear sampleService pairedWorld (refreshRace 8) (by decide +kernel)⟩

end SecureGateway.Auth
