import SecureGateway.Auth.Authorization
import SecureGateway.Auth.Interleaving

/-!
# Revocation is final

A completion that found a pairing before may still rewrite its devices, and billing may set
its license active again; the stored status stays revoked, because no request writes another
status and none creates a pairing under an id that exists. A later token request reads it
revoked and is refused.
-/

namespace SecureGateway.Auth
open Authstore Prog

def Revoked (s : Store) (pairID : String) : Prop :=
  ∃ p, s.pairings.get pairID = some p ∧ p.status=.revoked

variable {pairID : String}

theorem Revoked.kept {a : Answer} {op : Op} {w : World} (h : Revoked w.store pairID)
    (hcreate : ∀ p,op ≠ .store (.createPairing p))
    (hstatus : ∀ id status,op = .store (.setPairingStatus id status) → status=.revoked) :
    Revoked (perform a op w).2.store pairID := by
  rcases perform_writes a op w with hsame | ⟨sop,rfl,hw⟩
  · exact hsame.symm ▸ h
  generalize (Auth.perform a (.store sop) w).2.store=s' at hw
  cases hw with
  | pairing p hnew => exact absurd rfl (hcreate p)
  | pairingWithin p maxPairs hnew hfree =>
    -- an id that is taken is not written again
    exact Table.exists_get_put h fun q hq => by simp [hnew] at hq
  | pairingStatus id status p hold =>
    exact Table.exists_get_put h fun _ _ _ => hstatus id status rfl
  | pairingDevices id mobileID desktopID p hold =>
    refine Table.exists_get_put h fun q hq hrev => ?_
    obtain rfl : p=q := by simpa [Table.replaced hold rfl] using hq
    exact hrev
  | _ => exact h

variable {given : Stripe.Subscription → Prop}

theorem Revoked.perform {b : Bool} {log : List Event} {a : Answer} {op : Op} {w : World}
    (h : Revoked w.store pairID) (hok : Permitted given b log op) :
    Revoked (perform a op w).2.store pairID := by
  refine h.kept (fun p hop => ?_) fun id status hop => ?_
  · subst hop
    exact hok
  · subst hop
    exact hok

def revokes (pairID : String) : Event → Bool
  | ⟨.store (.setPairingStatus id .revoked),.ok _⟩ => id == pairID
  | _ => false

theorem eq_setPairingStatus_of_revokes {e : Event} (h : revokes pairID e=true) :
    e=⟨.store (.setPairingStatus pairID .revoked),.ok ()⟩ := by
  unfold revokes at h
  split at h
  · next id _ => simpa using h
  · cases h

theorem revoked_of_setPairingStatus {a : Answer} {w : World}
    (h : (perform a (.store (.setPairingStatus pairID .revoked)) w).1 = .ok ()) :
    Revoked (perform a (.store (.setPairingStatus pairID .revoked)) w).2.store pairID := by
  obtain ⟨hexec,hstore⟩:=perform_ok h
  rw [hstore]
  simp only [Store.exec,Store.setPairingStatus,Store.modifyPairing] at hexec ⊢
  cases hget : w.store.pairings.get pairID with
  | none => simp [hget] at hexec
  | some p =>
    have hkey : p.pairID=pairID := Table.key_of_get hget
    refine ⟨{ p with status := .revoked },?_,rfl⟩
    simp [hkey]

/- What a request knows that reads pairings only once `pairID` is revoked. -/
structure Forewarned (pairID : String) (log : List Event) : Prop where
  reads : ∀ id p, Saw log (.getPairing id) (.ok p) →
    p.pairID = id ∧ (id=pairID → p.status=.revoked)
  mints : ∀ tok r, (⟨.mint tok,r⟩ : Event) ∈ log → tok.pairID≠pairID

theorem forewarned_nil (pairID : String) : Forewarned pairID [] where
  reads id p h := by cases h
  mints tok r h := by cases h

theorem Forewarned.perform {b : Bool} {log : List Event} (h : Forewarned pairID log) (a : Answer)
    {op : Op} {w : World} (hok : Permitted given b log op) (hrev : Revoked w.store pairID) :
    Forewarned pairID (⟨op,(perform a op w).1⟩::log) where
  reads id p hsaw := by
    rcases saw_perform hsaw with ⟨rfl,hexec⟩ | hold
    · have hget : w.store.pairings.get id=some p := by simpa [Store.exec] using hexec
      refine ⟨Table.key_of_get hget,?_⟩
      rintro rfl
      obtain ⟨q,hq,hstatus⟩:=hrev
      obtain rfl : q=p := by simpa [hget] using hq.symm
      exact hstatus
    · exact h.reads id p hold
  mints tok r hmem := by
    rcases List.mem_cons.1 hmem with heq | hold
    · obtain ⟨rfl,-⟩:=Sigma.mk.inj heq
      obtain ⟨pairing,dev,lic,hauth,hpair,-⟩:=hok
      obtain ⟨id,hsaw,-⟩:=hauth.backed
      obtain ⟨hid,hstatus⟩:=h.reads id pairing hsaw
      rintro rfl
      have hrevoked : pairing.status=.revoked := hstatus (hid.symm.trans hpair.symm)
      rw [hauth.active] at hrevoked
      cases hrevoked
    · exact h.mints tok r hold

/-! ## What an accepted request has read -/

variable {s : Service}

theorem handleIssueToken_reads (authorization : String) (req : TokenReq) :
    Obeys (fun _ _ => True) (fun res l => ∀ resp,res = .ok resp →
        ∃ pairing,Saw l (.getPairing req.pairID) (.ok pairing) ∧ pairing.status=.active) []
      (handleIssueToken s authorization (some req)) := by
  refine obeys_seq (obeys_any _ _) fun r l _ _ => ?_
  rcases r with _ | ⟨accountID,cred⟩
  · exact obeys_pure (by simp)
  refine obeys_ite (fun _ => obeys_pure (by simp)) fun _ => ?_
  refine obeys_ite (fun _ => obeys_pure (by simp)) fun _ =>
    obeys_stored trivial (fun pairing => ?_) fun _ => obeys_pure (by simp)
  refine obeys_ite (fun _ => obeys_pure (by simp)) fun hp => ?_
  have hactive : pairing.status=.active := not_not.1 (not_or.1 hp).2
  refine obeys_mono (obeys_grows (obeys_any _ _)) fun res l' hl' _ _ => ?_
  exact ⟨pairing,Saw.mono (saw_head _ _ _) hl'.2,hactive⟩

theorem handleRefreshToken_reads (req : Option String) :
    Obeys (fun _ _ => True) (fun res l => ∀ resp,res = .ok resp → ∃ rt pairing,
        presented l=some rt ∧ Saw l (.getPairing rt.pairID) (.ok pairing) ∧
        pairing.status = .active) []
      (handleRefreshToken s req) := by
  refine obeys_ite (fun _ => obeys_pure (by simp)) fun _ =>
    obeys_stored trivial (fun rt => ?_) fun _ => obeys_pure (by simp)
  refine obeys_step trivial fun t => obeys_ite (fun _ => ?_) fun _ => obeys_step trivial fun r => ?_
  · refine obeys_ite (fun _ => ?_) fun _ => obeys_pure (by simp)
    exact obeys_seq (obeys_any _ _) fun _ _ _ _ => obeys_pure (by simp)
  rcases r with e | pairing
  · exact obeys_step trivial fun _ => obeys_pure (by simp)
  refine obeys_ite (fun _ => obeys_step trivial fun _ => obeys_pure (by simp)) fun hp => ?_
  have hactive : pairing.status=.active := not_not.1 hp
  refine obeys_mono (obeys_grows (obeys_any _ _)) fun res l' hl' _ _ => ?_
  have hfirst : [⟨.store (.getRefreshToken (s.hashSecret (req.getD ""))),.ok rt⟩] <:+ l' :=
    ((List.suffix_cons _ _).trans (List.suffix_cons _ _)).trans hl'.2
  exact ⟨rt,pairing,presented_of_suffix hfirst,Saw.mono (saw_head _ _ _) hl'.2,hactive⟩

/-- The request makes no token for the pairing: a token request for it is not
answered with one, nor is a refresh whose token, the first thing it reads, is
bound to it. -/
structure Refused (srv : Service) (pairID : String) (log : List Event) : Prop where
  mints : ∀ tok r, (⟨.mint tok,r⟩ : Event) ∈ log → tok.pairID≠pairID
  issue : ∀ authorization req resp,
    Returns (handleIssueToken srv authorization (some req)) log.reverse (.ok resp) →
    req.pairID ≠ pairID
  refresh : ∀ req resp rt, Returns (handleRefreshToken srv req) log.reverse (.ok resp) →
    presented log = some rt → rt.pairID≠pairID

theorem Forewarned.refused {srv : Service} {log : List Event} (h : Forewarned pairID log) :
    Refused srv pairID log where
  mints := h.mints
  issue authorization req resp hret := by
    rintro rfl
    have hpost:=hret.obeys (handleIssueToken_reads authorization req)
    rw [List.reverse_reverse,List.append_nil] at hpost
    obtain ⟨pairing,hsaw,hactive⟩:=hpost resp rfl
    simp [(h.reads _ pairing hsaw).2 rfl] at hactive
  refresh req resp rt hret hfirst := by
    rintro rfl
    have hpost:=hret.obeys (handleRefreshToken_reads req)
    rw [List.reverse_reverse,List.append_nil] at hpost
    obtain ⟨rt',pairing,hfirst',hsaw,hactive⟩:=hpost resp rfl
    obtain rfl : rt'=rt := by simpa [hfirst'] using hfirst
    simp [(h.reads _ pairing hsaw).2 rfl] at hactive

def RevokedSince (pairID : String) (w : World) (history : List (ℕ × Event)) : Prop :=
  (∃ x ∈ history, revokes pairID x.2 = true) → Revoked w.store pairID

def LateRefused (pairID : String) (n : ℕ) (w : World) (history : List (ℕ × Event)) : Prop :=
  Revoked w.store pairID ∧ ∀ j, n≤j → Forewarned pairID (Pool.logOf j history)

theorem revokedSince_perform {b : Bool} {log : List Event} {w : World} {history : List (ℕ × Event)}
    (h : RevokedSince pairID w history) (i : ℕ) (a : Answer) {op : Op}
    (hok : Permitted given b log op) :
    RevokedSince pairID (perform a op w).2 ((i,⟨op,(perform a op w).1⟩)::history) := by
  rintro ⟨x,hmem,hx⟩
  rcases List.mem_cons.1 hmem with rfl | hold
  · obtain ⟨rfl,hr⟩:=Sigma.mk.inj (eq_setPairingStatus_of_revokes hx)
    exact revoked_of_setPairingStatus (eq_of_heq hr)
  · exact (h ⟨x,hold,hx⟩).perform hok

theorem lateRefused_perform {b : Bool} {n : ℕ} {w : World} {history : List (ℕ × Event)}
    (h : LateRefused pairID n w history) (i : ℕ) (a : Answer) {op : Op}
    (hok : Permitted given b (Pool.logOf i history) op) :
    LateRefused pairID n (perform a op w).2 ((i,⟨op,(perform a op w).1⟩)::history) := by
  refine ⟨h.1.perform hok,fun j hj => ?_⟩
  by_cases hij : i=j
  · subst hij
    rw [Pool.logOf_cons_self]
    exact (h.2 i hj).perform a hok h.1
  · rw [Pool.logOf_cons_ne hij]
    exact h.2 j hj

/-- Once a pairing was set to revoked, it is revoked in every later state, and
every request that starts later is refused a token for it. -/
theorem revocation_is_final (srv : Service) (w : World) (before after : List Step)
    (pairID : String)
    (hrevoked : ∃ x ∈ (Machine.run (interleave srv) (Pool.start w) before).history,
      revokes pairID x.2 = true) :
    Revoked (Machine.run (interleave srv) (Pool.start w) (before ++ after)).world.store pairID ∧
      ∀ j t, (Machine.run (interleave srv) (Pool.start w) before).threads.length ≤ j →
        (Machine.run (interleave srv) (Pool.start w) (before ++ after)).threads[j]? = some t →
        Refused srv pairID t.log := by
  rw [Machine.run_append]
  -- up to the revocation: a pairing that was revoked is so in the store
  have hstart : RevokedSince pairID w [] := by simp [RevokedSince]
  have hbefore := permitted_run srv (RevokedSince pairID)
    (fun w history i a op h hok => revokedSince_perform h i a hok) (Pool.ledger_start hstart) before
  generalize Machine.run (interleave srv) (Pool.start w) before = st at hrevoked hbefore ⊢
  -- from there on: the requests with a new number read it revoked
  have hnow : LateRefused pairID st.threads.length st.world st.history := by
    refine ⟨hbefore.inv hrevoked,fun j hj => ?_⟩
    rw [hbefore.recorded.log_new hj]
    exact forewarned_nil pairID
  have hafter := permitted_run srv (LateRefused pairID st.threads.length)
    (fun w history i a op h hok => lateRefused_perform h i a hok)
    ⟨hbefore.disciplined,hbefore.recorded,hnow⟩ after
  refine ⟨hafter.inv.1,fun j t hj ht => ?_⟩
  rw [hafter.recorded.log_eq ht]
  exact (hafter.inv.2 j hj).refused

def unpairing : List Step :=
  .start (.unpair "Bearer acct_a.s" (some "pair_m")) :: calls 10 0 "u"
def phoneReturns : List Step := .start phoneRequest :: calls 20 1 "t"

theorem revocation_is_final_unpaired :
    Revoked (Machine.run (interleave sampleService) (Pool.start pairedWorld)
        (unpairing ++ phoneReturns)).world.store "pair_m" ∧
      ∀ j t, (Machine.run (interleave sampleService) (Pool.start pairedWorld)
          unpairing).threads.length ≤ j →
        (Machine.run (interleave sampleService) (Pool.start pairedWorld)
          (unpairing ++ phoneReturns)).threads[j]? = some t →
        Refused sampleService "pair_m" t.log :=
  revocation_is_final sampleService pairedWorld unpairing phoneReturns "pair_m" (by decide +kernel)

end SecureGateway.Auth
