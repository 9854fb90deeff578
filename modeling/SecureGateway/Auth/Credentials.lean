import SecureGateway.Auth.Interleaving
import SecureGateway.Auth.Finality

/-!
# Pairings and their credentials

A completion writes the phone into the pairing and stores its credential in two calls, which
two re-pairs of one desktop may make in opposite orders. Where a credential is stored only
while the last phone of the pairing is the request's own, or belongs to a request that is
still going to store one, the two agree whenever no request is in flight.
-/

namespace SecureGateway.Auth
open Authstore Prog

def Credits (s : Store) (id : String) (p : Pairing) : Prop :=
  ∃ c, s.pairCredentials.get id = some c ∧ c.revokedAt=0 ∧ c.mobileDeviceID=p.mobileDeviceID

/-- Every active pairing has an unrevoked credential for the phone it names. -/
def CredentialsAgree (s : Store) : Prop :=
  ∀ id p, s.pairings.get id = some p → p.status=.active → Credits s id p

/-- The request that last wrote the phone of the pairing. -/
def lastWriter (pairID : String) : List (ℕ × Event) → Option ℕ
  | [] => none
  | (j,e) :: history =>
    if (rewrote e).any (fun x => x.1 == pairID) then some j else lastWriter pairID history

/- The request that last wrote the pairing's phone is `i`, or has its credential
still to store. -/
def uncontested (pairID : String) (i : ℕ) (history : List (ℕ × Event)) : Bool :=
  (lastWriter pairID history).all fun j =>
    j == i || (owes (Pool.logOf j history)).any fun x => x.1 == pairID

def faultless : Step → Bool
  | .start _ => true
  | .crash _ => false
  | .call _ a => !a.fault

/-- A faultless step that stores a credential only where the pairing's phone is
not settled by another request. -/
def orderly (st : Requests) (x : Step) : Bool :=
  faultless x &&
    match x with
    | .call i _ =>
      match nextCall st i with
      | some (.store (.putPairCredential c)) => uncontested c.pairID i st.history
      | _ => true
    | _ => true

section Call
variable {srv : Service} {w : World} {history : List (ℕ × Event)} {i : ℕ} {a : Answer} {op : Op}

def Undisturbed (s s' : Store) : Prop :=
  ∀ id p', s'.pairings.get id = some p' → p'.status=.active →
    (∃ p, s.pairings.get id = some p ∧ p.status=.active ∧ p.mobileDeviceID=p'.mobileDeviceID) ∧
      s'.pairCredentials.get id = s.pairCredentials.get id

theorem undisturbed_of_eq {s s' : Store} (hp : s'.pairings=s.pairings)
    (hc : s'.pairCredentials=s.pairCredentials) : Undisturbed s s' := by
  intro id p' hget hactive
  rw [hp] at hget
  rw [hc]
  exact ⟨⟨p',hget,hactive,rfl⟩,rfl⟩

/-- What a call does to phones and credentials. -/
inductive Handles (s s' : Store) (log : List Event) (e : Event) : Prop
  | wrote (p : Pairing) (hlog : owes log = none)
      (he : rewrote e = some (p.pairID,p.mobileDeviceID))
      (hp : s'.pairings = s.pairings.put p) (hc : s'.pairCredentials=s.pairCredentials)
  | credited (c : PairCredential) (hlog : owes log = some (c.pairID,c.mobileDeviceID))
      (hrev : c.revokedAt=0) (he : rewrote e = none) (hce : credentialed e = some c)
      (hp : s'.pairings=s.pairings) (hc : s'.pairCredentials = s.pairCredentials.put c)
  | neither (he : rewrote e = none) (hce : credentialed e = none) (hkept : Undisturbed s s')

variable {log : List Event}

theorem handles_create {p : Pairing} {maxPairs : ℕ}
    (hok : Conducts srv true log (.store (.createPairingWithinCapacity p maxPairs))) :
    Handles w.store (perform a (.store (.createPairingWithinCapacity p maxPairs)) w).2.store log
      ⟨_,(perform a (.store (.createPairingWithinCapacity p maxPairs)) w).1⟩ := by
  cases hr : (perform a (.store (.createPairingWithinCapacity p maxPairs)) w).1 with
  | error e =>
    refine .neither rfl rfl ?_
    rw [perform_error hr]
    exact undisturbed_of_eq rfl rfl
  | ok u =>
    obtain ⟨hexec,hstore⟩:=perform_ok hr
    refine .wrote p hok.2.2 rfl ?_ ?_
    · rw [hstore]
      exact congrArg Store.pairings (Store.createPairingWithinCapacity_ok _ hexec)
    · exact (perform_frame a _ w).2.1 rfl

theorem handles_update {pairID mobileID desktopID : String}
    (hok : Conducts srv true log (.store (.updatePairingDevices pairID mobileID desktopID))) :
    Handles w.store (perform a (.store (.updatePairingDevices pairID mobileID desktopID)) w).2.store
      log ⟨_,(perform a (.store (.updatePairingDevices pairID mobileID desktopID)) w).1⟩ := by
  cases hr : (perform a (.store (.updatePairingDevices pairID mobileID desktopID)) w).1 with
  | error e =>
    refine .neither rfl rfl ?_
    rw [perform_error hr]
    exact undisturbed_of_eq rfl rfl
  | ok u =>
    obtain ⟨hexec,hstore⟩:=perform_ok hr
    simp only [Store.exec,Store.updatePairingDevices,Store.modifyPairing] at hexec hstore
    cases hget : w.store.pairings.get pairID with
    | none => simp [hget] at hexec
    | some q =>
      have hid : q.pairID=pairID := Table.key_of_get hget
      simp only [hget] at hstore
      refine .wrote { q with mobileDeviceID := mobileID, desktopDeviceID := desktopID } hok.2.2 ?_
        (by rw [hstore]) (by rw [hstore])
      simp [rewrote,hid]

theorem handles_put {c : PairCredential} (hfault : a.fault=false)
    (hok : Conducts srv true log (.store (.putPairCredential c))) :
    Handles w.store (perform a (.store (.putPairCredential c)) w).2.store log
      ⟨_,(perform a (.store (.putPairCredential c)) w).1⟩ := by
  refine .credited c hok.1 hok.2 rfl ?_ ?_ ?_ <;>
    simp [perform,hfault,Store.exec,credentialed]

variable {pairID : String}

theorem undisturbed_revokeCredential {t : Time} (hrev : Revoked w.store pairID) :
    Undisturbed w.store (perform a (.store (.revokePairCredential pairID t)) w).2.store := by
  cases hf : a.fault with
  | true => exact undisturbed_of_eq (by simp [perform,hf]) (by simp [perform,hf])
  | false =>
    intro id p' hget hactive
    have hget' : w.store.pairings.get id=some p' := by
      rw [← (perform_frame a (.revokePairCredential pairID t) w).2.2.1 rfl]
      exact hget
    have hne : id≠pairID := by
      rintro rfl
      obtain ⟨q,hq,hstatus⟩:=hrev
      rw [hget'] at hq
      cases hq
      rw [hactive] at hstatus
      cases hstatus
    refine ⟨⟨p',hget',hactive,rfl⟩,?_⟩
    simp only [perform,hf,Store.exec,Store.revokePairCredential,Bool.false_eq_true,if_false]
    split
    · next c hc =>
      split
      · have hkey : c.pairID=pairID := Table.key_of_get hc
        exact Table.get_put_ne _ _ (by simpa [hkey] using Ne.symm hne)
      · rfl
    · rfl

theorem undisturbed_setPairingStatus :
    Undisturbed w.store (perform a (.store (.setPairingStatus pairID .revoked)) w).2.store := by
  rcases perform_writes a (.store (.setPairingStatus pairID .revoked)) w with hsame | ⟨sop,hop,hw⟩
  · exact undisturbed_of_eq (by rw [hsame]) (by rw [hsame])
  cases hop
  have hcred : (perform a (.store (.setPairingStatus pairID .revoked)) w).2.store.pairCredentials =
      w.store.pairCredentials := (perform_frame a _ w).2.1 rfl
  intro id p' hget hactive
  rw [hcred]
  refine ⟨?_,rfl⟩
  generalize (perform a (.store (.setPairingStatus pairID .revoked)) w).2.store=s' at hw hget
  cases hw with
  | pairingStatus _ _ p hold =>
    rw [Table.get_put] at hget
    split at hget
    · cases hget; cases hactive
    · exact ⟨p',hget,hactive,rfl⟩
  | _ => exact ⟨p',hget,hactive,rfl⟩

theorem handles_call (hfault : a.fault=false)
    (hrev : ∀ id,Saw log (.setPairingStatus id .revoked) (.ok ()) → Revoked w.store id)
    (hok : Conducts srv true log op) :
    Handles w.store (perform a op w).2.store log ⟨op,(perform a op w).1⟩ := by
  cases op with
  | store sop =>
    have hframe:=perform_frame a sop w
    cases sop with
    | createPairing p => exact absurd hok id
    | createPairingWithinCapacity p maxPairs => exact handles_create hok
    | updatePairingDevices pairID mobileID desktopID => exact handles_update hok
    | putPairCredential c => exact handles_put hfault hok
    | revokePairCredential pairID t =>
      exact .neither rfl rfl (undisturbed_revokeCredential (hrev pairID hok))
    | setPairingStatus pairID status =>
      obtain rfl : status=.revoked := hok
      exact .neither rfl rfl undisturbed_setPairingStatus
    | _ => exact .neither rfl rfl (undisturbed_of_eq (hframe.2.2.1 rfl) (hframe.2.1 rfl))
  | _ => exact .neither rfl rfl (undisturbed_of_eq rfl rfl)

structure Credited (w : World) (history : List (ℕ × Event)) : Prop where
  agree : ∀ id p, w.store.pairings.get id = some p → p.status=.active →
    Credits w.store id p ∨ ∃ j, lastWriter id history = some j ∧
      owes (Pool.logOf j history) = some (id,p.mobileDeviceID)
  /- a request that has a credential to store has written a phone, the pairing's
  own if it was the last to do so -/
  writer : ∀ i id mobileID, owes (Pool.logOf i history) = some (id,mobileID) →
    ∃ j, lastWriter id history = some j ∧ (j=i → ∀ p, w.store.pairings.get id = some p →
      p.status = .active → p.mobileDeviceID=mobileID)
  revoked : ∀ i id, Saw (Pool.logOf i history) (.setPairingStatus id .revoked) (.ok ()) →
    Revoked w.store id
  stored : ∀ i c e, ¬ Saw (Pool.logOf i history) (.putPairCredential c) (.error e)

theorem credited_start (hw : CredentialsAgree w.store) : Credited w [] where
  agree id p hp hactive := .inl (hw id p hp hactive)
  writer i id mobileID h := by simp [Pool.logOf,owes] at h
  revoked i id h := by cases h
  stored i c e h := by cases h

theorem lastWriter_cons (pairID : String) (e : Event) :
    lastWriter pairID ((i,e)::history) =
      if (rewrote e).any (fun x => x.1 == pairID) then some i else lastWriter pairID history := rfl

theorem owes_called {e : Event} (he : rewrote e=none) (hce : credentialed e=none) (j : ℕ) :
    owes (Pool.logOf j ((i,e)::history))=owes (Pool.logOf j history) := by
  by_cases hij : i=j
  · subst hij
    simp [owes,he,hce]
  · rw [Pool.logOf_cons_ne hij]

theorem lastWriter_called {e : Event} (he : ∀ x,rewrote e=some x → x.1≠pairID) :
    lastWriter pairID ((i,e)::history)=lastWriter pairID history := by
  rw [lastWriter_cons,if_neg]
  cases hr : rewrote e with
  | none => simp
  | some x => simpa using he x hr

variable {s' : Store} {e : Event}

theorem Credited.agree_called (h : Credited w history)
    (hh : Handles w.store s' (Pool.logOf i history) e)
    (hguard : ∀ c,credentialed e=some c → uncontested c.pairID i history=true)
    (id : String) (q : Pairing) (hq : s'.pairings.get id=some q) (hactive : q.status=.active) :
    Credits s' id q ∨ ∃ j,lastWriter id ((i,e)::history)=some j ∧
      owes (Pool.logOf j ((i,e)::history))=some (id,q.mobileDeviceID) := by
  cases hh with
  | wrote p hlog he hp hc =>
    rw [hp,Table.get_put] at hq
    split at hq
    · next hid =>
      cases hq
      exact .inr ⟨i,by simp [lastWriter_cons,he,hid],by simp [owes,he,hid]⟩
    next hid =>
    rcases h.agree id q hq hactive with ⟨c,hget,hcred⟩ | ⟨j,hj,ho⟩
    · exact .inl ⟨c,by rw [hc]; exact hget,hcred⟩
    have hij : i≠j := by
      rintro rfl
      rw [hlog] at ho
      cases ho
    refine .inr ⟨j,?_,by rw [Pool.logOf_cons_ne hij]; exact ho⟩
    rw [lastWriter_called fun x hx => by rw [he] at hx; cases hx; exact hid]
    exact hj
  | credited c hlog hrev he hce hp hc =>
    rw [hp] at hq
    rw [lastWriter_called fun x hx => by simp [he] at hx]
    by_cases hid : c.pairID=id
    · subst hid
      obtain ⟨j,hj,hown⟩:=h.writer i _ _ hlog
      by_cases hij : j=i
      · have hmobile:=hown hij q hq hactive
        exact .inl ⟨c,by rw [hc]; exact Table.get_put_self _ c,hrev,hmobile.symm⟩
      -- the phone is another request's, whose credential is still to come
      have hfree:=hguard c hce
      simp only [uncontested,hj,Option.all_some,Bool.or_eq_true,beq_iff_eq,hij,
        false_or] at hfree
      rcases hx : owes (Pool.logOf j history) with _ | ⟨id',mobileID⟩
      · simp [hx] at hfree
      obtain rfl : id'=c.pairID := by simpa [hx] using hfree
      obtain ⟨j',hj',hown'⟩:=h.writer j _ mobileID hx
      have hmobile:=hown' (by simpa [hj] using hj'.symm) q hq hactive
      refine .inr ⟨j,hj,?_⟩
      rw [Pool.logOf_cons_ne (Ne.symm hij),hx,hmobile]
    · rcases h.agree id q hq hactive with ⟨c',hget,hcred⟩ | ⟨j,hj,ho⟩
      · exact .inl ⟨c',by rw [hc,Table.get_put_ne _ _ hid]; exact hget,hcred⟩
      have hij : i≠j := by
        rintro rfl
        rw [hlog] at ho
        exact hid (Prod.mk.inj (Option.some.inj ho)).1
      exact .inr ⟨j,hj,by rw [Pool.logOf_cons_ne hij]; exact ho⟩
  | neither he hce hkept =>
    obtain ⟨⟨p,hp,hpactive,hmobile⟩,hcred⟩:=hkept id q hq hactive
    rw [lastWriter_called fun x hx => by simp [he] at hx]
    rcases h.agree id p hp hpactive with ⟨c,hget,hrev,heq⟩ | ⟨j,hj,ho⟩
    · exact .inl ⟨c,by rw [hcred]; exact hget,hrev,heq.trans hmobile⟩
    · exact .inr ⟨j,hj,by rw [owes_called he hce,ho,hmobile]⟩

theorem Credited.writer_called (h : Credited w history)
    (hh : Handles w.store s' (Pool.logOf i history) e) (k : ℕ) (id mobileID : String)
    (ho : owes (Pool.logOf k ((i,e)::history))=some (id,mobileID)) :
    ∃ j,lastWriter id ((i,e)::history)=some j ∧ (j=k → ∀ q,s'.pairings.get id=some q →
      q.status = .active → q.mobileDeviceID=mobileID) := by
  cases hh with
  | wrote p hlog he hp hc =>
    by_cases hik : i=k
    · subst hik
      simp only [Pool.logOf_cons_self,owes,he,Option.some.injEq,Prod.mk.injEq] at ho
      obtain ⟨rfl,rfl⟩:=ho
      refine ⟨i,by simp [lastWriter_cons,he],fun _ q hq _ => ?_⟩
      rw [hp,Table.get_put_self] at hq
      cases hq
      rfl
    · rw [Pool.logOf_cons_ne hik] at ho
      by_cases hid : p.pairID=id
      · exact ⟨i,by simp [lastWriter_cons,he,hid],fun hk => absurd hk hik⟩
      obtain ⟨j,hj,hown⟩:=h.writer k id mobileID ho
      refine ⟨j,?_,fun hjk q hq hactive => ?_⟩
      · rw [lastWriter_called fun x hx => by rw [he] at hx; cases hx; exact hid]
        exact hj
      · rw [hp,Table.get_put_ne _ _ hid] at hq
        exact hown hjk q hq hactive
  | credited c hlog hrev he hce hp hc =>
    rw [lastWriter_called fun x hx => by simp [he] at hx,hp]
    by_cases hik : i=k
    · subst hik
      simp [owes,he,hce] at ho
    · rw [Pool.logOf_cons_ne hik] at ho
      exact h.writer k id mobileID ho
  | neither he hce hkept =>
    rw [owes_called he hce] at ho
    obtain ⟨j,hj,hown⟩:=h.writer k id mobileID ho
    refine ⟨j,?_,fun hjk q hq hactive => ?_⟩
    · rw [lastWriter_called fun x hx => by simp [he] at hx]
      exact hj
    · obtain ⟨⟨p,hp,hpactive,hmobile⟩,-⟩:=hkept id q hq hactive
      exact hmobile.symm.trans (hown hjk p hp hpactive)

theorem Credited.revoked_called (h : Credited w history)
    (hok : Conducts srv true (Pool.logOf i history) op) (j : ℕ) (id : String)
    (hsaw : Saw (Pool.logOf j ((i,⟨op,(perform a op w).1⟩)::history))
      (.setPairingStatus id .revoked) (.ok ())) :
    Revoked (perform a op w).2.store id := by
  by_cases hnew : (⟨op,(perform a op w).1⟩ : Event) =
      ⟨.store (.setPairingStatus id .revoked),.ok ()⟩
  · obtain ⟨rfl,hr⟩:=Sigma.mk.inj hnew
    exact revoked_of_setPairingStatus (eq_of_heq hr)
  have hold : Saw (Pool.logOf j history) (.setPairingStatus id .revoked) (.ok ()) := by
    rw [Saw,Pool.mem_logOf] at hsaw ⊢
    refine (List.mem_cons.1 hsaw).resolve_left fun heq => hnew ?_
    exact (Prod.mk.inj heq).2.symm
  refine (h.revoked j id hold).kept (fun p hop => ?_) fun id' status hop => ?_
  · subst hop
    exact hok
  · subst hop
    exact hok

theorem Credited.stored_called (h : Credited w history) (hfault : a.fault=false) (j : ℕ)
    (c : PairCredential) (err : Err) :
    ¬ Saw (Pool.logOf j ((i,⟨op,(perform a op w).1⟩)::history)) (.putPairCredential c)
      (.error err) := by
  intro hsaw
  rw [Saw,Pool.mem_logOf] at hsaw
  rcases List.mem_cons.1 hsaw with heq | hold
  · obtain ⟨rfl,hr⟩:=Sigma.mk.inj (Prod.mk.inj heq).2
    have hanswer:=eq_of_heq hr
    simp [perform,hfault,Store.exec] at hanswer
  · exact h.stored j c err (Pool.mem_logOf.2 hold)

end Call

theorem credited_called {srv : Service} (st : Requests) (i : ℕ) (a : Answer) (op : Op)
    (h : Credited st.world st.history) (hguard : orderly st (.call i a)=true)
    (hnext : nextCall st i=some op) (hok : Conducts srv true (Pool.logOf i st.history) op) :
    Credited (perform a op st.world).2 ((i,⟨op,(perform a op st.world).1⟩)::st.history) := by
  simp only [orderly,faultless,Bool.and_eq_true,Bool.not_eq_true'] at hguard
  have hfault : a.fault=false := hguard.1
  have hh:=handles_call hfault (h.revoked i) hok
  refine ⟨h.agree_called hh fun c hc => ?_,h.writer_called hh,h.revoked_called hok,
    h.stored_called hfault⟩
  have hop : op = .store (.putPairCredential c) := by
    unfold credentialed at hc
    split at hc
    · next c' _ heq =>
      cases hc
      exact (Sigma.mk.inj heq).1
    · cases hc
  subst hop
  simpa [hnext] using hguard.2

theorem unkilled_run {srv : Service} {w : World} {guard : Requests → Step → Prop}
    {steps : List Step} (hsteps : Machine.Guarded (interleave srv) guard (Pool.start w) steps)
    (hcrash : ∀ st i,¬ guard st (.crash i)) :
    Pool.Unkilled (Machine.run (interleave srv) (Pool.start w) steps) := by
  refine Machine.guarded_invariant (interleave srv) guard Pool.Unkilled ?_ _ steps
    (Pool.unkilled_start w) hsteps
  intro st x hu hx
  refine Pool.unkilled_next perform st (x.pool srv) hu fun i hkill => ?_
  cases x with
  | start r => cases hkill
  | call j a => cases hkill
  | crash j => exact hcrash st j hx

/-- From a store in which pairings and credentials agree, requests in any order
without failures, where a credential is stored only while the pairing's phone is
not settled by another request: they agree whenever no request is in flight. -/
theorem credentials_agree_when_idle (srv : Service) (w : World) (hw : CredentialsAgree w.store)
    (steps : List Step)
    (hsteps : Machine.Guarded (interleave srv) (fun st x => orderly st x = true) (Pool.start w)
      steps)
    (hidle : (Machine.run (interleave srv) (Pool.start w) steps).idle = true) :
    CredentialsAgree (Machine.run (interleave srv) (Pool.start w) steps).world.store := by
  have hrun := ledger_run Credited _ (fun _ r _ => handle_conducts srv r)
    (fun st i a op => credited_called st i a op) (Pool.ledger_start (credited_start hw)) hsteps
  have halive := unkilled_run hsteps fun st i hcrash => by cases hcrash
  generalize Machine.run (interleave srv) (Pool.start w) steps = st at hidle hrun halive
  -- a request that has returned owes no credential
  have hnone (j : ℕ) : owes (Pool.logOf j st.history) = none := by
    rcases ht : st.threads[j]? with _ | t
    · rw [hrun.recorded.log_new (List.getElem?_eq_none_iff.1 ht)]
      rfl
    rw [← hrun.recorded.log_eq ht]
    have hmem : t ∈ st.threads := List.mem_of_getElem? ht
    have hfin : t.finished=true := List.all_eq_true.1 hidle t hmem
    rcases hrun.disciplined.finished ht hfin with hkilled | hnone | ⟨c,e,hsaw⟩
    · exact absurd hkilled (halive j t ht)
    · exact hnone
    · rw [hrun.recorded.log_eq ht] at hsaw
      exact absurd hsaw (hrun.inv.stored j c e)
  intro id p hp hactive
  rcases hrun.inv.agree id p hp hactive with hcred | ⟨j,-,ho⟩
  · exact hcred
  · rw [hnone j] at ho
    cases ho

/- The first phone is written into a new pairing, the second one re-pairs and gets
its credential, then the first one's is stored. -/
def crossedPhones : List Step := desktopSetUp sampleSubscription ++ phonesRace 20

theorem crossed_phones_disagree :
    crossedPhones.all faultless = true ∧
      (Machine.run (interleave sampleService) (Pool.start {}) crossedPhones).idle = true ∧
      ¬ CredentialsAgree (Machine.run (interleave sampleService) (Pool.start {})
        crossedPhones).world.store := by
  refine ⟨by decide +kernel,by decide +kernel,fun hagree => ?_⟩
  have hp : ((Machine.run (interleave sampleService) (Pool.start {})
      crossedPhones).world.store.pairings.get "pair_m").map
        (fun p => (p.status,p.mobileDeviceID)) = some (.active,"dev_n") := by decide +kernel
  have hc : ((Machine.run (interleave sampleService) (Pool.start {})
      crossedPhones).world.store.pairCredentials.get "pair_m").map
        PairCredential.mobileDeviceID = some "dev_m" := by decide +kernel
  obtain ⟨p,hget,hpair⟩ := Option.map_eq_some_iff.1 hp
  simp only [Prod.mk.injEq] at hpair
  obtain ⟨c,hcred,-,hmobile⟩ := hagree "pair_m" p hget hpair.1
  rw [hcred,Option.map_some,hmobile,hpair.2] at hc
  exact absurd hc (by decide)

theorem credentials_agree_when_idle_in_turn :
    (Machine.run (interleave sampleService) (Pool.start {})
        (desktopSetUp sampleSubscription ++ phonesRace 30)).idle = true ∧
      CredentialsAgree (Machine.run (interleave sampleService) (Pool.start {})
        (desktopSetUp sampleSubscription ++ phonesRace 30)).world.store :=
  ⟨by decide +kernel,credentials_agree_when_idle sampleService {} (by simp [CredentialsAgree])
    (desktopSetUp sampleSubscription ++ phonesRace 30) (by decide +kernel) (by decide +kernel)⟩

end SecureGateway.Auth
