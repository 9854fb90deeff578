import SecureGateway.Auth.Authorization
import SecureGateway.Auth.Interleaving

/-!
# One account under concurrency

A token is minted from rows that were read one after another, while other requests write.
The status of those rows may be out of date then, but not what they name: no write moves a
pairing to another license or account, or a license to another account.
-/

namespace SecureGateway.Auth
open Authstore Prog

/- The store has the pairing under the same license and account. -/
def Names (s : Store) (p : Pairing) : Prop :=
  ∃ q, s.pairings.get p.pairID = some q ∧ q.licenseID=p.licenseID ∧ q.accountID=p.accountID

theorem Names.writes {s s' : Store} {op : StoreOp} {p : Pairing} (h : Names s p)
    (hw : Writes s op s') : Names s' p := by
  cases hw with
  | pairing q hnew | pairingWithin q _ hnew =>
    exact Table.exists_get_put h fun p₀ hp₀ => by simp [hnew] at hp₀
  | pairingStatus _ _ q hold | pairingDevices _ _ _ q hold =>
    refine Table.exists_get_put h fun p₀ hp₀ hsame => ?_
    obtain rfl : q=p₀ := by simpa [Table.replaced hold rfl] using hp₀
    exact hsame
  | _ => exact h

theorem kept_perform {P : Store → Prop} (hP : ∀ {s op s'},P s → Writes s op s' → P s') {w : World}
    (a : Answer) (op : Op) (h : P w.store) : P (perform a op w).2.store := by
  rcases perform_writes a op w with hsame | ⟨_,-,hw⟩
  · exact hsame ▸ h
  · exact hP h hw

theorem kept_run {P : Store → Prop} (hP : ∀ {s op s'},P s → Writes s op s' → P s') (srv : Service)
    {st : Requests} (steps : List Step) (h : P st.world.store) :
    P (Machine.run (interleave srv) st steps).world.store :=
  Machine.run_invariant (interleave srv) (fun st => P st.world.store) (fun _ x hst =>
    Pool.world_next perform (fun w => P w.store) (fun _ a op => kept_perform hP a op) hst
      (x.pool srv)) st steps h

/-- No request, in any order and with any failures, deletes a license or a pairing, or moves
one to another account, or a pairing to another license. -/
theorem owners_stay (srv : Service) (st : Requests) (steps : List Step) :
    (∀ l acct, OwnedBy st.world.store l acct →
        OwnedBy (Machine.run (interleave srv) st steps).world.store l acct) ∧
      ∀ p, Names st.world.store p →
        Names (Machine.run (interleave srv) st steps).world.store p :=
  ⟨fun l acct => kept_run (P := (OwnedBy · l acct)) OwnedBy.writes srv steps,
    fun p => kept_run (P := (Names · p)) Names.writes srv steps⟩

/-- The records agree on their account, and with what every request has read. -/
structure Consistent (w : World) (history : List (ℕ × Event)) : Prop where
  bound : Bound w.store
  remembers : ∀ i, Remembers (Pool.logOf i history) w.store
  names : ∀ i id p, Saw (Pool.logOf i history) (.getPairing id) (.ok p) → Names w.store p

theorem consistent_perform (w : World) (history : List (ℕ × Event)) (i : ℕ) (a : Answer) (op : Op)
    (h : Consistent w history) (hok : Permitted (fun _ => True) false (Pool.logOf i history) op) :
    Consistent (perform a op w).2 ((i,⟨op,(perform a op w).1⟩)::history) := by
  have hbound : Bound (perform a op w).2.store := by
    rcases perform_writes a op w with hsame | ⟨sop,rfl,hw⟩
    · exact hsame ▸ h.bound
    · exact h.bound.writes (h.remembers i) hok hw
  have hrem:=fun log => kept_perform (P := Remembers log) Remembers.writes a op (w := w)
  have hnames:=fun p => kept_perform (P := (Names · p)) Names.writes a op (w := w)
  refine ⟨hbound,fun j => ?_,fun j id p hsaw => ?_⟩
  · by_cases hij : i=j
    · rw [hij,Pool.logOf_cons_self]
      exact (hrem _ (h.remembers j)).answered h.bound
        (fun l acct => kept_perform (P := (OwnedBy · l acct)) OwnedBy.writes a op)
        fun p acct => kept_perform (P := (PairingOf · p acct)) PairingOf.writes a op
    · rw [Pool.logOf_cons_ne hij]
      exact hrem _ (h.remembers j)
  · rcases saw_called hsaw with ⟨-,-,hexec⟩ | hold
    · have hget : w.store.pairings.get id=some p := by simpa [Store.exec] using hexec
      exact hnames p ⟨p,(Table.key_of_get hget).symm ▸ hget,rfl,rfl⟩
    · exact hnames p (h.names j id p hold)

theorem consistent_start (clock : Time) (channel : Channel) :
    Consistent { clock := clock, channel := channel } [] where
  bound := bound_empty
  remembers _ := (knows_start bound_empty).remembers
  names i id p hsaw := by cases hsaw

theorem consistent_run (srv : Service) (clock : Time) (channel : Channel) (steps : List Step) :
    Pool.Ledger (Permitted (fun _ => True) false) (fun _ => True) Consistent
      (Machine.run (interleave srv) (Pool.start { clock := clock, channel := channel }) steps) :=
  permitted_run srv Consistent consistent_perform (Pool.ledger_start (consistent_start clock channel))
    steps

/-- In every interleaving from an empty store, with requests that are killed between two
calls, each pairing and pairing token is of the account of its license, and each refresh
token of the account of its pairing. -/
theorem records_name_one_account (srv : Service) (clock : Time) (channel : Channel)
    (steps : List Step) :
    Bound (Machine.run (interleave srv) (Pool.start { clock := clock, channel := channel })
      steps).world.store :=
  (consistent_run srv clock channel steps).inv.bound

/-- A token that any of the requests is about to mint names a pairing of the store, the
license of that pairing, and the account of both. -/
theorem minted_token_names_one_account (srv : Service) (clock : Time) (channel : Channel)
    (steps : List Step) (i : ℕ) (p : TokenParams)
    (hnext : nextCall (Machine.run (interleave srv)
      (Pool.start { clock := clock, channel := channel }) steps) i=some (.mint p)) :
    let s := (Machine.run (interleave srv) (Pool.start { clock := clock, channel := channel })
      steps).world.store
    ∃ pairing lic,s.pairings.get p.pairID=some pairing ∧ s.licenses.get p.licenseID=some lic ∧
      pairing.licenseID=p.licenseID ∧ pairing.accountID=p.accountID ∧
      lic.accountID=p.accountID := by
  have hl:=consistent_run srv clock channel steps
  generalize Machine.run (interleave srv) (Pool.start { clock := clock, channel := channel })
    steps=st at hnext hl
  obtain ⟨pairing,dev,lic,ha,hpair,-,-,hlic⟩:=hl.permits hnext
  obtain ⟨hbound,hrem,hnames⟩:=hl.inv
  obtain ⟨id,hsaw,-⟩:=ha.backed
  obtain ⟨q,hq,hql,hqa⟩:=hnames i id pairing hsaw
  have hacct : q.accountID=p.accountID := by
    obtain ⟨q',hq',hacct⟩:=ha.backed.pairingOf (hrem i)
    cases hq.symm.trans hq'
    exact hacct
  obtain ⟨l,hl,hla⟩:=hbound.pairing _ q hq
  have hid : p.licenseID=q.licenseID := by rw [hlic,hql,((hrem i).license _ lic ha.license).1]
  exact ⟨q,l,hpair ▸ hq,hid ▸ hl,hid.symm,hacct,hla.trans hacct⟩

/- The phone completes the pairing and asks for its token. -/
def phoneSteps : List Step :=
  desktopSetUp sampleSubscription ++
    [.start (.completePairing (some { pairingToken := "pt_p", mobilePublicKey := "AQ==" }))] ++
    calls 30 5 "m" ++ [.start phoneRequest] ++ calls 8 6 "t"

theorem minted_token_names_one_account_phone :
    ∃ pairing,(Machine.run (interleave sampleService) (Pool.start {})
        phoneSteps).world.store.pairings.get "pair_m" = some pairing ∧
      pairing.licenseID = "lic_a" ∧ pairing.accountID = "acct_a" := by
  have hcall : ((nextCall (Machine.run (interleave sampleService) (Pool.start {}) phoneSteps)
      6).bind Op.minted)=some phoneToken := by decide +kernel
  obtain ⟨op,hnext,hm⟩:=Option.bind_eq_some_iff.1 hcall
  obtain ⟨pairing,-,hget,-,hlic,hacct,-⟩:=minted_token_names_one_account sampleService 0 {}
    phoneSteps 6 phoneToken (hnext.trans (congrArg some (Op.eq_mint hm)))
  exact ⟨pairing,hget,hlic,hacct⟩

end SecureGateway.Auth
