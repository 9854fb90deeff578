import SecureGateway.Auth.Interleaving

/-!
# One pairing per desktop

`handleCompletePairing` searches for an active pairing of the desktop and inserts in calls of
their own, so two completions may both insert. A request that inserts while no other has
inserted since it searched keeps the desktop's pairing single.
-/

namespace SecureGateway.Auth
open Authstore Prog

/-- No license has two active pairings with the same desktop. -/
def UniqueDesktops (s : Store) : Prop :=
  ∀ id id' p p', s.pairings.get id = some p → s.pairings.get id' = some p' →
    p.status = .active → p'.status=.active → p.licenseID=p'.licenseID →
    p.desktopDeviceID = p'.desktopDeviceID → id=id'

def opened (licenseID desktopID : String) (e : Event) : Bool :=
  (inserted e).any fun p => p.licenseID == licenseID && p.desktopDeviceID == desktopID

/-- Since request `i` last listed the license's pairings, no other request has
inserted one with the desktop. -/
def soleSince (i : ℕ) (licenseID desktopID : String) : List (ℕ × Event) → Bool
  | [] => true
  | (j,e) :: history =>
    if j=i then (searched licenseID e).isSome || soleSince i licenseID desktopID history
    else !opened licenseID desktopID e && soleSince i licenseID desktopID history

/-- A request that is about to insert a pairing has been alone since its search,
or will insert nothing: the call fails or the license is full. -/
def unraced (st : Requests) : Step → Bool
  | .call i a =>
    match nextCall st i with
    | some (.store (.createPairingWithinCapacity p maxPairs)) =>
      a.fault || decide (maxPairs ≤ st.world.store.activePairCount p.licenseID) ||
        soleSince i p.licenseID p.desktopDeviceID st.history
    | _ => true
  | _ => true

def SamePlace (p p' : Pairing) : Prop :=
  p'.licenseID = p.licenseID ∧ p'.desktopDeviceID=p.desktopDeviceID ∧
    (p'.status=.active → p.status=.active)

theorem SamePlace.refl (p : Pairing) : SamePlace p p := ⟨rfl,rfl,id⟩

/-- The pairings are those of before, each with its license and its desktop, and
none is active that was not. -/
structure Narrows (s s' : Store) : Prop where
  back : ∀ id p', s'.pairings.get id = some p' → ∃ p, s.pairings.get id = some p ∧ SamePlace p p'
  forth : ∀ id p, s.pairings.get id = some p → ∃ p', s'.pairings.get id = some p' ∧ SamePlace p p'

theorem narrows_of_eq {s s' : Store} (h : s'.pairings=s.pairings) : Narrows s s' where
  back id p' hp' := ⟨p',h ▸ hp',SamePlace.refl p'⟩
  forth id p hp := ⟨p,by rw [h]; exact hp,SamePlace.refl p⟩

theorem narrows_put {s s' : Store} {id : String} {p p' : Pairing} (hold : s.pairings.get id=some p)
    (hs : s'.pairings=s.pairings.put p') (hkey : p'.pairID=p.pairID) (hsame : SamePlace p p') :
    Narrows s s' := by
  have hid : p'.pairID=id := hkey.trans (Table.key_of_get hold)
  constructor
  · intro k q hq
    rw [hs,Table.get_put] at hq
    split at hq
    · next hk =>
      cases hq
      exact ⟨p,by rw [← hk,hid]; exact hold,hsame⟩
    · exact ⟨q,hq,SamePlace.refl q⟩
  · intro k q hq
    rw [hs,Table.get_put]
    split
    · next hk =>
      obtain rfl : p=q := by
        rw [← hk,hid,hold] at hq
        exact Option.some.inj hq
      exact ⟨p',rfl,hsame⟩
    · exact ⟨q,hq,SamePlace.refl q⟩

structure Distinct (w : World) (history : List (ℕ × Event)) : Prop where
  unique : UniqueDesktops w.store
  device : ∀ i id dev, Saw (Pool.logOf i history) (.getDevice id) (.ok dev) → dev.id=id
  /- a pairing that a request has listed still has its desktop -/
  listed : ∀ i licenseID ps p,
    Saw (Pool.logOf i history) (.listActivePairingsByLicense licenseID) (.ok ps) → p ∈ ps →
    ∃ q, w.store.pairings.get p.pairID = some q ∧ q.desktopDeviceID=p.desktopDeviceID
  /- a search that found nothing is right as long as nothing was inserted -/
  vacancy : ∀ i licenseID desktopID,
    vacant licenseID desktopID (Pool.logOf i history) = true →
    soleSince i licenseID desktopID history = true →
    ∀ id p, w.store.pairings.get id = some p → p.licenseID=licenseID → p.status=.active →
      p.desktopDeviceID ≠ desktopID

theorem distinct_start {w : World} (hw : UniqueDesktops w.store) : Distinct w [] where
  unique := hw
  device i id dev h := by cases h
  listed i licenseID ps p h := by cases h
  vacancy i licenseID desktopID h := by simp [Pool.logOf,vacant] at h

section Call
variable {srv : Service} {w : World} {history : List (ℕ × Event)} {i : ℕ} {a : Answer} {op : Op}

theorem Distinct.desktop_kept (h : Distinct w history) {pairID desktopID : String} {p : Pairing}
    (hreplaces : Replaces (Pool.logOf i history) pairID desktopID)
    (hold : w.store.pairings.get pairID=some p) : desktopID=p.desktopDeviceID := by
  obtain ⟨licenseID,ps,q,dev,hps,hmem,hid,hdev,rfl⟩:=hreplaces
  obtain ⟨p',hp',hdesk⟩:=h.listed i licenseID ps q hps hmem
  rw [hid,hold] at hp'
  cases hp'
  rw [h.device i _ dev hdev,hdesk]

theorem Distinct.effect (h : Distinct w history)
    (hok : Conducts srv true (Pool.logOf i history) op) :
    (∃ p maxPairs,op = .store (.createPairingWithinCapacity p maxPairs) ∧ a.fault=false ∧
        w.store.activePairCount p.licenseID < maxPairs ∧
        inserted ⟨op,(perform a op w).1⟩=some p ∧
        (perform a op w).2.store.pairings=w.store.pairings.put p ∧
        w.store.pairings.get p.pairID=none) ∨
      (inserted ⟨op,(perform a op w).1⟩=none ∧ Narrows w.store (perform a op w).2.store) := by
  by_cases hop : ∃ p maxPairs,op = .store (.createPairingWithinCapacity p maxPairs)
  · obtain ⟨p,maxPairs,rfl⟩:=hop
    cases hf : a.fault with
    | true => exact .inr (by simp [perform,hf,inserted,narrows_of_eq])
    | false =>
      cases hget : w.store.pairings.get p.pairID with
      | some q =>
        refine .inr ?_
        simp [perform,hf,Store.exec,Store.createPairingWithinCapacity,hget,inserted,
          narrows_of_eq]
      | none =>
        by_cases hfull : maxPairs≤w.store.activePairCount p.licenseID
        · refine .inr ?_
          simp [perform,hf,Store.exec,Store.createPairingWithinCapacity,hget,hfull,inserted,
            narrows_of_eq]
        · refine .inl ⟨p,maxPairs,rfl,rfl,Nat.lt_of_not_le hfull,?_,?_,hget⟩ <;>
            simp [perform,hf,Store.exec,Store.createPairingWithinCapacity,hget,hfull,inserted]
  · have hnone : inserted ⟨op,(perform a op w).1⟩=none := by
      unfold inserted
      split
      · next p maxPairs _ heq =>
        obtain ⟨rfl,-⟩:=Sigma.mk.inj heq
        exact absurd ⟨p,maxPairs,rfl⟩ hop
      · rfl
    refine .inr ⟨hnone,?_⟩
    rcases perform_writes a op w with hsame | ⟨sop,rfl,hw⟩
    · exact narrows_of_eq (by rw [hsame])
    generalize (perform a (.store sop) w).2.store=s' at hw
    cases hw with
    | pairing p hnew => exact absurd hok id
    | pairingWithin p maxPairs hnew hfree => exact absurd ⟨p,maxPairs,rfl⟩ hop
    | pairingStatus pairID status p hold =>
      have hstatus : status=.revoked := hok
      refine narrows_put hold rfl rfl ⟨rfl,rfl,fun hactive => ?_⟩
      simp [hstatus] at hactive
    | pairingDevices pairID mobileID desktopID p hold =>
      exact narrows_put hold rfl rfl ⟨rfl,h.desktop_kept hok.2.1 hold,id⟩
    | _ => exact narrows_of_eq rfl

theorem Distinct.listed_called (h : Distinct w history)
    (hok : Conducts srv true (Pool.logOf i history) op) (j : ℕ) (licenseID : String)
    (ps : List Pairing) (p : Pairing)
    (hsaw : Saw (Pool.logOf j ((i,⟨op,(perform a op w).1⟩)::history))
      (.listActivePairingsByLicense licenseID) (.ok ps)) (hmem : p∈ps) :
    ∃ q,(perform a op w).2.store.pairings.get p.pairID=some q ∧
      q.desktopDeviceID=p.desktopDeviceID := by
  have hnow : ∃ q,w.store.pairings.get p.pairID=some q ∧
      q.desktopDeviceID=p.desktopDeviceID := by
    rcases saw_called hsaw with ⟨-,rfl,hexec⟩ | hold
    · cases hexec
      exact ⟨p,(Table.mem_list.1 hmem).1,rfl⟩
    · exact h.listed j licenseID ps p hold hmem
  obtain ⟨q,hq,hdesk⟩:=hnow
  rcases h.effect (a := a) hok with ⟨p',_,-,-,-,-,hput,hnew⟩ | ⟨-,hnarrow⟩
  · have hne : p'.pairID≠p.pairID := by
      rintro heq
      rw [heq,hq] at hnew
      cases hnew
    exact ⟨q,by rw [hput,Table.get_put_ne _ _ hne,hq],hdesk⟩
  · obtain ⟨q',hq',-,hdesk',-⟩:=hnarrow.forth _ q hq
    exact ⟨q',hq',hdesk'.trans hdesk⟩

theorem Distinct.vacant_called (h : Distinct w history)
    (hok : Conducts srv true (Pool.logOf i history) op) {licenseID desktopID : String}
    (hclosed : opened licenseID desktopID ⟨op,(perform a op w).1⟩=false)
    (hvacant : ∀ id p,w.store.pairings.get id=some p → p.licenseID=licenseID →
      p.status = .active → p.desktopDeviceID≠desktopID) :
    ∀ id p,(perform a op w).2.store.pairings.get id=some p → p.licenseID=licenseID →
      p.status = .active → p.desktopDeviceID≠desktopID := by
  rcases h.effect (a := a) hok with ⟨p',_,-,-,-,hins,hput,-⟩ | ⟨-,hnarrow⟩
  · rw [hput]
    refine Table.forall_get_put (fun hlic _ hdesk => ?_) hvacant
    simp [opened,hins,hlic,hdesk] at hclosed
  · intro id p hp hlic hactive
    obtain ⟨q,hq,hlic',hdesk,hact⟩:=hnarrow.back id p hp
    rw [hdesk]
    exact hvacant id q hq (hlic'.symm.trans hlic) (hact hactive)

theorem searched_perform {licenseID : String} {ps : List Pairing}
    (h : searched licenseID ⟨op,(perform a op w).1⟩=some ps) :
    ps=w.store.pairings.list (Store.activeOn licenseID) ∧ (perform a op w).2.store=w.store := by
  unfold searched at h
  split at h
  · next id qs heq =>
    obtain ⟨rfl,hr⟩:=Sigma.mk.inj heq
    have hexec:=(perform_ok (eq_of_heq hr)).1
    split at h
    · next hid =>
      subst hid
      cases hexec
      cases h
      exact ⟨rfl,perform_read a _ w rfl⟩
    · cases h
  · cases h

theorem Distinct.vacancy_called (h : Distinct w history)
    (hok : Conducts srv true (Pool.logOf i history) op) (j : ℕ) (licenseID desktopID : String)
    (hvacant : vacant licenseID desktopID
      (Pool.logOf j ((i,⟨op,(perform a op w).1⟩)::history))=true)
    (hsole : soleSince j licenseID desktopID ((i,⟨op,(perform a op w).1⟩)::history)=true) :
    ∀ id p,(perform a op w).2.store.pairings.get id=some p → p.licenseID=licenseID →
      p.status = .active → p.desktopDeviceID≠desktopID := by
  by_cases hij : i=j
  · subst hij
    rw [Pool.logOf_cons_self] at hvacant
    simp only [vacant,soleSince,if_true] at hvacant hsole
    cases hs : searched licenseID ⟨op,(perform a op w).1⟩ with
    | some ps =>
      rw [hs] at hvacant
      obtain ⟨rfl,hstore⟩:=searched_perform hs
      rw [hstore]
      intro id p hp hlic hactive
      have hmem : p∈w.store.pairings.list (Store.activeOn licenseID) :=
        Table.mem_list_of_get hp (by simp [Store.activeOn,hlic,hactive])
      simpa using List.all_eq_true.1 hvacant p hmem
    | none =>
      rw [hs] at hvacant hsole
      simp only [Bool.and_eq_true,Option.isNone_iff_eq_none] at hvacant
      refine h.vacant_called hok ?_ (h.vacancy i licenseID desktopID hvacant.2 (by simpa using hsole))
      simp [opened,hvacant.1]
  · rw [Pool.logOf_cons_ne hij] at hvacant
    simp only [soleSince,if_neg hij,Bool.and_eq_true,Bool.not_eq_true'] at hsole
    exact h.vacant_called hok hsole.1 (h.vacancy j licenseID desktopID hvacant hsole.2)

/- Without a race, the place of an inserted pairing is vacant. -/
theorem Distinct.unique_called (h : Distinct w history)
    (hok : Conducts srv true (Pool.logOf i history) op)
    (hsole : ∀ p maxPairs,op = .store (.createPairingWithinCapacity p maxPairs) →
      a.fault=false → w.store.activePairCount p.licenseID < maxPairs →
      soleSince i p.licenseID p.desktopDeviceID history=true) :
    UniqueDesktops (perform a op w).2.store := by
  intro id id' q q' hq hq' hactive hactive' hlic hdesk
  rcases h.effect (a := a) hok with ⟨p,maxPairs,rfl,hfault,hfree,-,hput,-⟩ | ⟨-,hnarrow⟩
  · obtain ⟨-,⟨desktopID,dev,hvacant,hdev,hpdesk⟩,-⟩:=hok
    have hplace : p.desktopDeviceID=desktopID := hpdesk.trans (h.device i _ dev hdev)
    have hfreeDesk:=h.vacancy i _ _ (hplace ▸ hvacant) (hsole p maxPairs rfl hfault hfree)
    rw [hput,Table.get_put] at hq hq'
    split at hq
    · next hid =>
      cases hq
      split at hq'
      · next hid' => exact hid.symm.trans hid'
      · exact absurd hdesk.symm (hfreeDesk id' q' hq' hlic.symm hactive')
    · split at hq'
      · next hid' =>
        cases hq'
        exact absurd hdesk (hfreeDesk id q hq hlic hactive)
      · exact h.unique id id' q q' hq hq' hactive hactive' hlic hdesk
  · obtain ⟨p,hp,hl,hd,hact⟩:=hnarrow.back id q hq
    obtain ⟨p',hp',hl',hd',hact'⟩:=hnarrow.back id' q' hq'
    exact h.unique id id' p p' hp hp' (hact hactive) (hact' hactive')
      (by rw [← hl,hlic,hl']) (by rw [← hd,hdesk,hd'])

end Call

theorem distinct_called {srv : Service} (st : Requests) (i : ℕ) (a : Answer) (op : Op)
    (h : Distinct st.world st.history) (hguard : unraced st (.call i a)=true)
    (hnext : nextCall st i=some op) (hok : Conducts srv true (Pool.logOf i st.history) op) :
    Distinct (perform a op st.world).2 ((i,⟨op,(perform a op st.world).1⟩)::st.history) where
  unique := by
    refine h.unique_called hok fun p maxPairs hop hfault hfree => ?_
    subst hop
    simpa [unraced,hnext,hfault,Nat.not_le.2 hfree] using hguard
  device := device_called h.device
  listed := h.listed_called hok
  vacancy := h.vacancy_called hok

/-- From a store in which no license has two active pairings with one desktop,
all requests in any order, where a request inserts a pairing only if no other
has inserted one of the same desktop since it looked: no license ever has two. -/
theorem one_pairing_per_desktop (srv : Service) (w : World) (hw : UniqueDesktops w.store)
    (steps : List Step)
    (hsteps : Machine.Guarded (interleave srv) (fun st x => unraced st x = true) (Pool.start w)
      steps) :
    UniqueDesktops (Machine.run (interleave srv) (Pool.start w) steps).world.store :=
  (ledger_run Distinct _ (fun _ r _ => handle_conducts srv r) (fun st i a op => distinct_called st i a op)
    (Pool.ledger_start (distinct_start hw)) hsteps).inv.unique

def racingPhones : List Step := desktopSetUp roomySubscription ++ phonesRace 12

def placeOf (st : Requests) (pairID : String) : Option (String × String × PairingStatus) :=
  (st.world.store.pairings.get pairID).map fun p => (p.licenseID,p.desktopDeviceID,p.status)

theorem not_uniqueDesktops {st : Requests} (id id' : String) (place : String × String)
    (h : placeOf st id=some (place.1,place.2,.active))
    (h' : placeOf st id'=some (place.1,place.2,.active)) (hne : id≠id') :
    ¬ UniqueDesktops st.world.store := by
  intro hu
  obtain ⟨p,hp,heq⟩:=Option.map_eq_some_iff.1 h
  obtain ⟨p',hp',heq'⟩:=Option.map_eq_some_iff.1 h'
  simp only [Prod.mk.injEq] at heq heq'
  exact hne (hu id id' p p' hp hp' heq.2.2 heq'.2.2 (heq.1.trans heq'.1.symm)
    (heq.2.1.trans heq'.2.1.symm))

theorem racing_phones_pair_twice :
    ¬ UniqueDesktops (Machine.run (interleave sampleService) (Pool.start {})
      racingPhones).world.store :=
  not_uniqueDesktops "pair_m" "pair_n" ("lic_a","dev_d") (by decide +kernel) (by decide +kernel)
    (by decide)

def phonesInTurn : List Step := desktopSetUp roomySubscription ++ phonesRace 30

theorem one_pairing_per_desktop_in_turn :
    UniqueDesktops (Machine.run (interleave sampleService) (Pool.start {})
      phonesInTurn).world.store :=
  one_pairing_per_desktop sampleService {} (by simp [UniqueDesktops]) phonesInTurn
    (by decide +kernel)

end SecureGateway.Auth
