import SecureGateway.Billing.Provisioning

/-!
# Pair capacity under concurrency

Only the insertion counts and writes under one lock, against the `MaxPairs` of a mirror row
that was stored at some time. So the active pairings of a license never exceed the largest
`MaxPairs` its subscription's mirror has had.
-/

namespace SecureGateway.Auth
open Authstore Prog Billing

structure Fits (w : World) (history : List (ℕ × Event)) : Prop where
  mirror : ∀ id m, w.store.subscriptions.get id = some m → m.maxPairs ≤ largestMirrored id history
  licensed : ∀ id p, w.store.pairings.get id = some p →
    ∃ l, w.store.licenses.get p.licenseID = some l
  bound : ∀ id l, w.store.licenses.get id = some l →
    w.store.activePairCount id ≤ largestMirrored l.subscriptionID history
  license : ∀ i id lic, Saw (Pool.logOf i history) (.getLicense id) (.ok lic) →
    LicenseOf w.store lic.id lic.subscriptionID
  room : ∀ i id m, Saw (Pool.logOf i history) (.getSubscription id) (.ok m) →
    m.maxPairs ≤ largestMirrored id history

theorem fits_empty (w : World) (hw : w.store={}) : Fits w [] where
  mirror := by simp [hw]
  licensed := by simp [hw]
  bound := by simp [hw]
  license i id lic h := by cases h
  room i id m h := by cases h

section Call
variable {w : World} {history : List (ℕ × Event)} {i : ℕ} {a : Answer} {op : Op}

theorem mirror_perform {id : String} {m : Subscription}
    (h : (perform a op w).2.store.subscriptions.get id=some m) :
    w.store.subscriptions.get id=some m ∨
      m.maxPairs=mirroredBy id ⟨op,(perform a op w).1⟩ := by
  by_cases hop : ∃ m',op = .store (.upsertSubscription m')
  · obtain ⟨m',rfl⟩:=hop
    cases hf : a.fault with
    | true => exact .inl (by simpa [perform,hf] using h)
    | false =>
      have hput : (w.store.subscriptions.put m').get id=some m := by
        simpa [perform,hf,Store.exec] using h
      rw [Table.get_put] at hput
      split at hput
      · next hid =>
        cases hput
        exact .inr (by simp [perform,hf,Store.exec,mirroredBy,hid])
      · exact .inl hput
  · rcases perform_writes a op w with hsame | ⟨sop,rfl,hw⟩
    · exact .inl (hsame ▸ h)
    generalize (perform a (.store sop) w).2.store=s' at hw h
    cases hw with
    | subscription sub => exact absurd ⟨sub,rfl⟩ hop
    | _ => exact .inl h

theorem largestMirrored_mono {subID : String} {n : ℕ} (x : ℕ × Event)
    (h : n≤largestMirrored subID history) : n≤largestMirrored subID (x::history) :=
  h.trans (Nat.le_max_right _ _)

theorem Fits.mirror_called (h : Fits w history) (id : String) (m : Subscription)
    (hm : (perform a op w).2.store.subscriptions.get id=some m) :
    m.maxPairs≤largestMirrored id ((i,⟨op,(perform a op w).1⟩)::history) := by
  rcases mirror_perform hm with hold | hwrote
  · exact largestMirrored_mono _ (h.mirror id m hold)
  · exact hwrote.trans_le (Nat.le_max_left _ _)

theorem Fits.license_called (h : Fits w history) (j : ℕ) (id : String) (lic : License)
    (hsaw : Saw (Pool.logOf j ((i,⟨op,(perform a op w).1⟩)::history)) (.getLicense id)
      (.ok lic)) :
    LicenseOf (perform a op w).2.store lic.id lic.subscriptionID := by
  rcases saw_called hsaw with ⟨-,rfl,hexec⟩ | hold
  · have hget : w.store.licenses.get id=some lic := by simpa [Store.exec] using hexec
    refine LicenseOf.perform ⟨lic,?_,rfl⟩
    rw [Table.key_of_get hget,hget]
  · exact (h.license j id lic hold).perform

theorem Fits.room_called (h : Fits w history) (j : ℕ) (id : String) (m : Subscription)
    (hsaw : Saw (Pool.logOf j ((i,⟨op,(perform a op w).1⟩)::history)) (.getSubscription id)
      (.ok m)) :
    m.maxPairs≤largestMirrored id ((i,⟨op,(perform a op w).1⟩)::history) := by
  rcases saw_called hsaw with ⟨-,rfl,hexec⟩ | hold
  · have hget : w.store.subscriptions.get id=some m := by simpa [Store.exec] using hexec
    exact largestMirrored_mono _ (h.mirror id m hget)
  · exact largestMirrored_mono _ (h.room j id m hold)

theorem Fits.activePairCount_eq_zero (h : Fits w history) {id : String}
    (hnone : w.store.licenses.get id=none) : w.store.activePairCount id=0 := by
  refine Store.activePairCount_eq_zero fun k p hget hon => ?_
  obtain ⟨l,hl⟩:=h.licensed k p hget
  rw [hon,hnone] at hl
  cases hl

theorem Fits.licensed_called (h : Fits w history)
    (hok : Permitted (fun _ => True) false (Pool.logOf i history) op) :
    ∀ id p,(perform a op w).2.store.pairings.get id=some p →
      ∃ l,(perform a op w).2.store.licenses.get p.licenseID=some l := by
  have hkept (id : String) (p : Pairing) (hp : w.store.pairings.get id=some p) :
      ∃ l,(perform a op w).2.store.licenses.get p.licenseID=some l := by
    obtain ⟨l,hl⟩:=h.licensed id p hp
    have hof : LicenseOf w.store p.licenseID l.subscriptionID := ⟨l,hl,rfl⟩
    have hof' : LicenseOf (perform a op w).2.store p.licenseID l.subscriptionID := hof.perform
    obtain ⟨l',hl',-⟩:=hof'
    exact ⟨l',hl'⟩
  rcases perform_writes a op w with hsame | ⟨sop,rfl,hw⟩
  · intro id p hp
    exact hkept id p (hsame ▸ hp)
  generalize (perform a (.store sop) w).2.store=s' at hw hkept
  cases hw with
  | pairing p hnew => exact absurd hok id
  | pairingWithin p maxPairs hnew hfree =>
    obtain ⟨tokenID,pt,lic,sub,-,hlic,-,hplic,-⟩:=hok
    refine Table.forall_get_put ?_ hkept
    obtain ⟨l,hl,-⟩:=h.license i _ lic hlic
    exact ⟨l,hplic ▸ hl⟩
  | pairingStatus pairID status p hold => exact Table.forall_get_put (hkept pairID p hold) hkept
  | pairingDevices pairID mobileID desktopID p hold =>
    exact Table.forall_get_put (hkept pairID p hold) hkept
  | _ => exact hkept

theorem Fits.bound_called (h : Fits w history)
    (hok : Permitted (fun _ => True) false (Pool.logOf i history) op) (id : String) (l : License)
    (hl : (perform a op w).2.store.licenses.get id=some l) :
    (perform a op w).2.store.activePairCount id≤largestMirrored l.subscriptionID history := by
  rcases perform_writes a op w with hsame | ⟨sop,rfl,hw⟩
  · rw [hsame] at hl ⊢
    exact h.bound id l hl
  generalize (perform a (.store sop) w).2.store=s' at hw hl ⊢
  cases hw with
  | license l' hnew =>
    rw [Table.get_put] at hl
    split at hl
    · next hid =>
      have hzero:=h.activePairCount_eq_zero hnew
      rw [hid] at hzero
      exact hzero.trans_le (Nat.zero_le _)
    · exact h.bound id l hl
  | licenseStatus id' status l' hold =>
    rw [Table.get_put] at hl
    split at hl
    · next hid =>
      cases hl
      have hid' : id'=id := (Table.key_of_get hold).symm.trans hid
      exact h.bound id l' (hid' ▸ hold)
    · exact h.bound id l hl
  | pairing p hnew => exact absurd hok (fun h => h)
  | pairingWithin p maxPairs hnew hfree =>
    obtain ⟨tokenID,pt,lic,sub,-,hlic,hsub,hplic,-,rfl⟩:=hok
    by_cases hp : p.licenseID=id
    · obtain ⟨l',hl',hsubID⟩:=h.license i _ lic hlic
      have hsame : l'=l := by
        rw [← hplic,hp] at hl'
        simpa [hl] using hl'.symm
      have hroom : sub.maxPairs≤largestMirrored l.subscriptionID history := by
        rw [← hsame,hsubID]
        exact h.room i _ sub hsub
      refine le_trans ?_ hroom
      refine (Table.count_put_le _ _ _).trans ?_
      rw [hp] at hfree
      exact hfree
    · refine (Table.count_put_le_same fun hon => ?_).trans (h.bound id l hl)
      simp [Store.activeOn,hp] at hon
  | pairingStatus pairID status p hold =>
    have hstatus : status=.revoked := hok
    refine (Table.count_put_le_same fun hon => ?_).trans (h.bound id l hl)
    simp [Store.activeOn,hstatus] at hon
  | pairingDevices pairID mobileID desktopID p hold =>
    refine (Table.count_put_le_same fun hon => ?_).trans (h.bound id l hl)
    exact ⟨p,Table.replaced hold rfl,hon⟩
  | _ => exact h.bound id l hl

theorem Fits.called (h : Fits w history)
    (hok : Permitted (fun _ => True) false (Pool.logOf i history) op) :
    Fits (perform a op w).2 ((i,⟨op,(perform a op w).1⟩)::history) where
  mirror := h.mirror_called
  licensed := h.licensed_called hok
  bound id l hl := largestMirrored_mono _ (h.bound_called hok id l hl)
  license := h.license_called
  room := h.room_called

end Call

/-- All requests of the service, started, run and stopped in any order: the
active pairings of a license never exceed the largest `MaxPairs` that the mirror
of its subscription has had. -/
theorem activePairCount_within_largest_mirror (srv : Service) (w : World) (hempty : w.store={})
    (steps : List Step) (id : String) (l : License)
    (hl : (Machine.run (interleave srv) (Pool.start w) steps).world.store.licenses.get id =
      some l) :
    (Machine.run (interleave srv) (Pool.start w) steps).world.store.activePairCount id ≤
      largestMirrored l.subscriptionID
        (Machine.run (interleave srv) (Pool.start w) steps).history := by
  have hrun := permitted_run srv Fits (fun w history i a op h hok => h.called hok)
    (Pool.ledger_start (fits_empty w hempty)) steps
  exact hrun.inv.bound id l hl

def crowdedRun : List Step := desktopSetUp sampleSubscription ++ phonesRace 15

theorem activePairCount_within_largest_mirror_crowded :
    ∃ l, (Machine.run (interleave sampleService) (Pool.start {}) crowdedRun).world.store.licenses.get
        "lic_a" = some l ∧
      (Machine.run (interleave sampleService) (Pool.start {}) crowdedRun).world.store.activePairCount
        "lic_a" = 1 ∧
      (Machine.run (interleave sampleService) (Pool.start {}) crowdedRun).world.store.activePairCount
        "lic_a" ≤ largestMirrored l.subscriptionID
          (Machine.run (interleave sampleService) (Pool.start {}) crowdedRun).history := by
  have hl : ((Machine.run (interleave sampleService) (Pool.start {})
      crowdedRun).world.store.licenses.get "lic_a").isSome = true := by decide +kernel
  obtain ⟨l,hl⟩ := Option.isSome_iff_exists.1 hl
  exact ⟨l,hl,by decide +kernel,activePairCount_within_largest_mirror sampleService {} rfl
    crowdedRun "lic_a" l hl⟩

end SecureGateway.Auth
