import SecureGateway.Auth.Store

/-!
# What the store's methods write

`Writes` lists what a method call can do to the store, with the condition under
which it does it; `exec_writes` is the only place where the methods are taken
apart. The invariants of the store are derived from it by cases.
-/

namespace SecureGateway.Authstore
open E2ee (Bytes)

inductive Writes (s : Store) : StoreOp → Store → Prop
  | same (op : StoreOp) : Writes s op s
  | account (a : Account) (accounts : Table Account Account.id)
      (customerToAcct : Std.ExtTreeMap String String compare) :
      Writes s (.upsertAccount a)
        { s with accounts := accounts, customerToAcct := customerToAcct }
  | subscription (sub : Subscription) :
      Writes s (.upsertSubscription sub) { s with subscriptions := s.subscriptions.put sub }
  | license (l : License) (hnew : s.licenses.get l.id = none) :
      Writes s (.createLicense l) { s with licenses := s.licenses.put l }
  | licenseStatus (id : String) (status : LicenseStatus) (l : License)
      (hold : s.licenses.get id = some l) :
      Writes s (.setLicenseStatus id status)
        { s with licenses := s.licenses.put { l with status := status } }
  | device (d : Device) (publicKey : Option Bytes) :
      Writes s (.upsertDevice d)
        { s with devices := s.devices.put { d with publicKey := publicKey } }
  | pairing (p : Pairing) (hnew : s.pairings.get p.pairID = none) :
      Writes s (.createPairing p) { s with pairings := s.pairings.put p }
  | pairingWithin (p : Pairing) (maxPairs : ℕ) (hnew : s.pairings.get p.pairID = none)
      (hfree : s.activePairCount p.licenseID < maxPairs) :
      Writes s (.createPairingWithinCapacity p maxPairs) { s with pairings := s.pairings.put p }
  | pairingStatus (pairID : String) (status : PairingStatus) (p : Pairing)
      (hold : s.pairings.get pairID = some p) :
      Writes s (.setPairingStatus pairID status)
        { s with pairings := s.pairings.put { p with status := status } }
  | pairingDevices (pairID mobileID desktopID : String) (p : Pairing)
      (hold : s.pairings.get pairID = some p) :
      Writes s (.updatePairingDevices pairID mobileID desktopID)
        { s with pairings :=
            s.pairings.put { p with mobileDeviceID := mobileID, desktopDeviceID := desktopID } }
  | refreshToken (r : RefreshToken) :
      Writes s (.putRefreshToken r) { s with refreshTokens := s.refreshTokens.put r }
  /- every other write of a refresh token only sets `revokedAt` -/
  | revokedTokens (op : StoreOp) (t : Table RefreshToken RefreshToken.id)
      (hrows : ∀ id r, t.get id = some r →
        ∃ r₀ instant, s.refreshTokens.get id = some r₀ ∧ r = { r₀ with revokedAt := instant }) :
      Writes s op { s with refreshTokens := t }
  | pairingToken (t : PairingToken) (hnew : s.pairingTokens.get t.id = none) :
      Writes s (.createPairingToken t) { s with pairingTokens := s.pairingTokens.put t }
  | consumed (id resultPairID : String) (consumedAt : Time) (t : PairingToken)
      (hold : s.pairingTokens.get id = some t) (hpending : t.consumedAt=0) :
      Writes s (.consumePairingToken id resultPairID consumedAt)
        { s with pairingTokens :=
            s.pairingTokens.put { t with consumedAt := consumedAt, resultPairID := resultPairID } }
  | credential (op : StoreOp) (t : Table PairCredential PairCredential.pairID) :
      Writes s op { s with pairCredentials := t }
  | claim (op : StoreOp) (t : Table CheckoutClaim CheckoutClaim.nonce) :
      Writes s op { s with checkoutClaims := t }
  | webhook (e : WebhookEvent) (hnew : s.webhookEvents.get e.id = none) :
      Writes s (.insertWebhookEventIfAbsent e) { s with webhookEvents := s.webhookEvents.put e }
  | webhookStatus (id : String) (status : WebhookStatus) (attempts : ℤ) (processedAt : Time)
      (e : WebhookEvent) (hold : s.webhookEvents.get id = some e) :
      Writes s (.setWebhookStatus id status attempts processedAt)
        { s with webhookEvents := s.webhookEvents.put (e.withStatus status attempts processedAt) }

def StoreOp.rotates : StoreOp → Bool
  | .putRefreshToken _ | .revokeRefreshToken _ | .consumeRefreshToken _ _
  | .revokeRefreshTokensByDevice _ _ => true
  | _ => false

def StoreOp.credits : StoreOp → Bool
  | .putPairCredential _ | .revokePairCredential _ _ => true
  | _ => false

def StoreOp.pairs : StoreOp → Bool
  | .createPairing _ | .createPairingWithinCapacity _ _ | .setPairingStatus _ _
  | .updatePairingDevices _ _ _ => true
  | _ => false

def StoreOp.claims : StoreOp → Bool
  | .createCheckoutClaim _ | .markCheckoutClaimReady _ _ _ _ _ | .setCheckoutClaimCode _ _
  | .consumeCheckoutClaim _ _ | .deleteExpiredCheckoutClaims _ => true
  | _ => false

def StoreOp.reads : StoreOp → Bool
  | .getAccount _ | .getAccountByCustomer _ | .getSubscription _ | .listSubscriptions
  | .getLicense _ | .listLicensesByAccount _ | .listLicensesBySubscription _ | .getDevice _
  | .countDevicesByAccount _ | .findDeviceByAccountRoleKey _ _ _ | .getPairing _
  | .listActivePairingsByLicense _ | .listActivePairingsByAccount _ | .activePairCount _
  | .getRefreshToken _ | .getPairingToken _ | .getPairCredential _ | .getCheckoutClaim _
  | .getCheckoutClaimByCode _ | .listWebhookEventsByStatus _ _ => true
  | _ => false

variable (s : Store)

namespace Store

theorem activePairCount_eq_zero {s : Store} {id : String}
    (h : ∀ k p,s.pairings.get k=some p → p.licenseID=id → p.status≠.active) :
    s.activePairCount id=0 := by
  refine List.length_eq_zero_iff.2 (List.eq_nil_iff_forall_not_mem.2 fun p hp => ?_)
  obtain ⟨hget,hon⟩:=Table.mem_list.1 hp
  simp only [activeOn,Bool.and_eq_true,beq_iff_eq] at hon
  exact h p.pairID p hget hon.1 hon.2

theorem upsertAccount_eq {a : Account} (hc : a.stripeCustomerID ≠ "") :
    ∃ merged : Account,merged.id=a.id ∧ s.upsertAccount a =
      { s with
        accounts := s.accounts.put merged
        customerToAcct := s.customerToAcct.insert a.stripeCustomerID a.id } := by
  have hcust : (s.mergedAccount a).stripeCustomerID=a.stripeCustomerID :=
    (s.mergedAccount_customer a).resolve_right fun h => hc h.1
  refine ⟨s.mergedAccount a,s.mergedAccount_id a,?_⟩
  simp only [upsertAccount,hcust,hc,if_false,s.mergedAccount_id a]

theorem revoked_rows (id : String) (r : RefreshToken) (instant : Time)
    (hold : s.refreshTokens.get id=some r) (k : String) (r' : RefreshToken)
    (h : (s.refreshTokens.put { r with revokedAt := instant }).get k=some r') :
    ∃ r₀ instant,s.refreshTokens.get k=some r₀ ∧ r' = { r₀ with revokedAt := instant } := by
  rw [Table.get_put] at h
  split at h
  · next hk =>
    have hid : r.id=id := Table.key_of_get hold
    cases h
    exact ⟨r,instant,by rw [← hk,← hold,← hid],rfl⟩
  · exact ⟨r',r'.revokedAt,h,rfl⟩

theorem exec_writes (m : Moment) (op : StoreOp) : Writes s op (s.exec m op).2 := by
  cases op with
  | upsertAccount a => exact .account a _ _
  | upsertSubscription sub => exact .subscription sub
  | createLicense l =>
    simp only [exec,createLicense]
    split
    · exact .same _
    · next hnew => exact .license l hnew
  | setLicenseStatus id status =>
    simp only [exec,setLicenseStatus]
    split
    · next l hold => exact .licenseStatus id status l hold
    · exact .same _
  | upsertDevice d =>
    simp only [exec,upsertDevice]
    split
    · exact .device d _
    · exact .device d d.publicKey
  | createPairing p =>
    simp only [exec,createPairing]
    split
    · exact .same _
    · next hnew => exact .pairing p hnew
  | createPairingWithinCapacity p maxPairs =>
    simp only [exec,createPairingWithinCapacity]
    split
    · exact .same _
    next hnew =>
    split
    · exact .same _
    · next hfree => exact .pairingWithin p maxPairs hnew (Nat.lt_of_not_le hfree)
  | setPairingStatus pairID status =>
    simp only [exec,setPairingStatus,modifyPairing]
    split
    · next p hold => exact .pairingStatus pairID status p hold
    · exact .same _
  | updatePairingDevices pairID mobileID desktopID =>
    simp only [exec,updatePairingDevices,modifyPairing]
    split
    · next p hold => exact .pairingDevices pairID mobileID desktopID p hold
    · exact .same _
  | putRefreshToken r => exact .refreshToken r
  | revokeRefreshToken id =>
    simp only [exec,revokeRefreshToken]
    split
    · next r hold =>
      split
      · exact .revokedTokens _ _ (s.revoked_rows id r m.now hold)
      · exact .same _
    · exact .same _
  | consumeRefreshToken id consumedAt =>
    simp only [exec,consumeRefreshToken]
    split
    · next r hold =>
      split
      · exact .same _
      · exact .revokedTokens _ _ (s.revoked_rows id r consumedAt hold)
    · exact .same _
  | revokeRefreshTokensByDevice deviceID revokedAt =>
    refine .revokedTokens _ _ fun id r h => ?_
    rw [Table.get_mapRows,Option.map_eq_some_iff] at h
    obtain ⟨r₀,hold,rfl⟩:=h
    split
    · exact ⟨r₀,revokedAt,hold,rfl⟩
    · exact ⟨r₀,r₀.revokedAt,hold,rfl⟩
  | createPairingToken t =>
    simp only [exec,createPairingToken]
    split
    · exact .same _
    · next hnew => exact .pairingToken t hnew
  | consumePairingToken id resultPairID consumedAt =>
    simp only [exec,consumePairingToken]
    split
    · next t hold =>
      split
      · exact .same _
      · next hpending => exact .consumed id resultPairID consumedAt t hold (not_not.1 hpending)
    · exact .same _
  | putPairCredential c => exact .credential _ _
  | revokePairCredential pairID revokedAt =>
    simp only [exec,revokePairCredential]
    repeat' split
    all_goals first | exact .same _ | exact .credential _ _
  | createCheckoutClaim c =>
    simp only [exec,createCheckoutClaim]
    split
    · exact .same _
    · exact .claim _ _
  | markCheckoutClaimReady nonce accountID licenseID subscriptionID sessionID =>
    simp only [exec,markCheckoutClaimReady]
    repeat' split
    all_goals first | exact .same _ | exact .claim _ _
  | setCheckoutClaimCode nonce claimCodeHash =>
    simp only [exec,setCheckoutClaimCode]
    repeat' split
    all_goals first | exact .same _ | exact .claim _ _
  | consumeCheckoutClaim nonce consumedAt =>
    simp only [exec,consumeCheckoutClaim]
    repeat' split
    all_goals first | exact .same _ | exact .claim _ _
  | deleteExpiredCheckoutClaims before => exact .claim _ _
  | insertWebhookEventIfAbsent e =>
    simp only [exec,insertWebhookEventIfAbsent]
    split
    · exact .same _
    · next hnew => exact .webhook e hnew
  | setWebhookStatus id status attempts processedAt =>
    simp only [exec,setWebhookStatus]
    split
    · next e hold => exact .webhookStatus id status attempts processedAt e hold
    · exact .same _
  | _ => exact .same _

/-- All other methods leave the refresh tokens, the pair credentials, the pairings
and the checkout claims alone. -/
theorem exec_frame (m : Moment) (op : StoreOp) :
    (op.rotates=false → (s.exec m op).2.refreshTokens=s.refreshTokens) ∧
      (op.credits=false → (s.exec m op).2.pairCredentials=s.pairCredentials) ∧
      (op.pairs=false → (s.exec m op).2.pairings=s.pairings) ∧
      (op.claims=false → (s.exec m op).2.checkoutClaims=s.checkoutClaims) := by
  refine ⟨?_,?_,?_,?_⟩
  all_goals
    intro h
    cases op
    all_goals simp only [exec,createLicense,setLicenseStatus,createPairing,
      createPairingWithinCapacity,setPairingStatus,updatePairingDevices,modifyPairing,
      revokeRefreshToken,consumeRefreshToken,createPairingToken,consumePairingToken,
      revokePairCredential,createCheckoutClaim,markCheckoutClaimReady,setCheckoutClaimCode,
      consumeCheckoutClaim,insertWebhookEventIfAbsent,setWebhookStatus]
    all_goals repeat' split
    all_goals first | rfl | cases h

theorem createPairingWithinCapacity_ok {p : Pairing} {maxPairs : ℕ} {u : Unit}
    (h : (s.createPairingWithinCapacity p maxPairs).1 = .ok u) :
    (s.createPairingWithinCapacity p maxPairs).2={ s with pairings := s.pairings.put p } := by
  revert h
  unfold createPairingWithinCapacity
  repeat' split
  all_goals
    intro h
    first | rfl | cases h

theorem exec_reads (m : Moment) {op : StoreOp} (h : op.reads=true) : (s.exec m op).2=s := by
  cases op <;> first | rfl | cases h

/-- A method that returns an error has written nothing. -/
theorem exec_error {s : Store} {m : Moment} {op : StoreOp} {e : Err}
    (h : (s.exec m op).1 = .error e) : (s.exec m op).2=s := by
  revert h
  cases op
  all_goals simp only [exec,createLicense,setLicenseStatus,createPairing,
    createPairingWithinCapacity,setPairingStatus,updatePairingDevices,modifyPairing,
    revokeRefreshToken,consumeRefreshToken,createPairingToken,consumePairingToken,
    createCheckoutClaim,setCheckoutClaimCode,consumeCheckoutClaim,setWebhookStatus]
  all_goals repeat' split
  all_goals
    intro h
    trivial

@[simp] theorem found_eq_ok {α : Type} (o : Option α) (a : α) : found o = .ok a ↔ o=some a := by
  cases o <;> simp [found]

theorem mem_listWebhookEvents {s : Store} {ties : List String} {status : WebhookStatus} {limit : ℕ}
    {e : WebhookEvent} (h : e∈s.listWebhookEventsByStatus ties status limit) :
    s.webhookEvents.get e.id=some e ∧ e.status=status := by
  have hmem : e∈s.webhookEvents.list fun e => e.status == status := by
    simp only [listWebhookEventsByStatus] at h
    split at h
    · exact List.mem_mergeSort.1 (List.mem_mergeSort.1 (List.mem_of_mem_take h))
    · exact List.mem_mergeSort.1 (List.mem_mergeSort.1 h)
  obtain ⟨hget,hstatus⟩:=Table.mem_list.1 hmem
  exact ⟨hget,eq_of_beq hstatus⟩

theorem nodup_listWebhookEvents (ties : List String) (status : WebhookStatus) (limit : ℕ) :
    ((s.listWebhookEventsByStatus ties status limit).map WebhookEvent.id).Nodup := by
  have hall:=Table.keys_list_nodup s.webhookEvents fun e => e.status == status
  simp only [listWebhookEventsByStatus]
  split
  · rw [List.map_take]
    refine List.Nodup.sublist (List.take_sublist _ _) ?_
    exact (((List.mergeSort_perm _ _).trans (List.mergeSort_perm _ _)).map _).nodup_iff.2 hall
  · exact (((List.mergeSort_perm _ _).trans (List.mergeSort_perm _ _)).map _).nodup_iff.2 hall

end Store
end SecureGateway.Authstore
