import SecureGateway.Auth.Discipline

/-!
# What a reconciliation leaves in the store

The abstract side of `Reconcile`, with no calls in it. `settle` is what enforcing or
reactivating a subscription makes of the store, `Healed` says that nothing is left to do, and
`Touched` what the treatment of some subscriptions may have changed of everything else.
-/

namespace SecureGateway.Billing
open Authstore Auth
open Stripe (customerIDOf maxPairsFor currentPeriodEnd)

def setLicenses (s : Store) (c : License → Bool) (status : LicenseStatus) : Store :=
  { s with
    licenses := s.licenses.mapRows (fun l => if c l then { l with status := status } else l)
      (fun l => by split <;> rfl) }

def revokePairings (s : Store) (c : Pairing → Bool) : Store :=
  { s with
    pairings := s.pairings.mapRows (fun p => if c p then { p with status := .revoked } else p)
      (fun p => by split <;> rfl) }

def licensed (s : Store) (subID licenseID : String) : Bool :=
  (s.licenses.get licenseID).any fun l => l.subscriptionID == subID

/-- The store once the subscription was enforced or reactivated. -/
def settle (b : License.Behavior) (subID : String) (s : Store) : Store :=
  match b with
  | .valid | .grace => setLicenses s (fun l => l.subscriptionID == subID) .active
  | .revoked =>
    revokePairings (setLicenses s (fun l => l.subscriptionID == subID) .revoked) fun p =>
      licensed s subID p.licenseID
  | .suspended => s

/-- The licenses of the subscription, and the pairings on them, are as the
behavior asks. -/
def Settled (b : License.Behavior) (subID : String) (s : Store) : Prop :=
  match b with
  | .valid | .grace => ∀ id l, s.licenses.get id = some l → l.subscriptionID=subID →
    l.status = .active
  | .revoked =>
    (∀ id l, s.licenses.get id = some l → l.subscriptionID=subID → l.status=.revoked) ∧
      ∀ id p, s.pairings.get id = some p → LicenseOf s p.licenseID subID → p.status=.revoked
  | .suspended => True

variable {s s' s₁ s₂ : Store} {subID : String} {b : License.Behavior}

theorem licensed_iff {licenseID : String} :
    licensed s subID licenseID=true ↔ LicenseOf s licenseID subID := by
  unfold licensed LicenseOf
  cases s.licenses.get licenseID with
  | none => simp
  | some l => simp

theorem get_setLicenses (s : Store) (c : License → Bool) (status : LicenseStatus) (id : String) :
    (setLicenses s c status).licenses.get id=(s.licenses.get id).map fun l =>
      if c l then { l with status := status } else l := by
  simp [setLicenses]

theorem get_revokePairings (s : Store) (c : Pairing → Bool) (id : String) :
    (revokePairings s c).pairings.get id=(s.pairings.get id).map fun p =>
      if c p then { p with status := .revoked } else p := by
  simp [revokePairings]

theorem setLicenses_eq_self {c : License → Bool} {status : LicenseStatus}
    (h : ∀ id l,s.licenses.get id=some l → c l=true → l.status=status) :
    setLicenses s c status=s := by
  have hrows : s.licenses.mapRows (fun l => if c l then { l with status := status } else l)
      (fun l => by split <;> rfl)=s.licenses := by
    refine Table.mapRows_eq_self fun id l hget => ?_
    split
    · next hc => rw [← h id l hget hc]
    · rfl
  rw [setLicenses,hrows]

theorem revokePairings_eq_self {c : Pairing → Bool}
    (h : ∀ id p,s.pairings.get id=some p → c p=true → p.status=.revoked) :
    revokePairings s c=s := by
  have hrows : s.pairings.mapRows (fun p => if c p then { p with status := .revoked } else p)
      (fun p => by split <;> rfl)=s.pairings := by
    refine Table.mapRows_eq_self fun id p hget => ?_
    split
    · next hc => rw [← h id p hget hc]
    · rfl
  rw [revokePairings,hrows]

theorem settle_eq_self (h : Settled b subID s) : settle b subID s=s := by
  have hset (status : LicenseStatus)
      (hall : ∀ id l,s.licenses.get id=some l → l.subscriptionID=subID → l.status=status) :
      setLicenses s (fun l => l.subscriptionID == subID) status=s :=
    setLicenses_eq_self fun id l hget hc => hall id l hget (beq_iff_eq.1 hc)
  cases b with
  | valid => exact hset .active h
  | grace => exact hset .active h
  | revoked =>
    simp only [settle,hset .revoked h.1]
    exact revokePairings_eq_self fun id p hget hc => h.2 id p hget (licensed_iff.1 hc)
  | suspended => rfl

variable {id : String}

theorem licenseOf_setLicenses {c : License → Bool} {status : LicenseStatus} :
    LicenseOf (setLicenses s c status) id subID ↔ LicenseOf s id subID := by
  unfold LicenseOf
  rw [get_setLicenses]
  cases s.licenses.get id with
  | none => simp
  | some l =>
    by_cases hc : c l=true
    · simp [hc]
    · simp [hc]

theorem status_setLicenses {status : LicenseStatus} {l : License}
    (hget : (setLicenses s (fun l => l.subscriptionID == subID) status).licenses.get id=some l)
    (hsub : l.subscriptionID=subID) : l.status=status := by
  rw [get_setLicenses,Option.map_eq_some_iff] at hget
  obtain ⟨l₀,-,rfl⟩:=hget
  split at hsub
  · next hc => rw [if_pos hc]
  · next hc => exact absurd (beq_iff_eq.2 hsub) hc

theorem settled_settle (b : License.Behavior) (subID : String) (s : Store) :
    Settled b subID (settle b subID s) := by
  cases b with
  | valid => exact fun id l hget hsub => status_setLicenses hget hsub
  | grace => exact fun id l hget hsub => status_setLicenses hget hsub
  | revoked =>
    refine ⟨fun id l hget hsub => status_setLicenses hget hsub,fun id p hget hof => ?_⟩
    have hof' : LicenseOf s p.licenseID subID := licenseOf_setLicenses.1 hof
    simp only [settle,get_revokePairings,Option.map_eq_some_iff] at hget
    obtain ⟨p₀,-,rfl⟩:=hget
    split at hof'
    · next hc => rw [if_pos hc]
    · next hc => exact absurd (licensed_iff.2 hof') hc
  | suspended => trivial

def accountOf (s : Store) (customerID : String) : Option String :=
  s.customerToAcct[customerID]?.map fun id => ((s.accounts.get id).getD default).id

def Behaves (t : Time) (s : Store) (subID : String) (b : License.Behavior) : Prop :=
  ∃ m, s.subscriptions.get subID = some m ∧ License.evaluate m t = b

/-- One more treatment of the subscription at this time would change nothing. -/
structure Healed (p : Processor) (t : Time) (sub : Stripe.Subscription) (s : Store) : Prop where
  mirror : ∃ accountID grace, accountOf s (customerIDOf sub.customer) = some accountID ∧
    s.subscriptions.get sub.id = some (mirrorOf p sub accountID t grace)
  provided : maxPairsFor sub ≤ s.licenses.count fun l => l.subscriptionID == sub.id
  settled : ∀ b, Behaves t s sub.id b → Settled b sub.id s

/-- What the treatment of the subscriptions `ids` may have changed. -/
structure Touched (t : Time) (ids : List String) (s s' : Store) : Prop where
  accounts : ∀ c accountID, accountOf s c = some accountID → accountOf s' c = some accountID
  subscriptions : ∀ id, id ∉ ids → s'.subscriptions.get id = s.subscriptions.get id
  licenses : ∀ id l, s.licenses.get id = some l → s'.licenses.get id = some l ∨
    l.subscriptionID ∈ ids ∧ ¬ Behaves t s' l.subscriptionID .suspended ∧
      ∃ l', s'.licenses.get id = some l' ∧ l'.subscriptionID=l.subscriptionID
  created : ∀ id l, s'.licenses.get id = some l → s.licenses.get id = none → l.subscriptionID ∈ ids
  pairings : ∀ id, s'.pairings.get id = s.pairings.get id ∨ ∃ p, s.pairings.get id = some p ∧
    s'.pairings.get id = some { p with status := .revoked } ∧
    ∃ subID ∈ ids, Behaves t s' subID .revoked ∧ LicenseOf s' p.licenseID subID

variable {t : Time} {ids ids' : List String}

theorem Behaves.unique {b' : License.Behavior} (h : Behaves t s subID b)
    (h' : Behaves t s subID b') : b=b' := by
  obtain ⟨m,hget,rfl⟩:=h
  obtain ⟨m',hget',rfl⟩:=h'
  rw [hget] at hget'
  cases hget'
  rfl

theorem licenseOf_unique {subID' : String} (h : LicenseOf s id subID) (h' : LicenseOf s id subID') :
    subID=subID' := by
  obtain ⟨l,hget,rfl⟩:=h
  obtain ⟨l',hget',rfl⟩:=h'
  rw [hget] at hget'
  cases hget'
  rfl

namespace Touched

theorem refl (t : Time) (s : Store) : Touched t [] s s where
  accounts _ _ h := h
  subscriptions _ _ := rfl
  licenses _ _ h := .inl h
  created id l h hnone := by
    rw [hnone] at h
    cases h
  pairings _ := .inl rfl

theorem license (h : Touched t ids s s') {l : License} (hget : s.licenses.get id=some l) :
    ∃ l',s'.licenses.get id=some l' ∧ l'.subscriptionID=l.subscriptionID := by
  rcases h.licenses id l hget with hsame | ⟨-,-,hl'⟩
  · exact ⟨l,hsame,rfl⟩
  · exact hl'

theorem licenseOf (h : Touched t ids s s') (hof : LicenseOf s id subID) :
    LicenseOf s' id subID := by
  obtain ⟨l,hget,rfl⟩:=hof
  exact h.license hget

theorem license_before (h : Touched t ids s s') {l : License} (hget : s'.licenses.get id=some l)
    (hid : l.subscriptionID∉ids) : s.licenses.get id=some l := by
  cases hold : s.licenses.get id with
  | none => exact absurd (h.created id l hget hold) hid
  | some l₀ =>
    rcases h.licenses id l₀ hold with hsame | ⟨hmem,-,l',hget',hsub⟩
    · rw [← hsame,hget]
    rw [hget] at hget'
    cases hget'
    exact absurd (hsub ▸ hmem) hid

theorem behaves_iff (h : Touched t ids s s') (hid : subID∉ids) :
    Behaves t s' subID b ↔ Behaves t s subID b := by
  simp only [Behaves,h.subscriptions subID hid]

theorem trans (h : Touched t ids s s₁) (h' : Touched t ids' s₁ s₂)
    (hdisjoint : ∀ id∈ids,id∉ids') : Touched t (ids++ids') s s₂ where
  accounts c accountID hc := h'.accounts c accountID (h.accounts c accountID hc)
  subscriptions id hid := by
    obtain ⟨hnot,hnot'⟩:=not_or.1 (mt List.mem_append.2 hid)
    rw [h'.subscriptions id hnot',h.subscriptions id hnot]
  licenses id l hget := by
    rcases h.licenses id l hget with hsame | ⟨hmem,hnot,l₁,hget₁,hsub⟩
    · rcases h'.licenses id l hsame with hsame' | ⟨hmem,hrest⟩
      · exact .inl hsame'
      · exact .inr ⟨List.mem_append_right _ hmem,hrest⟩
    refine .inr ⟨List.mem_append_left _ hmem,?_,?_⟩
    · rw [h'.behaves_iff (hdisjoint _ hmem)]
      exact hnot
    · obtain ⟨l₂,hget₂,hsub₂⟩:=h'.license hget₁
      exact ⟨l₂,hget₂,hsub₂.trans hsub⟩
  created id l hget hnone := by
    cases hmid : s₁.licenses.get id with
    | none => exact List.mem_append_right _ (h'.created id l hget hmid)
    | some l₁ =>
      obtain ⟨l₂,hget₂,hsub⟩:=h'.license hmid
      rw [hget] at hget₂
      cases hget₂
      exact List.mem_append_left _ (hsub ▸ h.created id l₁ hmid hnone)
  pairings id := by
    rcases h.pairings id with hsame | ⟨p,hp,hp₁,subID,hmem,hb,hof⟩
    · rcases h'.pairings id with hsame' | ⟨p,hp,hp₂,subID,hmem,hrest⟩
      · exact .inl (hsame'.trans hsame)
      · exact .inr ⟨p,hsame ▸ hp,hp₂,subID,List.mem_append_right _ hmem,hrest⟩
    -- what was revoked first is still revoked, whatever came after
    refine .inr ⟨p,hp,?_,subID,List.mem_append_left _ hmem,
      (h'.behaves_iff (hdisjoint _ hmem)).2 hb,h'.licenseOf hof⟩
    rcases h'.pairings id with hsame' | ⟨p₁,hp₁',hp₂,-⟩
    · rw [hsame',hp₁]
    rw [hp₁] at hp₁'
    cases hp₁'
    exact hp₂

end Touched

theorem Healed.touched {p : Processor} {sub : Stripe.Subscription} (h : Healed p t sub s)
    (ht : Touched t ids s s') (hid : sub.id∉ids) : Healed p t sub s' where
  mirror := by
    obtain ⟨accountID,grace,hacct,hget⟩:=h.mirror
    exact ⟨accountID,grace,ht.accounts _ _ hacct,by rw [ht.subscriptions _ hid,hget]⟩
  provided := by
    refine h.provided.trans (Table.count_le_of_imp fun id l hget hsub => ?_)
    obtain ⟨l',hget',hsub'⟩:=ht.license hget
    exact ⟨l',hget',by rw [hsub']; exact hsub⟩
  settled b hb := by
    have hlicense (id : String) (l : License) (hget : s'.licenses.get id=some l)
        (hsub : l.subscriptionID=sub.id) : s.licenses.get id=some l :=
      ht.license_before hget (hsub ▸ hid)
    have hold:=h.settled b ((ht.behaves_iff hid).1 hb)
    cases b with
    | valid => exact fun id l hget hsub => hold id l (hlicense id l hget hsub) hsub
    | grace => exact fun id l hget hsub => hold id l (hlicense id l hget hsub) hsub
    | revoked =>
      refine ⟨fun id l hget hsub => hold.1 id l (hlicense id l hget hsub) hsub,?_⟩
      intro id p hget hof
      rcases ht.pairings id with hsame | ⟨p₀,-,hp,-⟩
      · obtain ⟨l,hl,hsub⟩:=hof
        exact hold.2 id p (hsame ▸ hget) ⟨l,hlicense _ l hl hsub,hsub⟩
      rw [hp] at hget
      cases hget
      rfl
    | suspended => trivial

theorem settle_subscriptions (b : License.Behavior) (subID : String) (s : Store) :
    (settle b subID s).subscriptions=s.subscriptions := by
  cases b <;> rfl

theorem settle_accountOf (b : License.Behavior) (subID : String) (s : Store) (c : String) :
    accountOf (settle b subID s) c=accountOf s c := by
  cases b <;> rfl

theorem settle_license (b : License.Behavior) (subID : String) (s : Store) (id : String) :
    ∃ f : License → License,(settle b subID s).licenses.get id=(s.licenses.get id).map f ∧
      (∀ l,(f l).subscriptionID=l.subscriptionID) ∧
      ∀ l,l.subscriptionID≠subID ∨ b=.suspended → f l=l := by
  have hset (status : LicenseStatus) : ∃ f : License → License,
      (setLicenses s (fun l => l.subscriptionID == subID) status).licenses.get id =
        (s.licenses.get id).map f ∧ (∀ l,(f l).subscriptionID=l.subscriptionID) ∧
      ∀ l,l.subscriptionID≠subID → f l=l := by
    refine ⟨_,get_setLicenses s _ status id,fun l => ?_,fun l hne => ?_⟩
    · split <;> rfl
    · rw [if_neg (by simpa using hne)]
  cases b with
  | suspended => exact ⟨fun l => l,by simp [settle],fun _ => rfl,fun _ _ => rfl⟩
  | valid | grace =>
    obtain ⟨f,hget,hsub,hsame⟩:=hset .active
    exact ⟨f,hget,hsub,fun l hl => hsame l (hl.resolve_right (by simp))⟩
  | revoked =>
    obtain ⟨f,hget,hsub,hsame⟩:=hset .revoked
    exact ⟨f,hget,hsub,fun l hl => hsame l (hl.resolve_right (by simp))⟩

theorem licenseOf_settle {subID' : String} :
    LicenseOf (settle b subID s) id subID' ↔ LicenseOf s id subID' := by
  obtain ⟨f,hget,hsub,-⟩:=settle_license b subID s id
  unfold LicenseOf
  rw [hget]
  cases s.licenses.get id with
  | none => simp
  | some l => simp [hsub]

theorem settle_pairing (b : License.Behavior) (subID : String) (s : Store) (id : String) :
    (settle b subID s).pairings.get id=s.pairings.get id ∨
      b = .revoked ∧ ∃ p,s.pairings.get id=some p ∧ LicenseOf s p.licenseID subID ∧
        (settle b subID s).pairings.get id=some { p with status := .revoked } := by
  cases b with
  | revoked =>
    cases hget : s.pairings.get id with
    | none => exact .inl (by simp [settle,get_revokePairings,setLicenses,hget])
    | some p =>
      by_cases hc : licensed s subID p.licenseID=true
      · refine .inr ⟨rfl,p,rfl,licensed_iff.1 hc,?_⟩
        simp [settle,get_revokePairings,setLicenses,hget,hc]
      · exact .inl (by simp [settle,get_revokePairings,setLicenses,hget,hc])
  | _ => exact .inl rfl

theorem settle_count (b : License.Behavior) (subID : String) (s : Store) :
    (settle b subID s).licenses.count (fun l => l.subscriptionID == subID) =
      s.licenses.count fun l => l.subscriptionID == subID := by
  have hset (status : LicenseStatus) :
      (setLicenses s (fun l => l.subscriptionID == subID) status).licenses.count
        (fun l => l.subscriptionID == subID)=s.licenses.count fun l => l.subscriptionID == subID :=
    Table.count_mapRows (fun l => by split <;> rfl) fun l => by split <;> rfl
  cases b with
  | valid | grace => exact hset .active
  | revoked => exact hset .revoked
  | suspended => rfl

/-- The store when the mirror `m` of the subscription is written and its licenses
are provisioned. -/
structure Prepared (p : Processor) (t : Time) (sub : Stripe.Subscription) (m : Subscription)
    (s s₁ : Store) : Prop where
  accounts : ∀ c accountID, accountOf s c = some accountID → accountOf s₁ c = some accountID
  account : accountOf s₁ (customerIDOf sub.customer) = some m.accountID
  mirror : ∃ grace, m = mirrorOf p sub m.accountID t grace
  stored : s₁.subscriptions.get sub.id = some m
  subscriptions : ∀ id, id≠sub.id → s₁.subscriptions.get id = s.subscriptions.get id
  kept : ∀ id l, s.licenses.get id = some l → s₁.licenses.get id = some l
  created : ∀ id l, s₁.licenses.get id = some l → s.licenses.get id = none →
    l.subscriptionID = sub.id
  provided : maxPairsFor sub ≤ s₁.licenses.count fun l => l.subscriptionID == sub.id
  pairings : s₁.pairings=s.pairings

section Prepared
variable {p : Processor} {sub : Stripe.Subscription} {m : Subscription}

theorem Prepared.behaves (h : Prepared p t sub m s s₁) (b : License.Behavior)
    (hb : Behaves t (settle (License.evaluate m t) sub.id s₁) sub.id b) :
    b=License.evaluate m t := by
  obtain ⟨m',hget,rfl⟩:=hb
  rw [settle_subscriptions,h.stored] at hget
  cases hget
  rfl

theorem Prepared.behaves_self (h : Prepared p t sub m s s₁) :
    Behaves t (settle (License.evaluate m t) sub.id s₁) sub.id (License.evaluate m t) :=
  ⟨m,by rw [settle_subscriptions,h.stored],rfl⟩

theorem Prepared.healed (h : Prepared p t sub m s s₁) :
    Healed p t sub (settle (License.evaluate m t) sub.id s₁) where
  mirror := by
    obtain ⟨grace,hm⟩:=h.mirror
    refine ⟨m.accountID,grace,?_,?_⟩
    · rw [settle_accountOf,h.account]
    · rw [settle_subscriptions,h.stored,← hm]
  provided := by
    rw [settle_count]
    exact h.provided
  settled b hb := by
    rw [h.behaves b hb]
    exact settled_settle _ _ _

theorem Prepared.touched (h : Prepared p t sub m s s₁) :
    Touched t [sub.id] s (settle (License.evaluate m t) sub.id s₁) where
  accounts c accountID hc := by
    rw [settle_accountOf]
    exact h.accounts c accountID hc
  subscriptions id hid := by
    rw [settle_subscriptions]
    exact h.subscriptions id fun heq => hid (by simp [heq])
  licenses id l hget := by
    obtain ⟨f,hf,hsub,hsame⟩:=settle_license (License.evaluate m t) sub.id s₁ id
    rw [hf,h.kept id l hget,Option.map_some]
    by_cases hl : l.subscriptionID≠sub.id ∨ License.evaluate m t = .suspended
    · exact .inl (by rw [hsame l hl])
    obtain ⟨hid,hnot⟩:=not_or.1 hl
    refine .inr ⟨by simp [not_not.1 hid],fun hb => hnot ?_,f l,rfl,hsub l⟩
    rw [not_not.1 hid] at hb
    exact (h.behaves _ hb).symm
  created id l hget hnone := by
    obtain ⟨f,hf,hsub,-⟩:=settle_license (License.evaluate m t) sub.id s₁ id
    rw [hf,Option.map_eq_some_iff] at hget
    obtain ⟨l₁,hget₁,rfl⟩:=hget
    simp [hsub,h.created id l₁ hget₁ hnone]
  pairings id := by
    rcases settle_pairing (License.evaluate m t) sub.id s₁ id with hsame | ⟨hb,p,hp,hof,hp'⟩
    · exact .inl (by rw [hsame,h.pairings])
    refine .inr ⟨p,by rw [← h.pairings]; exact hp,hp',sub.id,by simp,?_,?_⟩
    · rw [← hb]
      exact h.behaves_self
    · exact licenseOf_settle.2 hof

end Prepared

end SecureGateway.Billing
