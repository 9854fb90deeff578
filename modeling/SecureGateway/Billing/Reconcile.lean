import SecureGateway.Billing.Settlement
import SecureGateway.Lib.Triple

/-!
# Reconciliation

`Reconcile` treats the subscriptions that Stripe lists one after another. Where
no call fails, each is healed in its turn and stays so, from whatever store the
run starts, and a second run at the same time finds nothing left to do.
-/

namespace SecureGateway.Billing
open Authstore Auth Prog
open Stripe (customerIDOf maxPairsFor currentPeriodEnd)

/-- Calls that do not fail and take no time. Stripe lists `subs`, and the `n`th
call draws the text `fresh n`. -/
def steady (subs : List Stripe.Subscription) (fresh : ℕ → String) (op : Op) (x : World × ℕ) :
    op.Rep × (World × ℕ) :=
  ((perform { fresh := fresh x.2, subscriptions := some subs } op x.1).1,
    (perform { fresh := fresh x.2, subscriptions := some subs } op x.1).2,x.2 + 1)

/-- No license has a key, and no customer is linked to an account, that is drawn
from the `n`th call on. -/
structure Unused (fresh : ℕ → String) (n : ℕ) (s : Store) : Prop where
  licenses : ∀ k, n≤k → s.licenses.get ("lic_" ++ fresh k) = none
  accounts : ∀ k, n≤k → ∀ c : String, s.customerToAcct[c]? ≠ some ("acct" ++ "_" ++ fresh k)

theorem Unused.mono {fresh : ℕ → String} {n n' : ℕ} {s : Store} (h : Unused fresh n s)
    (hn : n≤n') : Unused fresh n' s where
  licenses k hk := h.licenses k (hn.trans hk)
  accounts k hk := h.accounts k (hn.trans hk)

/-- Between two calls: the store is `s`, the clock shows `t`, publishes succeed,
and what is drawn next is unused. -/
structure Calm (fresh : ℕ → String) (t : Time) (s : Store) (x : World × ℕ) : Prop where
  store : x.1.store=s
  clock : x.1.clock=t
  channel : ∀ k, x.1.channel.fails k = false
  unused : Unused fresh x.2 s

section Calls
variable {subs : List Stripe.Subscription} {fresh : ℕ → String} {t : Time} {s s' : Store}
  {α : Type} {post : α → World × ℕ → Prop}

theorem triple_store {op : StoreOp} {r : op.Res} {f : op.Res → Handler α}
    (hexec : s.exec ⟨t,[]⟩ op=(r,s')) (hunused : ∀ n,Unused fresh n s → Unused fresh n s')
    (hf : Triple (steady subs fresh) (Calm fresh t s') (f r) post) :
    Triple (steady subs fresh) (Calm fresh t s) (Auth.store op >>= f) post := by
  rintro ⟨w,n⟩ ⟨rfl,rfl,hchannel,hun⟩
  have hcall : steady subs fresh (.store op) (w,n)=(r,{ w with store := s' },n+1) := by
    simp [steady,Auth.perform,hexec]
  rw [run_bind,run_perform,hcall]
  exact hf _ ⟨rfl,rfl,hchannel,hunused _ (hun.mono (Nat.le_succ n))⟩

theorem triple_read {op : StoreOp} {r : op.Res} {f : op.Res → Handler α} (hexec : s.exec ⟨t,[]⟩ op=(r,s))
    (hf : Triple (steady subs fresh) (Calm fresh t s) (f r) post) :
    Triple (steady subs fresh) (Calm fresh t s) (Auth.store op >>= f) post :=
  triple_store hexec (fun _ h => h) hf

theorem triple_now {f : Time → Handler α}
    (hf : Triple (steady subs fresh) (Calm fresh t s) (f t) post) :
    Triple (steady subs fresh) (Calm fresh t s) (now >>= f) post := by
  rintro ⟨w,n⟩ ⟨rfl,rfl,hchannel,hun⟩
  have hcall : steady subs fresh .now (w,n)=(w.clock,w,n+1) := by simp [steady,Auth.perform]
  rw [run_bind,run_perform,hcall]
  exact hf _ ⟨rfl,rfl,hchannel,hun.mono (Nat.le_succ n)⟩

variable {f : Except Err Unit → Handler α}

theorem triple_publish {ev : RevocationEvent}
    (hf : Triple (steady subs fresh) (Calm fresh t s) (f (.ok ())) post) :
    Triple (steady subs fresh) (Calm fresh t s) (publish ev >>= f) post := by
  rintro ⟨w,n⟩ ⟨rfl,rfl,hchannel,hun⟩
  have hopen : w.channel.fails w.channel.calls=false := hchannel _
  have hcall : steady subs fresh (.publishRevocation ev) (w,n) =
      (.ok (),{ w with channel := { w.channel with
        calls := w.channel.calls+1, published := w.channel.published ++ [ev] } },n+1) := by
    simp [steady,Auth.perform,Channel.publish,hopen]
  rw [run_bind,run_perform,hcall]
  exact hf _ ⟨rfl,rfl,hchannel,hun.mono (Nat.le_succ n)⟩

abbrev Leaves (subs : List Stripe.Subscription) (fresh : ℕ → String) (t : Time) (s : Store)
    (p : Handler (Except Err Unit)) (s' : Store) : Prop :=
  Triple (steady subs fresh) (Calm fresh t s) p fun r x => r = .ok () ∧ Calm fresh t s' x

theorem leaves_pure : Leaves subs fresh t s (pure (.ok ())) s := triple_pure fun _ hx => ⟨rfl,hx⟩

theorem leaves_bind {p : Handler (Except Err Unit)} (hp : Leaves subs fresh t s p s')
    (hf : Triple (steady subs fresh) (Calm fresh t s') (f (.ok ())) post) :
    Triple (steady subs fresh) (Calm fresh t s) (p >>= f) post := by
  refine triple_bind hp fun r x hx => ?_
  obtain ⟨rfl,hx⟩:=hx
  exact hf x hx

end Calls

variable (licenses : List License)

section Enforce
variable {subs : List Stripe.Subscription} {fresh : ℕ → String} {t : Time} {s : Store}

theorem unused_setLicenses {c : License → Bool} {status : LicenseStatus} {n : ℕ}
    (h : Unused fresh n s) : Unused fresh n (setLicenses s c status) where
  licenses k hk := by rw [get_setLicenses,h.licenses k hk,Option.map_none]
  accounts := h.accounts

theorem unused_revokePairings {c : Pairing → Bool} {n : ℕ} (h : Unused fresh n s) :
    Unused fresh n (revokePairings s c) := ⟨h.licenses,h.accounts⟩

theorem setLicenses_setLicenses (s : Store) (c c' : License → Bool) (status : LicenseStatus)
    (hc' : ∀ l,c' { l with status := status } = c' l) :
    setLicenses (setLicenses s c status) c' status =
      setLicenses s (fun l => c l || c' l) status := by
  simp only [setLicenses,Table.mapRows_mapRows]
  congr 1
  refine Table.mapRows_congr fun _ l _ => ?_
  by_cases hcl : c l=true <;> by_cases hcl' : c' l=true <;>
    simp [hcl,hcl',hc']

theorem revokePairings_revokePairings (s : Store) (c c' : Pairing → Bool)
    (hc' : ∀ p,c' { p with status := .revoked } = c' p) :
    revokePairings (revokePairings s c) c'=revokePairings s fun p => c p || c' p := by
  simp only [revokePairings,Table.mapRows_mapRows]
  congr 1
  refine Table.mapRows_congr fun _ p _ => ?_
  by_cases hcp : c p=true <;> by_cases hcp' : c' p=true <;>
    simp [hcp,hcp',hc']

theorem exec_setLicenseStatus {id : String} {l : License} (hget : s.licenses.get id=some l)
    (status : LicenseStatus) : s.exec ⟨t,[]⟩ (.setLicenseStatus id status) =
      (.ok (),setLicenses s (fun l => l.id == id) status) := by
  have hid : l.id=id := Table.key_of_get hget
  subst hid
  have hput:=Table.put_eq_mapRows (fun l : License => { l with status := status })
    (fun _ => rfl) hget
  simp only [Store.exec,Store.setLicenseStatus,hget,setLicenses,hput,beq_iff_eq]

theorem exec_setPairingStatus {id : String} {p : Pairing} (hget : s.pairings.get id=some p) :
    s.exec ⟨t,[]⟩ (.setPairingStatus id .revoked) =
      (.ok (),revokePairings s fun p => p.pairID == id) := by
  have hid : p.pairID=id := Table.key_of_get hget
  subst hid
  have hput:=Table.put_eq_mapRows (fun p : Pairing => { p with status := .revoked })
    (fun _ => rfl) hget
  simp only [Store.exec,Store.setPairingStatus,Store.modifyPairing,hget,revokePairings,hput,
    beq_iff_eq]

theorem whenRevoked_leaves {op : StoreOp} {s' : Store} {u : op.Out}
    (hexec : s.exec ⟨t,[]⟩ op=(.ok u,s')) (hunused : ∀ n,Unused fresh n s → Unused fresh n s') :
    Leaves subs fresh t s (whenRevoked .revoked op) s' :=
  triple_store hexec hunused leaves_pure

theorem enforcePairings_leaves (pairs : List Pairing) (s : Store)
    (hrows : ∀ p∈pairs,∃ q,s.pairings.get p.pairID=some q) :
    Leaves subs fresh t s (enforcePairings .revoked pairs)
      (revokePairings s fun p => (pairs.map Pairing.pairID).contains p.pairID) := by
  induction pairs generalizing s with
  | nil =>
    rw [revokePairings_eq_self (by simp)]
    exact leaves_pure
  | cons pr pairs ih =>
    obtain ⟨q,hq⟩:=hrows pr List.mem_cons_self
    have hrest:=ih (revokePairings s fun p => p.pairID == pr.pairID) fun p hp => by
      obtain ⟨q',hq'⟩:=hrows p (List.mem_cons_of_mem _ hp)
      exact ⟨_,by rw [get_revokePairings,hq',Option.map_some]⟩
    rw [revokePairings_revokePairings s _ _ fun _ => rfl] at hrest
    simp only [List.map_cons,List.contains_cons]
    exact leaves_bind (whenRevoked_leaves (exec_setPairingStatus hq) fun _ => unused_revokePairings)
      (triple_publish hrest)

theorem revokePairings_listed (s : Store) (licenseID : String) :
    revokePairings s (fun p => ((s.pairings.list (Store.activeOn licenseID)).map
        Pairing.pairID).contains p.pairID) =
      revokePairings s fun p => p.licenseID == licenseID := by
  unfold revokePairings
  congr 1
  refine Table.mapRows_congr fun id p hget => ?_
  have hkey : p.pairID=id := Table.key_of_get hget
  have hmem : (((s.pairings.list (Store.activeOn licenseID)).map Pairing.pairID).contains
      p.pairID)=true ↔ p.licenseID=licenseID ∧ p.status=.active := by
    simp only [List.contains_iff_mem,List.mem_map,Table.mem_list]
    constructor
    · rintro ⟨q,⟨hq,hactive⟩,heq⟩
      rw [heq,hkey,hget] at hq
      cases hq
      simpa [Store.activeOn] using hactive
    · rintro ⟨hlic,hactive⟩
      exact ⟨p,⟨by rw [hkey]; exact hget,by simp [Store.activeOn,hlic,hactive]⟩,rfl⟩
  by_cases hlic : p.licenseID=licenseID
  · cases hs : p.status with
    | active => rw [if_pos (hmem.2 ⟨hlic,hs⟩),if_pos (by simpa using hlic)]
    | revoked =>
      have hnot : ¬ ((s.pairings.list (Store.activeOn licenseID)).map Pairing.pairID).contains
          p.pairID=true := fun h => by
        rw [(hmem.1 h).2] at hs
        cases hs
      rw [if_neg hnot,if_pos (by simpa using hlic),← hs]
  · have hnot : ¬ ((s.pairings.list (Store.activeOn licenseID)).map Pairing.pairID).contains
        p.pairID=true := fun h => hlic (hmem.1 h).1
    rw [if_neg hnot,if_neg (by simpa using hlic)]

theorem enforceLicenses_leaves (s : Store) (hrows : ∀ l∈licenses,∃ r,s.licenses.get l.id=some r) :
    Leaves subs fresh t s (enforceLicenses .revoked licenses)
      (revokePairings
        (setLicenses s (fun l => (licenses.map License.id).contains l.id) .revoked)
        fun p => (licenses.map License.id).contains p.licenseID) := by
  induction licenses generalizing s with
  | nil =>
    rw [revokePairings_eq_self (by simp),setLicenses_eq_self (by simp)]
    exact leaves_pure
  | cons l licenses ih =>
    obtain ⟨r,hr⟩:=hrows l List.mem_cons_self
    have hrest:=ih (revokePairings (setLicenses s (fun x => x.id == l.id) .revoked)
        fun p => p.licenseID == l.id) fun x hx => by
      obtain ⟨r',hr'⟩:=hrows x (List.mem_cons_of_mem _ hx)
      exact ⟨_,(get_setLicenses s _ _ _).trans (by rw [hr',Option.map_some])⟩
    have hsplit (c : Pairing → Bool) (d : License → Bool) (s : Store) :
        setLicenses (revokePairings s c) d .revoked =
          revokePairings (setLicenses s d .revoked) c := rfl
    rw [hsplit,setLicenses_setLicenses s _ _ _ fun _ => rfl,
      revokePairings_revokePairings _ _ _ fun _ => rfl] at hrest
    simp only [List.map_cons,List.contains_cons]
    refine leaves_bind (whenRevoked_leaves (exec_setLicenseStatus hr .revoked)
      fun _ => unused_setLicenses) (triple_read rfl ?_)
    refine leaves_bind (enforcePairings_leaves _ _ fun p hp => ⟨p,(Table.mem_list.1 hp).1⟩) ?_
    rw [revokePairings_listed]
    exact hrest

theorem enforcePairings_suspended (pairs : List Pairing) :
    Leaves subs fresh t s (enforcePairings .suspended pairs) s := by
  induction pairs with
  | nil => exact leaves_pure
  | cons pr pairs ih => exact leaves_bind leaves_pure (triple_publish ih)

theorem enforceLicenses_suspended :
    Leaves subs fresh t s (enforceLicenses .suspended licenses) s := by
  induction licenses with
  | nil => exact leaves_pure
  | cons l licenses ih =>
    refine leaves_bind leaves_pure (triple_read rfl ?_)
    exact leaves_bind (enforcePairings_suspended _) ih

theorem contains_listed (s : Store) (subID id : String) :
    ((s.licenses.list fun l => l.subscriptionID == subID).map License.id).contains id =
      licensed s subID id := by
  rw [Bool.eq_iff_iff,licensed_iff,List.contains_iff_mem,List.mem_map]
  constructor
  · rintro ⟨l,hl,rfl⟩
    obtain ⟨hget,hsub⟩:=Table.mem_list.1 hl
    exact ⟨l,hget,by simpa using hsub⟩
  · rintro ⟨l,hget,hsub⟩
    exact ⟨l,Table.mem_list_of_get hget (by simpa using hsub),Table.key_of_get hget⟩

theorem setLicenses_licensed (s : Store) (subID : String) (status : LicenseStatus) :
    setLicenses s (fun l => licensed s subID l.id) status =
      setLicenses s (fun l => l.subscriptionID == subID) status := by
  unfold setLicenses
  congr 1
  refine Table.mapRows_congr fun id l hget => ?_
  have hkey : l.id=id := Table.key_of_get hget
  simp [licensed,hkey,hget]

theorem enforce_leaves (subID : String) (s : Store) {b : License.Behavior}
    (hb : License.enforced b=true) :
    Leaves subs fresh t s (enforce subID b) (settle b subID s) := by
  cases b with
  | valid | grace => cases hb
  | suspended => exact triple_read rfl (enforceLicenses_suspended _)
  | revoked =>
    have hloop : Leaves subs fresh t s
        (enforceLicenses .revoked (s.licenses.list fun l => l.subscriptionID == subID)) _ :=
      enforceLicenses_leaves _ s fun l hl => ⟨l,(Table.mem_list.1 hl).1⟩
    simp only [contains_listed,setLicenses_licensed] at hloop
    exact triple_read rfl hloop

theorem reactivateLicenses_leaves (s : Store) (hnodup : (licenses.map License.id).Nodup)
    (hrows : ∀ l∈licenses,s.licenses.get l.id=some l) :
    Leaves subs fresh t s (reactivateLicenses licenses)
      (setLicenses s (fun l => (licenses.map License.id).contains l.id) .active) := by
  induction licenses generalizing s with
  | nil =>
    rw [setLicenses_eq_self (by simp)]
    exact leaves_pure
  | cons l licenses ih =>
    obtain ⟨hnot,hnodup⟩:=List.nodup_cons.1 hnodup
    have hl:=hrows l List.mem_cons_self
    have hrest:=ih (setLicenses s (fun x => x.id == l.id) .active) hnodup fun x hx => by
      have hne : x.id≠l.id := fun heq => hnot (heq ▸ List.mem_map_of_mem hx)
      rw [get_setLicenses,hrows x (List.mem_cons_of_mem _ hx)]
      simp [hne]
    rw [setLicenses_setLicenses s _ _ _ fun _ => rfl] at hrest
    simp only [List.map_cons,List.contains_cons]
    refine triple_ite (fun _ => ?_) fun hactive => ?_
    · exact triple_store (exec_setLicenseStatus hl .active) (fun _ => unused_setLicenses) hrest
    -- the license is active already
    have hsame : setLicenses s (fun x => x.id == l.id) .active=s := by
      refine setLicenses_eq_self fun id x hget hid => ?_
      rw [← Table.key_of_get hget,beq_iff_eq.1 hid,hl] at hget
      cases hget
      exact not_not.1 hactive
    have hrest':=ih s hnodup fun x hx => hrows x (List.mem_cons_of_mem _ hx)
    rw [← setLicenses_setLicenses s _ _ _ fun _ => rfl,hsame]
    exact hrest'

theorem reactivate_leaves (subID : String) (s : Store) {b : License.Behavior}
    (hb : License.enforced b=false) :
    Leaves subs fresh t s (reactivate subID) (settle b subID s) := by
  have hloop : Leaves subs fresh t s
      (reactivateLicenses (s.licenses.list fun l => l.subscriptionID == subID)) _ :=
    reactivateLicenses_leaves _ s (Table.keys_list_nodup _ _) fun l hl => (Table.mem_list.1 hl).1
  simp only [contains_listed,setLicenses_licensed] at hloop
  cases b with
  | valid | grace => exact triple_read rfl hloop
  | revoked | suspended => cases hb

end Enforce

section Provision
variable {subs : List Stripe.Subscription} {fresh : ℕ → String} {t : Time}

/-- So many licenses were added for the subscription. -/
structure Provided (subID : String) (missing : ℕ) (s s₁ : Store) : Prop where
  rest : s₁ = { s with licenses := s₁.licenses }
  kept : ∀ id l, s.licenses.get id = some l → s₁.licenses.get id = some l
  created : ∀ id l, s₁.licenses.get id = some l → s.licenses.get id = none →
    l.subscriptionID = subID
  count : s₁.licenses.count (fun l => l.subscriptionID == subID) =
    s.licenses.count (fun l => l.subscriptionID == subID) + missing
  none_missing : missing=0 → s₁=s

theorem provided_zero (subID : String) (s : Store) : Provided subID 0 s s where
  rest := rfl
  kept _ _ h := h
  created id l h hnone := by
    rw [hnone] at h
    cases h
  count := rfl
  none_missing _ := rfl

theorem Provided.cons {subID : String} {missing : ℕ} {s s₁ : Store} {l : License}
    (hnew : s.licenses.get l.id=none) (hsub : l.subscriptionID=subID)
    (h : Provided subID missing { s with licenses := s.licenses.put l } s₁) :
    Provided subID (missing+1) s s₁ where
  rest := h.rest
  kept id l' hget := by
    have hne : l.id≠id := by
      rintro rfl
      rw [hnew] at hget
      cases hget
    exact h.kept id l' (by rw [Table.get_put_ne _ _ hne]; exact hget)
  created id l' hget hnone := by
    by_cases hid : l.id=id
    · subst hid
      rw [h.kept l.id l (Table.get_put_self _ _)] at hget
      cases hget
      exact hsub
    · exact h.created id l' hget (by rw [Table.get_put_ne _ _ hid]; exact hnone)
  count := by
    rw [h.count,Table.count_put_new hnew (by simpa using hsub)]
    omega
  none_missing h := by cases h

variable {s : Store}

theorem unused_createLicense {n : ℕ} {l : License} (hinj : Function.Injective fresh)
    (hl : l.id = "lic_" ++ fresh n) (h : Unused fresh n s) :
    Unused fresh (n+1) { s with licenses := s.licenses.put l } where
  licenses k hk := by
    have hne : l.id ≠ "lic_" ++ fresh k := by
      rw [hl]
      intro heq
      have hfresh : fresh n=fresh k := by simpa using heq
      have hnk : n=k := hinj hfresh
      omega
    rw [Table.get_put_ne _ _ hne]
    exact h.licenses k (by omega)
  accounts k hk := h.accounts k (by omega)

def provisioned (m : Subscription) (itemID key : String) (t : Time) : License where
  id := key
  accountID := m.accountID
  subscriptionID := m.id
  subscriptionItemID := itemID
  status := .active
  createdAt := t

theorem provision_provides (hinj : Function.Injective fresh) (m : Subscription) (itemID : String)
    (missing : ℕ) (s : Store) :
    Triple (steady subs fresh) (Calm fresh t s) (provision m itemID missing) fun r x =>
      r = .ok () ∧ ∃ s₁,Provided m.id missing s s₁ ∧ Calm fresh t s₁ x := by
  induction missing generalizing s with
  | zero => exact triple_pure fun x hx => ⟨rfl,s,provided_zero m.id s,hx⟩
  | succ missing ih =>
    rintro ⟨w,n⟩ ⟨rfl,rfl,hchannel,hun⟩
    have hnew : w.store.licenses.get ("lic_" ++ fresh n)=none := hun.licenses n (Nat.le_refl n)
    -- the three calls of one round
    have hround : run (steady subs fresh) (provision m itemID (missing+1)) (w,n) =
        run (steady subs fresh) (provision m itemID missing) ({ w with store := { w.store with
          licenses := w.store.licenses.put (provisioned m itemID ("lic_" ++ fresh n) w.clock) } },
          n+1+2) := by
      simp [provision,provisioned,steady,Auth.perform,Store.exec,Store.createLicense,hnew]
    have hcalm:=unused_createLicense (l := provisioned m itemID ("lic_" ++ fresh n) w.clock)
      hinj rfl hun
    rw [hround]
    obtain ⟨hr,s₁,hprovided,hx⟩:=ih _ ({ w with store := { w.store with
        licenses := w.store.licenses.put (provisioned m itemID ("lic_" ++ fresh n) w.clock) } },
        n+1+2) ⟨rfl,rfl,hchannel,hcalm.mono (Nat.le_add_right (n+1) 2)⟩
    exact ⟨hr,s₁,Provided.cons (l := provisioned m itemID ("lic_" ++ fresh n) w.clock) hnew rfl
      hprovided,hx⟩

/-- The customer's account, which was linked already or is new. -/
structure Resolved (c accountID : String) (s s₁ : Store) : Prop where
  rest : s₁ = { s with accounts := s₁.accounts, customerToAcct := s₁.customerToAcct }
  account : accountOf s₁ c = some accountID
  accounts : ∀ c' accountID', accountOf s c' = some accountID' → accountOf s₁ c' = some accountID'

theorem resolved_self {c accountID : String} (h : accountOf s c=some accountID) :
    Resolved c accountID s s := ⟨rfl,h,fun _ _ h => h⟩

theorem getAccountByCustomer_eq (s : Store) (c : String) :
    match accountOf s c with
    | some accountID => ∃ a,s.getAccountByCustomer c = .ok a ∧ a.id=accountID
    | none => s.getAccountByCustomer c = .error .notFound ∧ s.customerToAcct[c]? = none := by
  unfold accountOf Store.getAccountByCustomer
  cases s.customerToAcct[c]? with
  | none => exact ⟨rfl,rfl⟩
  | some id => exact ⟨_,rfl,rfl⟩

theorem resolveAccount_linked {c accountID : String} (hc : c ≠ "")
    (h : accountOf s c=some accountID) :
    Triple (steady subs fresh) (Calm fresh t s) (resolveAccount c) fun r x =>
      r = .ok accountID ∧ Calm fresh t s x := by
  have hget:=getAccountByCustomer_eq s c
  rw [h] at hget
  obtain ⟨a,ha,rfl⟩:=hget
  refine triple_ite (fun hempty => absurd hempty hc) fun _ => ?_
  exact triple_read (r := .ok a) (by simp [Store.exec,ha]) (triple_pure fun x hx => ⟨rfl,hx⟩)

theorem resolved_upsertAccount {n : ℕ} {c : String} (hc : c ≠ "") (hun : Unused fresh n s)
    (hnone : s.customerToAcct[c]? = none) :
    Resolved c ("acct" ++ "_" ++ fresh n) s
      (s.upsertAccount ⟨"acct" ++ "_" ++ fresh n,c,"",t⟩) := by
  obtain ⟨merged,hid',heq⟩:=s.upsertAccount_eq (a := ⟨"acct" ++ "_" ++ fresh n,c,"",t⟩) hc
  have hid : merged.id = "acct" ++ "_" ++ fresh n := hid'
  rw [heq]
  refine ⟨rfl,?_,fun c' accountID' h' => ?_⟩
  · have hget : (s.accounts.put merged).get ("acct" ++ "_" ++ fresh n)=some merged := by
      rw [← hid]
      exact Table.get_put_self _ _
    simp only [accountOf,Std.ExtTreeMap.getElem?_insert_self,Option.map_some,hget,
      Option.getD_some,hid]
  obtain ⟨id',hlink,hacct⟩:=Option.map_eq_some_iff.1 h'
  have hcc : c≠c' := by
    rintro rfl
    rw [hnone] at hlink
    cases hlink
  have hne : merged.id≠id' := by
    rw [hid]
    rintro rfl
    exact hun.accounts n (Nat.le_refl n) c' hlink
  simp only [accountOf,Std.ExtTreeMap.getElem?_insert,Std.LawfulEqCmp.compare_eq_iff_eq,hcc,
    if_false,hlink,Option.map_some,Table.get_put_ne _ _ hne,hacct]

theorem unused_upsertAccount {n : ℕ} {c : String} (hinj : Function.Injective fresh) (hc : c ≠ "")
    (hun : Unused fresh n s) :
    Unused fresh (n+1) (s.upsertAccount ⟨"acct" ++ "_" ++ fresh n,c,"",t⟩) := by
  obtain ⟨merged,-,heq⟩:=s.upsertAccount_eq (a := ⟨"acct" ++ "_" ++ fresh n,c,"",t⟩) hc
  rw [heq]
  refine ⟨fun k hk => hun.licenses k (by omega),fun k hk c' hlink => ?_⟩
  rw [Std.ExtTreeMap.getElem?_insert] at hlink
  split at hlink
  · have hfresh : fresh n=fresh k := by simpa using hlink
    have hnk : n=k := hinj hfresh
    omega
  · exact hun.accounts k (by omega) c' hlink

theorem resolveAccount_resolves (hinj : Function.Injective fresh) {c : String} (hc : c ≠ "")
    (s : Store) :
    Triple (steady subs fresh) (Calm fresh t s) (resolveAccount c) fun r x =>
      ∃ accountID s₁,r = .ok accountID ∧ Resolved c accountID s s₁ ∧ Calm fresh t s₁ x := by
  cases hacct : accountOf s c with
  | some accountID =>
    exact triple_mono (resolveAccount_linked hc hacct) (fun _ hx => hx) fun r x hx =>
      ⟨accountID,s,hx.1,resolved_self hacct,hx.2⟩
  | none =>
    have hget:=getAccountByCustomer_eq s c
    rw [hacct] at hget
    obtain ⟨hget,hnone⟩:=hget
    rintro ⟨w,n⟩ ⟨rfl,rfl,hchannel,hun⟩
    have hcalls : run (steady subs fresh) (resolveAccount c) (w,n) =
        (.ok ("acct" ++ "_" ++ fresh (n+1)),
          { w with
            store := w.store.upsertAccount ⟨"acct" ++ "_" ++ fresh (n+1),c,"",w.clock⟩ },
          n+1+3) := by
      have hget' : w.store.getAccountByCustomer c = .error .notFound := hget
      simp [resolveAccount,hc,steady,Auth.perform,Store.exec,hget']
    have hun':=hun.mono (Nat.le_succ n)
    rw [hcalls]
    exact ⟨_,_,rfl,resolved_upsertAccount hc hun' hnone,rfl,rfl,hchannel,
      (unused_upsertAccount hinj hc hun').mono (Nat.le_add_right (n+1+1) 2)⟩

end Provision

section One
variable {subs : List Stripe.Subscription} {fresh : ℕ → String} {t : Time}

def missingLicenses (s : Store) (sub : Stripe.Subscription) : ℕ :=
  maxPairsFor sub - s.licenses.count fun l => l.subscriptionID == sub.id

theorem syncSubscription_settles (hinj : Function.Injective fresh) (p : Processor)
    (sub : Stripe.Subscription) (accountID : String) (s : Store) :
    Triple (steady subs fresh) (Calm fresh t s) (syncSubscription p sub accountID) fun r x =>
      r = .ok () ∧ ∃ grace s₁,
        (∀ m,s.subscriptions.get sub.id=some m → grace=m.graceUntil) ∧
        Provided sub.id (missingLicenses s sub)
          { s with
            subscriptions := s.subscriptions.put (mirrorOf p sub accountID t grace) } s₁ ∧
        Calm fresh t (settle (License.evaluate (mirrorOf p sub accountID t grace) t) sub.id s₁)
          x := by
  refine triple_now (triple_read rfl (triple_store rfl (fun n h => ⟨h.licenses,h.accounts⟩) ?_))
  refine triple_bind (triple_read rfl (provision_provides hinj _ _ _ _)) fun r => ?_
  rintro x ⟨rfl,s₁,hprovided,hx⟩
  have hsettle (b : License.Behavior) : Leaves subs fresh t s₁
      (if License.enforced b then enforce sub.id b else reactivate sub.id)
      (settle b sub.id s₁) := by
    refine triple_ite (fun hb => enforce_leaves sub.id s₁ hb) fun hb => ?_
    exact reactivate_leaves sub.id s₁ (Bool.eq_false_iff.2 hb)
  obtain ⟨hr,hx'⟩:=hsettle _ x hx
  refine ⟨hr,_,s₁,fun m hm => ?_,hprovided,hx'⟩
  simp [hm,Store.found]

theorem prepared_of {p : Processor} {sub : Stripe.Subscription} {accountID : String} {grace : Time}
    {s s₁ s₂ : Store} (hr : Resolved (customerIDOf sub.customer) accountID s s₁)
    (hp : Provided sub.id (missingLicenses s₁ sub)
      { s₁ with subscriptions := s₁.subscriptions.put (mirrorOf p sub accountID t grace) } s₂) :
    Prepared p t sub (mirrorOf p sub accountID t grace) s s₂ := by
  have haccounts (c : String) : accountOf s₂ c=accountOf s₁ c := by rw [hp.rest]; rfl
  have hlicenses : s₁.licenses=s.licenses := by rw [hr.rest]
  constructor
  · intro c id hc
    rw [haccounts]
    exact hr.accounts c id hc
  · rw [haccounts]
    exact hr.account
  · exact ⟨grace,rfl⟩
  · rw [hp.rest]
    exact Table.get_put_self s₁.subscriptions (mirrorOf p sub accountID t grace)
  · intro id hid
    have hsame : s₁.subscriptions.get id=s.subscriptions.get id := by rw [hr.rest]
    rw [hp.rest,← hsame]
    exact Table.get_put_ne _ _ hid.symm
  · intro id l hget
    exact hp.kept id l (hlicenses ▸ hget)
  · intro id l hget hnone
    exact hp.created id l hget (hlicenses ▸ hnone)
  · have hcount:=hp.count
    simp only [missingLicenses] at hcount
    omega
  · rw [hp.rest,hr.rest]

theorem reconcileOne_heals (hinj : Function.Injective fresh) (p : Processor)
    (sub : Stripe.Subscription) (hc : customerIDOf sub.customer ≠ "") (s : Store) :
    Triple (steady subs fresh) (Calm fresh t s) (reconcileOne p sub) fun r x =>
      r = .ok () ∧ ∃ s',Healed p t sub s' ∧ Touched t [sub.id] s s' ∧ Calm fresh t s' x := by
  refine triple_bind (resolveAccount_resolves hinj hc s) fun r => ?_
  rintro x ⟨accountID,s₁,rfl,hresolved,hx⟩
  obtain ⟨hr,grace,s₂,-,hprovided,hx'⟩:=syncSubscription_settles hinj p sub accountID s₁ x hx
  have hprepared:=prepared_of hresolved hprovided
  exact ⟨hr,_,hprepared.healed,hprepared.touched,hx'⟩

theorem mirrorOf_mirrorOf (p : Processor) (sub : Stripe.Subscription) (accountID : String)
    (t grace : Time) :
    mirrorOf p sub accountID t (mirrorOf p sub accountID t grace).graceUntil =
      mirrorOf p sub accountID t grace := by
  by_cases hs : sub.status=.pastDue
  · by_cases hg : grace=0 <;> simp [mirrorOf,hs,hg]
  · simp [mirrorOf,hs]

theorem reconcileOne_healed (hinj : Function.Injective fresh) {p : Processor}
    {sub : Stripe.Subscription} (hc : customerIDOf sub.customer ≠ "") {s : Store}
    (h : Healed p t sub s) : Leaves subs fresh t s (reconcileOne p sub) s := by
  obtain ⟨accountID,grace,hacct,hget⟩:=h.mirror
  refine triple_bind (resolveAccount_linked hc hacct) fun r => ?_
  rintro x ⟨rfl,hx⟩
  obtain ⟨hr,grace',s₂,hgrace,hprovided,hx'⟩ := syncSubscription_settles hinj p sub accountID s x hx
  -- the mirror, the licenses and their status are in place
  have hmirror : mirrorOf p sub accountID t grace'=mirrorOf p sub accountID t grace := by
    rw [hgrace _ hget]
    exact mirrorOf_mirrorOf p sub accountID t grace
  have hput : s.subscriptions.put (mirrorOf p sub accountID t grace)=s.subscriptions :=
    Table.put_eq_self hget
  have hprov:=h.provided
  rw [hmirror,hput] at hprovided
  have hsame : s₂=s := hprovided.none_missing (by unfold missingLicenses; omega)
  rw [hmirror,hsame,settle_eq_self (h.settled _ ⟨_,hget,rfl⟩)] at hx'
  exact ⟨hr,hx'⟩

end One

section All
variable {subs : List Stripe.Subscription} {fresh : ℕ → String} {t : Time}

theorem reconcileAll_heals (hinj : Function.Injective fresh) (p : Processor)
    (todo : List Stripe.Subscription) (hids : (todo.map Stripe.Subscription.id).Nodup)
    (hc : ∀ sub∈todo,customerIDOf sub.customer ≠ "") (s : Store) :
    Triple (steady subs fresh) (Calm fresh t s) (reconcileAll p todo) fun r x =>
      r = .ok () ∧ ∃ s',(∀ sub∈todo,Healed p t sub s') ∧
        Touched t (todo.map Stripe.Subscription.id) s s' ∧ Calm fresh t s' x := by
  induction todo generalizing s with
  | nil => exact triple_pure fun x hx => ⟨rfl,s,by simp,Touched.refl t s,hx⟩
  | cons sub todo ih =>
    obtain ⟨hnot,hids⟩:=List.nodup_cons.1 hids
    refine triple_bind (reconcileOne_heals hinj p sub (hc sub List.mem_cons_self) s) fun r => ?_
    rintro x ⟨rfl,s₁,hhealed,htouched,hx⟩
    have hrest:=ih hids (fun o ho => hc o (List.mem_cons_of_mem _ ho)) s₁
    rw [run_bind]
    obtain ⟨hr,s',hall,htouched',hx'⟩:=hrest x hx
    refine ⟨hr,s',List.forall_mem_cons.2 ⟨hhealed.touched htouched' hnot,hall⟩,?_,hx'⟩
    exact htouched.trans htouched' fun id hid => by
      rw [List.mem_singleton.1 hid]
      exact hnot

theorem reconcileAll_healed (hinj : Function.Injective fresh) {p : Processor}
    (todo : List Stripe.Subscription) (hc : ∀ sub∈todo,customerIDOf sub.customer ≠ "")
    {s : Store} (h : ∀ sub∈todo,Healed p t sub s) :
    Leaves subs fresh t s (reconcileAll p todo) s := by
  induction todo with
  | nil => exact leaves_pure
  | cons sub todo ih =>
    obtain ⟨hsub,hrest⟩:=List.forall_mem_cons.1 h
    obtain ⟨hcsub,hcrest⟩:=List.forall_mem_cons.1 hc
    refine leaves_bind (reconcileOne_healed hinj hcsub hsub) ?_
    exact leaves_bind (ih hcrest hrest) leaves_pure

/-- What a reconciliation at time `t` makes of the store `s`. -/
structure Reconciled (t : Time) (subs : List Stripe.Subscription) (s s' : Store) : Prop where
  mirrors : ∀ sub ∈ subs, ∃ m, s'.subscriptions.get sub.id = some m ∧ m.status=sub.status ∧
    m.maxPairs = maxPairsFor sub ∧ m.currentPeriodEnd = currentPeriodEnd sub
  provided : ∀ sub ∈ subs, maxPairsFor sub ≤ s'.licenses.count fun l => l.subscriptionID == sub.id
  honoured : ∀ sub ∈ subs, Behaves t s' sub.id .valid ∨ Behaves t s' sub.id .grace →
    ∀ id l, s'.licenses.get id = some l → l.subscriptionID=sub.id → l.status=.active
  revoked : ∀ sub ∈ subs, Behaves t s' sub.id .revoked →
    ∀ id l, s'.licenses.get id = some l → l.subscriptionID=sub.id →
      l.status = .revoked ∧ s'.activePairCount id = 0
  suspended : ∀ sub ∈ subs, Behaves t s' sub.id .suspended →
    (∀ id l, s.licenses.get id = some l → l.subscriptionID=sub.id → s'.licenses.get id = some l) ∧
    ∀ id p, LicenseOf s' p.licenseID sub.id →
      (s'.pairings.get id = some p ↔ s.pairings.get id = some p)
  unlisted : ∀ id p subID, s.pairings.get id = some p → LicenseOf s p.licenseID subID →
    subID ∉ subs.map Stripe.Subscription.id → s'.pairings.get id = some p

theorem Touched.pairing_same {s s' : Store} {ids : List String} {subID : String}
    (h : Touched t ids s s') (hb : ¬ Behaves t s' subID .revoked) {id : String} {p : Pairing}
    (hof : LicenseOf s' p.licenseID subID) :
    s'.pairings.get id=some p ↔ s.pairings.get id=some p := by
  rcases h.pairings id with hsame | ⟨p₀,hp₀,hp₁,subID',-,hb',hof'⟩
  · rw [hsame]
  have hne (hlic : p.licenseID=p₀.licenseID) : False := by
    rw [hlic] at hof
    exact hb (licenseOf_unique hof hof' ▸ hb')
  constructor
  · intro hget
    rw [hp₁] at hget
    cases hget
    exact (hne rfl).elim
  · intro hget
    rw [hp₀] at hget
    cases hget
    exact (hne rfl).elim

theorem reconciled_of {p : Processor} {s s' : Store} (hhealed : ∀ sub∈subs,Healed p t sub s')
    (ht : Touched t (subs.map Stripe.Subscription.id) s s') : Reconciled t subs s s' where
  mirrors sub hsub := by
    obtain ⟨accountID,grace,-,hget⟩:=(hhealed sub hsub).mirror
    exact ⟨_,hget,rfl,rfl,rfl⟩
  provided sub hsub := (hhealed sub hsub).provided
  honoured sub hsub hb := by
    rcases hb with hb | hb
    · exact (hhealed sub hsub).settled _ hb
    · exact (hhealed sub hsub).settled _ hb
  revoked sub hsub hb id l hget hl := by
    have hsettled:=(hhealed sub hsub).settled _ hb
    refine ⟨hsettled.1 id l hget hl,Store.activePairCount_eq_zero ?_⟩
    intro k q hq hon hactive
    have hrevoked:=hsettled.2 k q hq ⟨l,hon ▸ hget,hl⟩
    rw [hactive] at hrevoked
    cases hrevoked
  suspended sub hsub hb := by
    refine ⟨fun id l hget hl => ?_,fun id q hof => ?_⟩
    · rcases ht.licenses id l hget with hsame | ⟨-,hnot,-⟩
      · exact hsame
      · exact absurd (hl ▸ hb) hnot
    · exact ht.pairing_same (fun hr => by cases hr.unique hb) hof
  unlisted id q subID hget hof hid := by
    rcases ht.pairings id with hsame | ⟨p₀,hp₀,-,subID',hmem,-,hof'⟩
    · rw [hsame,hget]
    rw [hget] at hp₀
    cases hp₀
    exact absurd (licenseOf_unique (ht.licenseOf hof) hof' ▸ hmem) hid

end All

theorem run_reconcile (p : Processor) (subs : List Stripe.Subscription) (fresh : ℕ → String)
    (w : World) (n : ℕ) : run (steady subs fresh) (reconcile p) (w,n) =
      run (steady subs fresh) (reconcileAll p subs) (w,n+1) := rfl

/-- From any store, with subscriptions of different ids and with customers: where
no call fails, a reconciliation heals the store, and a second one at the same
time changes nothing. -/
theorem reconcile_heals (p : Processor) (subs : List Stripe.Subscription)
    (hids : (subs.map Stripe.Subscription.id).Nodup)
    (hcustomer : ∀ sub ∈ subs, customerIDOf sub.customer ≠ "") (fresh : ℕ → String)
    (hinj : Function.Injective fresh) (w : World) (hpublish : ∀ k, w.channel.fails k = false)
    (n : ℕ) (hfresh : Unused fresh n w.store) :
    (run (steady subs fresh) (reconcile p) (w,n)).1 = .ok () ∧
      Reconciled w.clock subs w.store (run (steady subs fresh) (reconcile p) (w,n)).2.1.store ∧
      (run (steady subs fresh) (reconcile p)
          (run (steady subs fresh) (reconcile p) (w,n)).2).2.1.store =
        (run (steady subs fresh) (reconcile p) (w,n)).2.1.store := by
  obtain ⟨hok,s',hhealed,htouched,hcalm⟩ :=
    reconcileAll_heals hinj p subs hids hcustomer w.store (w,n + 1)
      ⟨rfl,rfl,hpublish,hfresh.mono (Nat.le_succ n)⟩
  rw [← run_reconcile] at hok hcalm
  refine ⟨hok,?_,?_⟩
  · rw [hcalm.store]
    exact reconciled_of hhealed htouched
  generalize (run (steady subs fresh) (reconcile p) (w,n)).2 = x at hcalm
  obtain ⟨w',n'⟩ := x
  have hagain : Leaves subs fresh w.clock s' (reconcileAll p subs) s' :=
    reconcileAll_healed hinj subs hcustomer hhealed
  have hstore := (hagain (w',n' + 1)
    ⟨hcalm.store,hcalm.clock,hcalm.channel,hcalm.unused.mono (Nat.le_succ n')⟩).2.store
  rw [run_reconcile,hstore]
  exact hcalm.store.symm

def sampleFresh (n : ℕ) : String := String.ofList (List.replicate n 'x')

theorem sampleFresh_injective : Function.Injective sampleFresh := by
  intro n n' h
  have hlength:=congrArg String.length h
  simpa [sampleFresh] using hlength

def drifted : World :=
  { store :=
      { licenses := Table.empty.put
          { id := "old", accountID := "acct_1", subscriptionID := "sub_1", status := .revoked }
        pairings := Table.empty.put
          { pairID := "pair_1", licenseID := "old", accountID := "acct_1", mobileDeviceID := "m",
            desktopDeviceID := "d", status := .active } } }

def sampleListed : List Stripe.Subscription :=
  [{ id := "sub_1", customer := some "cus_1", status := .active,
     metadata := [("max_pairs","2")] },
    { id := "sub_2", customer := some "cus_2", status := .canceled },
    { id := "sub_3", customer := some "cus_2", status := .paused }]

theorem unused_drifted : Unused sampleFresh 0 drifted.store where
  licenses k _ := by
    have hne : "old" ≠ "lic_" ++ sampleFresh k := by
      intro h
      have hhead:=congrArg (fun s => s.toList.head?) h
      simp at hhead
    simp [drifted,Table.get_put,hne]
  accounts k _ c := by simp [drifted]

theorem reconcile_heals_drifted :
    (run (steady sampleListed sampleFresh) (reconcile ⟨100⟩) (drifted,0)).1 = .ok () ∧
      Reconciled 0 sampleListed drifted.store
        (run (steady sampleListed sampleFresh) (reconcile ⟨100⟩) (drifted,0)).2.1.store ∧
      (run (steady sampleListed sampleFresh) (reconcile ⟨100⟩)
          (run (steady sampleListed sampleFresh) (reconcile ⟨100⟩) (drifted,0)).2).2.1.store =
        (run (steady sampleListed sampleFresh) (reconcile ⟨100⟩) (drifted,0)).2.1.store :=
  reconcile_heals ⟨100⟩ sampleListed (by decide) (by decide) sampleFresh sampleFresh_injective
    drifted (fun _ => rfl) 0 unused_drifted

end SecureGateway.Billing
