import SecureGateway.Auth.Authorization
import SecureGateway.Billing.Cancellation

/-!
# Revocations and failed publishes

The handler sets each active pairing to revoked and then publishes its revocation; the first
publish that fails ends the dispatch. The retry lists what is still active, so every pairing
gets exactly one publish. `Cut` describes what a number of dispatches has done, and composes.
-/

namespace SecureGateway.Billing
open Authstore Auth Prog

def attempt (c : Channel) (pairID : String) : Channel := (c.publish { pairID := pairID }).2

/-- Of the pairs tried from the `n`th publish on, those whose publish succeeded. -/
def delivered (fails : ℕ → Bool) : ℕ → List String → List String
  | _, [] => []
  | n, id :: ids => if fails n then delivered fails (n + 1) ids else id :: delivered fails (n + 1) ids

theorem attempt_foldl (ids : List String) (c : Channel) :
    (ids.foldl attempt c).fails=c.fails ∧ (ids.foldl attempt c).published =
      c.published++(delivered c.fails c.calls ids).map fun id => { pairID := id } := by
  induction ids generalizing c with
  | nil => simp [delivered]
  | cons id ids ih =>
    obtain ⟨hfails,hpublished⟩:=ih (attempt c id)
    cases hf : c.fails c.calls with
    | true =>
      have hc : attempt c id = { c with calls := c.calls+1 } := by simp [attempt,Channel.publish,hf]
      rw [hc] at hfails hpublished
      simp [hc,hfails,hpublished,delivered,hf]
    | false =>
      have hc : attempt c id =
          { c with calls := c.calls+1, published := c.published ++ [{ pairID := id }] } := by
        simp [attempt,Channel.publish,hf]
      rw [hc] at hfails hpublished
      simp [hc,hfails,hpublished,delivered,hf]

variable (fails : ℕ → Bool)

theorem delivered_cons (n : ℕ) (id : String) (ids : List String) :
    delivered fails n (id::ids) =
      if fails n then delivered fails (n+1) ids else id::delivered fails (n+1) ids := rfl

theorem delivered_subset (n : ℕ) (ids : List String) : delivered fails n ids ⊆ ids := by
  induction ids generalizing n with
  | nil => exact List.Subset.refl _
  | cons id ids ih =>
    rw [delivered_cons]
    split
    · exact List.subset_cons_of_subset id (ih (n+1))
    · exact List.cons_subset_cons id (ih (n+1))

theorem subset_delivered_iff (n : ℕ) (ids : List String) (hn : ids.Nodup) :
    ids ⊆ delivered fails n ids ↔ ∀ j < ids.length,fails (n+j)=false := by
  induction ids generalizing n with
  | nil => simp
  | cons id ids ih =>
    obtain ⟨hnot,hids⟩:=List.nodup_cons.1 hn
    have hshift : (∀ j < ids.length,fails (n+(j+1))=false) ↔
        ∀ j < ids.length,fails (n+1+j)=false :=
      forall₂_congr fun j _ => by rw [Nat.add_right_comm n 1 j]; rfl
    rw [List.length_cons,Nat.forall_lt_succ_left,hshift,← ih (n+1) hids,delivered_cons,
      Nat.add_zero]
    cases hf : fails n with
    | true =>
      have hlost : ¬ id::ids ⊆ delivered fails (n+1) ids := fun h =>
        hnot (delivered_subset fails (n+1) ids (h List.mem_cons_self))
      simp [hlost]
    | false =>
      simp only [Bool.false_eq_true,if_false,true_and]
      constructor
      · intro h x hx
        have hne : x≠id := fun heq => hnot (heq ▸ hx)
        exact (List.mem_cons.1 (h (List.mem_cons_of_mem _ hx))).resolve_left hne
      · exact fun h => List.cons_subset_cons id h

/-! ## What a dispatch has done so far -/

/-- From `w` to `w'`, exactly the pairings in `moved`, all active and on licenses
of the subscription, were revoked, and one publish was tried for each in turn. -/
structure Cut (subID : String) (w w' : World) (moved : List String) : Prop where
  licenses : ∀ id, LicenseOf w'.store id subID ↔ LicenseOf w.store id subID
  nodup : moved.Nodup
  revoked : ∀ id ∈ moved, ∃ p, w.store.pairings.get id = some p ∧ p.status=.active ∧
    LicenseOf w.store p.licenseID subID ∧
    w'.store.pairings.get id = some { p with status := .revoked }
  others : ∀ id, id ∉ moved → w'.store.pairings.get id = w.store.pairings.get id
  channel : w'.channel = moved.foldl attempt w.channel

variable {subID : String} {w w' w'' : World} {moved moved' : List String}

theorem Cut.trans (h : Cut subID w w' moved) (h' : Cut subID w' w'' moved') :
    Cut subID w w'' (moved++moved') := by
  have hdisjoint : ∀ id∈moved,id∉moved' := by
    intro id hid hid'
    obtain ⟨p,-,-,-,hp⟩:=h.revoked id hid
    obtain ⟨p',hp',hactive,-⟩:=h'.revoked id hid'
    rw [hp] at hp'
    cases hp'
    cases hactive
  refine ⟨fun id => (h'.licenses id).trans (h.licenses id),?_,fun id hid => ?_,fun id hid => ?_,?_⟩
  · exact List.nodup_append.2 ⟨h.nodup,h'.nodup,fun a ha b hb heq => hdisjoint a ha (heq ▸ hb)⟩
  · rcases List.mem_append.1 hid with hid | hid'
    · obtain ⟨p,hp,hactive,hof,hp'⟩:=h.revoked id hid
      exact ⟨p,hp,hactive,hof,by rw [h'.others id (hdisjoint id hid),hp']⟩
    obtain ⟨p,hp,hactive,hof,hp'⟩:=h'.revoked id hid'
    have hnot : id∉moved := fun hid => hdisjoint id hid hid'
    exact ⟨p,by rw [← h.others id hnot,hp],hactive,(h.licenses _).1 hof,hp'⟩
  · obtain ⟨hnot,hnot'⟩:=not_or.1 (mt List.mem_append.2 hid)
    rw [h'.others id hnot',h.others id hnot]
  · rw [h'.channel,h.channel,List.foldl_append]

variable {p : Pairing}

theorem Cut.still_active (h : Cut subID w w' moved) {id : String}
    (hp : w'.store.pairings.get id=some p) (hactive : p.status=.active) :
    w.store.pairings.get id=some p ∧ id∉moved := by
  have hnot : id∉moved := by
    intro hid
    obtain ⟨p',-,-,-,hp'⟩:=h.revoked id hid
    rw [hp] at hp'
    cases hp'
    cases hactive
  exact ⟨by rw [← h.others id hnot,hp],hnot⟩

def calm : Op → Bool
  | .store (.setPairingStatus _ _) | .store (.createPairing _)
  | .store (.createPairingWithinCapacity _ _) | .store (.updatePairingDevices _ _ _)
  | .store (.createLicense _) | .publishRevocation _ => false
  | _ => true

theorem cut_calm (a : Answer) (op : Op) (w : World) (hop : calm op=true) :
    Cut subID w (perform a op w).2 [] := by
  have hchannel : (Auth.perform a op w).2.channel=w.channel := by
    cases op with
    | store sop => cases hf : a.fault <;> simp [Auth.perform,hf]
    | publishRevocation ev => cases hop
    | _ => rfl
  have hstore : (Auth.perform a op w).2.store.pairings=w.store.pairings ∧
      ∀ id,LicenseOf (Auth.perform a op w).2.store id subID → LicenseOf w.store id subID := by
    rcases perform_writes a op w with hsame | ⟨sop,rfl,hw⟩
    · rw [hsame]
      exact ⟨rfl,fun _ h => h⟩
    generalize (Auth.perform a (.store sop) w).2.store=s' at hw
    cases hw with
    | license | pairing | pairingWithin | pairingStatus | pairingDevices => cases hop
    | licenseStatus id status l hold =>
      refine ⟨rfl,?_⟩
      rintro id' ⟨l',hl',hsub⟩
      rw [Table.get_put] at hl'
      split at hl'
      · next hkey =>
        cases hl'
        exact ⟨l,by rw [← hkey,Table.replaced hold rfl],hsub⟩
      · exact ⟨l',hl',hsub⟩
    | _ => exact ⟨rfl,fun _ h => h⟩
  exact ⟨fun id => ⟨hstore.2 id,LicenseOf.perform⟩,List.nodup_nil,by simp,
    fun id _ => by rw [hstore.1],hchannel⟩

def revokedIn (w : World) (p : Pairing) : World :=
  { w with
    store := { w.store with pairings := w.store.pairings.put { p with status := .revoked } } }

theorem cut_pairing (hp : w.store.pairings.get p.pairID=some p) (hactive : p.status=.active)
    (hof : LicenseOf w.store p.licenseID subID) :
    Cut subID w { revokedIn w p with channel := attempt w.channel p.pairID } [p.pairID] where
  licenses _ := Iff.rfl
  nodup := List.nodup_singleton _
  revoked id hid := by
    obtain rfl := List.mem_singleton.1 hid
    exact ⟨p,hp,hactive,hof,Table.get_put_self w.store.pairings { p with status := .revoked }⟩
  others id hid := Table.get_put_ne w.store.pairings _ fun hkey => hid (by simp [← hkey])
  channel := rfl

theorem cut_refl (w : World) : Cut subID w w [] where
  licenses _ := Iff.rfl
  nodup := List.nodup_nil
  revoked _ hid := by cases hid
  others _ _ := rfl
  channel := rfl

theorem run_calm {α : Type} {p : Handler α} (hp : Makes (fun _ op => calm op=true) [] p)
    (s : World × List Answer) : Cut subID s.1 (p.run answer s).2.1 [] := by
  obtain ⟨hcut,-⟩:=run_obeys answer (fun _ op => calm op=true)
    (fun _ s' => Cut subID s.1 s'.1 []) (fun _ op s' h hop => h.trans (cut_calm _ op s'.1 hop))
    _ p [] s hp (cut_refl s.1)
  exact hcut

theorem run_whenRevoked (op : StoreOp) (s : World × List Answer) :
    (whenRevoked .revoked op).run answer s =
      (match (answer (.store op) s).1 with
        | .ok _ => .ok ()
        | .error e => .error e,(answer (.store op) s).2) := by
  simp only [whenRevoked,if_true,run_bind,run_perform]
  cases (answer (.store op) s).1 <;> rfl

theorem perform_setPairingStatus (a : Answer) (hp : w.store.pairings.get p.pairID=some p) :
    (∃ e,perform a (.store (.setPairingStatus p.pairID .revoked)) w=(.error e,w)) ∨
      perform a (.store (.setPairingStatus p.pairID .revoked)) w=(.ok (),revokedIn w p) := by
  cases hf : a.fault with
  | true => exact .inl ⟨.fault,by simp [Auth.perform,hf]⟩
  | false =>
    refine .inr ?_
    simp [Auth.perform,hf,Store.exec,Store.setPairingStatus,Store.modifyPairing,hp,revokedIn]

def Pending (subID : String) (s : Store) (pairs : List Pairing) : Prop :=
  (pairs.map Pairing.pairID).Nodup ∧ ∀ p ∈ pairs, s.pairings.get p.pairID = some p ∧
    p.status = .active ∧ LicenseOf s p.licenseID subID

theorem Pending.tail {pairs : List Pairing} (h : Pending subID w.store (p::pairs))
    (hcut : Cut subID w w' [p.pairID]) : Pending subID w'.store pairs := by
  obtain ⟨hnot,hnodup⟩:=List.nodup_cons.1 h.1
  refine ⟨hnodup,fun q hq => ?_⟩
  obtain ⟨hget,hactive,hof⟩:=h.2 q (List.mem_cons_of_mem _ hq)
  have hne : q.pairID ∉ [p.pairID] := fun hmem =>
    hnot (List.mem_singleton.1 hmem ▸ List.mem_map_of_mem hq)
  exact ⟨by rw [hcut.others _ hne,hget],hactive,(hcut.licenses _).2 hof⟩

theorem enforcePairings_cut (pairs : List Pairing) (s : World × List Answer)
    (h : Pending subID s.1.store pairs) :
    ∃ moved,Cut subID s.1 ((enforcePairings .revoked pairs).run answer s).2.1 moved ∧
      (((enforcePairings .revoked pairs).run answer s).1 = .ok () →
        ∀ p∈pairs,p.pairID∈moved) := by
  induction pairs generalizing s with
  | nil => exact ⟨[],cut_refl _,fun _ p hp => by cases hp⟩
  | cons p pairs ih =>
    obtain ⟨hget,hactive,hof⟩:=h.2 p List.mem_cons_self
    simp only [enforcePairings,run_bind,run_whenRevoked]
    generalize hs₁ : answer (.store (.setPairingStatus p.pairID .revoked)) s=s₁
    rcases perform_setPairingStatus (s.2.headD {}) hget with ⟨e,hset⟩ | hset
    · obtain rfl : s₁=(.error e,s.1,s.2.tail) := by rw [← hs₁,answer,hset]
      exact ⟨[],cut_refl _,fun hok => by cases hok⟩
    obtain rfl : s₁=(.ok (),revokedIn s.1 p,s.2.tail) := by rw [← hs₁,answer,hset]
    simp only [run_bind,run_perform]
    have hcut : Cut subID s.1
        (answer (.publishRevocation { pairID := p.pairID }) (revokedIn s.1 p,s.2.tail)).2.1
        [p.pairID] := cut_pairing hget hactive hof
    generalize answer (.publishRevocation { pairID := p.pairID })
      (revokedIn s.1 p,s.2.tail)=s₂ at hcut ⊢
    obtain ⟨e | u,s₂⟩:=s₂
    · exact ⟨[p.pairID],hcut,fun hok => by cases hok⟩
    obtain ⟨moved,hrest,hall⟩:=ih s₂ (h.tail hcut)
    refine ⟨[p.pairID]++moved,hcut.trans hrest,fun hok q hq => ?_⟩
    rcases List.mem_cons.1 hq with rfl | hq
    · exact List.mem_append_left _ List.mem_cons_self
    · exact List.mem_append_right _ (hall hok q hq)

def Quit (s : Store) (licenseID : String) : Prop :=
  ∀ id p, s.pairings.get id = some p → p.licenseID=licenseID → p.status≠.active

variable {licenseID : String}

theorem Cut.quit (h : Cut subID w w' moved) (hq : Quit w.store licenseID) :
    Quit w'.store licenseID := by
  intro id p hp hlic hactive
  exact hq id p (h.still_active hp hactive).1 hlic hactive

theorem pending_listed (s : Store) (hof : LicenseOf s licenseID subID) :
    Pending subID s (s.pairings.list (Store.activeOn licenseID)) := by
  refine ⟨Table.keys_list_nodup _ _,fun p hp => ?_⟩
  obtain ⟨hget,hon⟩:=Table.mem_list.1 hp
  simp only [Store.activeOn,Bool.and_eq_true,beq_iff_eq] at hon
  exact ⟨hget,hon.2,hon.1 ▸ hof⟩

theorem enforceLicense_cut {pairs : List Pairing} (s : World × List Answer)
    (hof : LicenseOf s.1.store licenseID subID)
    (hpairs : pairs=s.1.store.pairings.list (Store.activeOn licenseID)) :
    ∃ moved,Cut subID s.1 ((enforcePairings .revoked pairs).run answer s).2.1 moved ∧
      (((enforcePairings .revoked pairs).run answer s).1 = .ok () →
        Quit ((enforcePairings .revoked pairs).run answer s).2.1.store licenseID) := by
  subst hpairs
  obtain ⟨moved,hcut,hall⟩:=enforcePairings_cut _ s (pending_listed s.1.store hof)
  refine ⟨moved,hcut,fun hok id p hp hlic hactive => ?_⟩
  obtain ⟨hget,hnot⟩:=hcut.still_active hp hactive
  have hlisted : p∈s.1.store.pairings.list (Store.activeOn licenseID) :=
    Table.mem_list_of_get hget (by simp [Store.activeOn,hlic,hactive])
  exact hnot (Table.key_of_get hget ▸ hall hok p hlisted)

theorem enforceLicenses_cut (licenses : List License) (s : World × List Answer)
    (h : ∀ l∈licenses,LicenseOf s.1.store l.id subID) :
    ∃ moved,Cut subID s.1 ((enforceLicenses .revoked licenses).run answer s).2.1 moved ∧
      (((enforceLicenses .revoked licenses).run answer s).1 = .ok () →
        ∀ l∈licenses,Quit ((enforceLicenses .revoked licenses).run answer s).2.1.store l.id) := by
  induction licenses generalizing s with
  | nil => exact ⟨[],cut_refl _,fun _ l hl => by cases hl⟩
  | cons l licenses ih =>
    simp only [enforceLicenses,run_bind,run_whenRevoked]
    have hcut₁ : Cut subID s.1 (answer (.store (.setLicenseStatus l.id .revoked)) s).2.1 [] :=
      cut_calm _ _ _ rfl
    generalize answer (.store (.setLicenseStatus l.id .revoked)) s=s₁ at hcut₁ ⊢
    obtain ⟨e | u,s₁⟩:=s₁
    · exact ⟨[],hcut₁,fun hok => by cases hok⟩
    simp only [run_bind,run_perform]
    have hcut₂ : Cut subID s₁.1 (answer (.store (.listActivePairingsByLicense l.id)) s₁).2.1 [] :=
      cut_calm _ _ _ rfl
    have hlist (pairs : List Pairing)
        (hr : (answer (.store (.listActivePairingsByLicense l.id)) s₁).1 = .ok pairs) :
        pairs=(answer (.store (.listActivePairingsByLicense l.id)) s₁).2.1.store.pairings.list
          (Store.activeOn l.id) := by
      obtain ⟨hexec,hstore⟩:=perform_ok hr
      cases hexec
      exact congrArg (fun s : Store => s.pairings.list (Store.activeOn l.id)) hstore.symm
    generalize answer (.store (.listActivePairingsByLicense l.id)) s₁=s₂ at hcut₂ hlist ⊢
    have hcut₁₂:=hcut₁.trans hcut₂
    obtain ⟨e | pairs,s₂⟩:=s₂
    · exact ⟨[],hcut₁₂,fun hok => by cases hok⟩
    have hof (l' : License) (hl' : l'∈l::licenses) : LicenseOf s₂.1.store l'.id subID :=
      (hcut₁₂.licenses _).2 (h l' hl')
    simp only [run_bind]
    obtain ⟨moved,hcut₃,hquit⟩:=enforceLicense_cut s₂ (hof l List.mem_cons_self)
      (hlist pairs rfl)
    generalize (enforcePairings .revoked pairs).run answer s₂=s₃ at hcut₃ hquit ⊢
    obtain ⟨e | u,s₃⟩:=s₃
    · exact ⟨[]++moved,hcut₁₂.trans hcut₃,fun hok => by cases hok⟩
    obtain ⟨moved',hrest,hall⟩:=ih s₃ fun l' hl' =>
      (hcut₃.licenses _).2 (hof l' (List.mem_cons_of_mem _ hl'))
    refine ⟨[]++moved++moved',(hcut₁₂.trans hcut₃).trans hrest,fun hok l' hl' => ?_⟩
    rcases List.mem_cons.1 hl' with rfl | hl'
    · exact hrest.quit (hquit rfl)
    · exact hall hok l' hl'

def AllQuit (subID : String) (s : Store) : Prop := ∀ id, LicenseOf s id subID → Quit s id

theorem enforce_cut (s : World × List Answer) :
    ∃ moved,Cut subID s.1 ((enforce subID .revoked).run answer s).2.1 moved ∧
      (((enforce subID .revoked).run answer s).1 = .ok () →
        AllQuit subID ((enforce subID .revoked).run answer s).2.1.store) := by
  simp only [enforce,run_bind,run_perform]
  have hcut₁ : Cut subID s.1 (answer (.store (.listLicensesBySubscription subID)) s).2.1 [] :=
    cut_calm _ _ _ rfl
  have hlist (ls : List License)
      (hr : (answer (.store (.listLicensesBySubscription subID)) s).1 = .ok ls) (l : License) :
      l∈ls ↔ s.1.store.licenses.get l.id=some l ∧ l.subscriptionID=subID := by
    obtain ⟨hexec,-⟩:=perform_ok hr
    cases hexec
    exact Table.mem_list.trans (and_congr_right fun _ => beq_iff_eq)
  generalize answer (.store (.listLicensesBySubscription subID)) s=s₁ at hcut₁ hlist ⊢
  obtain ⟨e | ls,s₁⟩:=s₁
  · exact ⟨[],hcut₁,fun hok => by cases hok⟩
  obtain ⟨moved,hcut₂,hquit⟩:=enforceLicenses_cut ls s₁ fun l hl =>
    (hcut₁.licenses _).2 ⟨l,(hlist ls rfl l).1 hl⟩
  refine ⟨[]++moved,hcut₁.trans hcut₂,fun hok id hof => ?_⟩
  obtain ⟨l,hget,hsub⟩:=((hcut₁.trans hcut₂).licenses id).1 hof
  have hkey : l.id=id := Table.key_of_get hget
  exact hkey ▸ hquit hok l ((hlist ls rfl l).2 ⟨hkey ▸ hget,hsub⟩)

theorem handleSubscriptionDeleted_cut (sub : Stripe.Subscription) (s : World × List Answer) :
    ∃ moved,Cut sub.id s.1 ((handleSubscriptionDeleted (some sub)).run answer s).2.1 moved ∧
      (((handleSubscriptionDeleted (some sub)).run answer s).1 = .ok () →
        AllQuit sub.id ((handleSubscriptionDeleted (some sub)).run answer s).2.1.store) := by
  simp only [handleSubscriptionDeleted,run_bind]
  have hcut₁ : Cut sub.id s.1 ((resolveAccount (Stripe.customerIDOf sub.customer)).run answer s).2.1
      [] := by
    refine run_calm (resolveAccount_obeys _ ?_ ?_ ?_ ?_) s <;> intros <;> rfl
  generalize (resolveAccount (Stripe.customerIDOf sub.customer)).run answer s=s₁ at hcut₁ ⊢
  obtain ⟨e | accountID,s₁⟩:=s₁
  · exact ⟨[],hcut₁,fun hok => by cases hok⟩
  simp only [run_bind,run_perform]
  have hcut₂ : Cut sub.id s₁.1 (answer .now s₁).2.1 [] := cut_calm _ _ _ rfl
  have hcut₃ (m : Subscription) : Cut sub.id (answer .now s₁).2.1
      (answer (.store (.upsertSubscription m)) (answer .now s₁).2).2.1 [] := cut_calm _ _ _ rfl
  generalize hs₃ : answer (.store (.upsertSubscription _)) (answer .now s₁).2=s₃
  have hcut : Cut sub.id s.1 s₃.2.1 [] := (hcut₁.trans hcut₂).trans (hs₃ ▸ hcut₃ _)
  obtain ⟨e | u,s₃⟩:=s₃
  · exact ⟨[],hcut,fun hok => by cases hok⟩
  obtain ⟨moved,hcut₄,hquit⟩:=@enforce_cut sub.id s₃
  exact ⟨[]++moved,hcut.trans hcut₄,hquit⟩

theorem deliver_deleted_cut (p : Processor) (ev : Stripe.Event) (sub : Stripe.Subscription)
    (hev : ev.data = .customerSubscriptionDeleted (some sub)) (w : World) (as : List Answer) :
    ∃ moved,Cut sub.id w (deliver p w (ev,as)) moved ∧
      ((serve (dispatch p ev) as w).1 = .ok () → AllQuit sub.id (deliver p w (ev,as)).store) := by
  have hdispatch : dispatch p ev=handleSubscriptionDeleted (some sub) := by simp only [dispatch,hev]
  simp only [deliver,serve,hdispatch]
  exact handleSubscriptionDeleted_cut sub (w,as)

theorem rounds_cut (p : Processor) (ev : Stripe.Event) (sub : Stripe.Subscription)
    (hev : ev.data = .customerSubscriptionDeleted (some sub)) (w : World)
    (rounds : List (List Answer)) :
    ∃ moved,Cut sub.id w (Machine.run (deliver p) w (rounds.map fun as => (ev,as))) moved := by
  induction rounds generalizing w with
  | nil => exact ⟨[],cut_refl w⟩
  | cons as rounds ih =>
    obtain ⟨moved,hcut,-⟩:=deliver_deleted_cut p ev sub hev w as
    obtain ⟨moved',hcut'⟩:=ih (deliver p w (ev,as))
    exact ⟨moved++moved',hcut.trans hcut'⟩

/-- The active pairings on licenses of the subscription. -/
def livePairings (s : Store) (subID : String) : List Pairing :=
  s.pairings.list fun p =>
    p.status == .active && (s.licenses.get p.licenseID).any fun l => l.subscriptionID == subID

/-- Every pairing that went from active in `w` to revoked in `w'` had a revocation
published in between. -/
def NoneLost (w w' : World) : Prop :=
  ∀ id p p', w.store.pairings.get id = some p → p.status=.active →
    w'.store.pairings.get id = some p' → p'.status=.revoked →
    { pairID := id } ∈ w'.channel.published.drop w.channel.published.length

theorem mem_livePairings {s : Store} :
    p∈livePairings s subID ↔
      s.pairings.get p.pairID=some p ∧ p.status=.active ∧ LicenseOf s p.licenseID subID := by
  rw [livePairings,Table.mem_list,Bool.and_eq_true,beq_iff_eq,Option.any_eq_true]
  simp only [beq_iff_eq,LicenseOf]

theorem Cut.length_moved (h : Cut subID w w' moved) (hquit : AllQuit subID w'.store) :
    moved.length=(livePairings w.store subID).length := by
  have hperm : moved.Perm ((livePairings w.store subID).map Pairing.pairID) := by
    refine (List.perm_ext_iff_of_nodup h.nodup (Table.keys_list_nodup _ _)).2 fun id => ?_
    constructor
    · intro hid
      obtain ⟨p,hp,hactive,hof,-⟩:=h.revoked id hid
      have hkey : p.pairID=id := Table.key_of_get hp
      exact List.mem_map.2 ⟨p,mem_livePairings.2 ⟨hkey.symm ▸ hp,hactive,hof⟩,hkey⟩
    intro hid
    obtain ⟨p,hp,rfl⟩:=List.mem_map.1 hid
    obtain ⟨hget,hactive,hof⟩:=mem_livePairings.1 hp
    by_contra hnot
    refine hquit p.licenseID ((h.licenses _).2 hof) p.pairID p ?_ rfl hactive
    rw [h.others _ hnot,hget]
  simpa using hperm.length_eq

theorem Cut.noneLost_iff (h : Cut subID w w' moved) :
    NoneLost w w' ↔ moved ⊆ delivered w.channel.fails w.channel.calls moved := by
  have hpublished : w'.channel.published.drop w.channel.published.length =
      (delivered w.channel.fails w.channel.calls moved).map fun id => { pairID := id } := by
    rw [h.channel,(attempt_foldl moved w.channel).2,List.drop_left]
  have hmem (id : String) : ({ pairID := id } : RevocationEvent) ∈
      w'.channel.published.drop w.channel.published.length ↔
        id∈delivered w.channel.fails w.channel.calls moved := by
    rw [hpublished]
    simp
  constructor
  · intro hnone id hid
    obtain ⟨p,hp,hactive,-,hp'⟩:=h.revoked id hid
    exact (hmem id).1 (hnone id p _ hp hactive hp' rfl)
  intro hsub id p p' hp hactive hp' hrevoked
  refine (hmem id).2 (hsub ?_)
  by_contra hnot
  rw [h.others id hnot,hp] at hp'
  cases hp'
  simp [hactive] at hrevoked

/-- The deletion is dispatched until a dispatch succeeds: no revocation is lost
exactly if none of the first publishes fails, one for each pairing that was
active on a license of the subscription. -/
theorem revocations_published_iff (p : Processor) (ev : Stripe.Event) (sub : Stripe.Subscription)
    (hev : ev.data = .customerSubscriptionDeleted (some sub)) (w : World)
    (rounds : List (List Answer)) (last : List Answer)
    (hok : (serve (dispatch p ev) last
      (Machine.run (deliver p) w (rounds.map fun as => (ev,as)))).1 = .ok ()) :
    NoneLost w (deliver p (Machine.run (deliver p) w (rounds.map fun as => (ev,as))) (ev,last)) ↔
      ∀ j < (livePairings w.store sub.id).length, w.channel.fails (w.channel.calls + j) = false := by
  obtain ⟨moved,hcut⟩ := rounds_cut p ev sub hev w rounds
  obtain ⟨moved',hcut',hquit⟩ := deliver_deleted_cut p ev sub hev
    (Machine.run (deliver p) w (rounds.map fun as => (ev,as))) last
  have hall := hcut.trans hcut'
  rw [hall.noneLost_iff,subset_delivered_iff _ _ _ hall.nodup,hall.length_moved (hquit hok)]

def pairedOn (fails : ℕ → Bool) : World :=
  Machine.run (next sampleService) { channel := { fails := fails } } pairingRun

def deletedTwice (w : World) : World :=
  deliver sampleService.proc
    (Machine.run (deliver sampleService.proc) w [(sampleDeletion,drawing "x")])
    (sampleDeletion,drawing "y")

theorem revocations_published_iff_working_channel :
    NoneLost (pairedOn fun _ => false) (deletedTwice (pairedOn fun _ => false)) :=
  (revocations_published_iff sampleService.proc sampleDeletion sampleSubscription rfl
    (pairedOn fun _ => false) [drawing "x"] (drawing "y") (by decide +kernel)).2
    (by decide +kernel)

/- The first publish fails: the second dispatch succeeds without trying it again. -/
theorem failed_publish_is_lost :
    (serve (dispatch sampleService.proc sampleDeletion) (drawing "y")
        (Machine.run (deliver sampleService.proc) (pairedOn (· == 0))
          [(sampleDeletion,drawing "x")])).1 = .ok () ∧
      ¬ NoneLost (pairedOn (· == 0)) (deletedTwice (pairedOn (· == 0))) := by
  refine ⟨by decide +kernel,fun h => ?_⟩
  have hbefore : ((pairedOn (· == 0)).store.pairings.get "pair_m").map Pairing.status =
      some .active := by decide +kernel
  have hafter : ((deletedTwice (pairedOn (· == 0))).store.pairings.get "pair_m").map
      Pairing.status = some .revoked := by decide +kernel
  have hnone : (deletedTwice (pairedOn (· == 0))).channel.published = [] := by decide +kernel
  obtain ⟨p,hp,hactive⟩ := Option.map_eq_some_iff.1 hbefore
  obtain ⟨p',hp',hrevoked⟩ := Option.map_eq_some_iff.1 hafter
  have hmem := h "pair_m" p p' hp hactive hp' hrevoked
  simp [hnone] at hmem

end SecureGateway.Billing
