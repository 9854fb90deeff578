import SecureGateway.Auth.Interleaving
import SecureGateway.Auth.Finality

/-!
# A cancellation among pairing requests

`handleSubscriptionDeleted` revokes license after license, call by call. A completion that
has read the license before inserts its pairing whenever it gets there
(`late_completion_survives`). No pairing is left if no insertion comes after its license was
revoked.
-/

namespace SecureGateway.Billing
open Authstore Auth Prog

inductive Task
  | cancel
  | request (r : Request)

def Task.prog (srv : Service) (sub : Stripe.Subscription) : Task → Handler Unit
  | .cancel => ignore (handleSubscriptionDeleted (some sub))
  | .request r => handle srv r

abbrev CutoffAct := Pool.Act Task Answer

def cutoff (srv : Service) (sub : Stripe.Subscription) (w : World) (xs : List CutoffAct) :
    Requests :=
  Machine.run (Pool.act perform (Task.prog srv sub)) (Pool.start w) xs

def besides : Request → Bool
  | .createPairingToken _ _ | .completePairing _ | .unpair _ _ | .issueToken _ _
  | .refreshToken _ => true
  | _ => false

def unhindered : CutoffAct → Bool
  | .start .cancel => true
  | .start (.request r) => besides r
  | .call _ a => !a.fault
  | .crash _ => false

def Barred (subID : String) (s : Store) (id : String) : Prop :=
  ∃ l, s.licenses.get id = some l ∧ l.subscriptionID=subID ∧ l.status=.revoked

def barred (subID : String) (s : Store) (id : String) : Bool :=
  (s.licenses.get id).any fun l => l.subscriptionID == subID && l.status == .revoked

variable {id : String}

theorem barred_iff {subID : String} {s : Store} : barred subID s id=true ↔ Barred subID s id := by
  unfold barred Barred
  cases s.licenses.get id <;> simp

/-- No pairing is inserted under a license of the subscription that is revoked. -/
def timely (subID : String) (st : Requests) : CutoffAct → Bool
  | .call i _ =>
    match Pool.upNext st i with
    | some (.store (.createPairingWithinCapacity p _)) => !barred subID st.world.store p.licenseID
    | _ => true
  | _ => true

def Known (log : List Auth.Event) (id : String) : Prop :=
  (∃ k p, Saw log (.getPairing k) (.ok p) ∧ p.pairID=id) ∨
    ∃ k ps p, Saw log (.listActivePairingsByLicense k) (.ok ps) ∧ p ∈ ps ∧ p.pairID=id

def Mirrored (log : List Auth.Event) : Prop := ∃ m, Saw log (.upsertSubscription m) (.ok ())

/-- What a task has done before a call. Only the handling writes the mirror; it does so
before it lists any pairings, and lists those of a license after it has revoked it. -/
def Withdraws (subID : String) (log : List Auth.Event) : Op → Prop
  | .store (.createLicense _) | .store (.createPairing _) => False
  | .store (.setLicenseStatus id status) =>
    status = .revoked ∧
      ∃ ls l, Saw log (.listLicensesBySubscription subID) (.ok ls) ∧ l ∈ ls ∧ l.id=id
  | .store (.setPairingStatus id status) => status = .revoked ∧ Known log id
  | .store (.upsertSubscription _) =>
    ∀ id ps, ¬ Saw log (.listActivePairingsByLicense id) (.ok ps)
  | .store (.listActivePairingsByLicense id) =>
    ¬ Mirrored log ∨ Saw log (.setLicenseStatus id .revoked) (.ok ())
  | _ => True

def Published (log : List Auth.Event) : Prop :=
  ∀ id, Saw log (.setPairingStatus id .revoked) (.ok ()) →
    ∃ r, (⟨.publishRevocation { pairID := id },r⟩ : Auth.Event) ∈ log

variable {subID : String} {log : List Auth.Event}

theorem Published.cons {e : Auth.Event} (h : Published log)
    (he : ∀ id,e≠⟨.store (.setPairingStatus id .revoked),.ok ()⟩) : Published (e::log) := by
  intro id hsaw
  rcases List.mem_cons.1 hsaw with heq | hold
  · exact absurd heq.symm (he id)
  · obtain ⟨r,hr⟩:=h id hold
    exact ⟨r,List.mem_cons_of_mem e hr⟩

theorem published_nil : Published [] := by
  intro id hsaw
  cases hsaw

variable {op : Op}

theorem Published.bland (h : Published log) (hop : bland op=true) (r : op.Rep) :
    Published (⟨op,r⟩::log) := by
  apply h.cons
  intro id heq
  obtain ⟨rfl,-⟩:=Sigma.mk.inj heq
  cases hop

theorem unmirrored_cons {e : Auth.Event} (h : ¬ Mirrored log)
    (he : ∀ m,e≠⟨.store (.upsertSubscription m),.ok ()⟩) : ¬ Mirrored (e::log) := by
  rintro ⟨m,hsaw⟩
  rcases List.mem_cons.1 hsaw with heq | hold
  · exact he m heq.symm
  · exact h ⟨m,hold⟩

theorem withdraws_of_bland (hop : bland op=true) (h : ¬ Mirrored log) : Withdraws subID log op := by
  cases op with
  | store sop =>
    cases sop with
    | listActivePairingsByLicense id => exact Or.inl h
    | createLicense | createPairing | setLicenseStatus | setPairingStatus | upsertSubscription =>
      cases hop
    | _ => trivial
  | _ => trivial

theorem obeys_bland {α : Type} {p : Handler α} (h : Makes Bland log p)
    (hp : Published log) (hm : ¬ Mirrored log) :
    Obeys (Withdraws subID) (fun _ l => Published l ∧ ¬ Mirrored l) log p := by
  have hkeep : ∀ l op (r : Op.Rep op), Published l ∧ ¬ Mirrored l → bland op=true →
      Published (⟨op,r⟩::l) ∧ ¬ Mirrored (⟨op,r⟩::l) := by
    rintro l op r ⟨hl,hlm⟩ hop
    refine ⟨hl.bland hop r,unmirrored_cons hlm ?_⟩
    intro m heq
    obtain ⟨rfl,-⟩:=Sigma.mk.inj heq
    cases hop
  refine obeys_weaken (obeys_mono (obeys_guard hkeep h ⟨hp,hm⟩) fun _ _ hl => hl.2) ?_
  intro l op _ hop
  exact withdraws_of_bland hop.1 hop.2.2

section Requests
variable {srv : Service}

theorem handleUnpair_withdraws (hbp : srv.backplane=true) (authorization : String)
    (req : Option String) :
    Obeys (Withdraws subID) (fun _ l => Published l) [] (handleUnpair srv authorization req) := by
  have hauth : Obeys (Withdraws subID) (fun _ l => Published l ∧ ¬ Mirrored l) []
      (authenticateAccountOrPair srv authorization) :=
    obeys_bland (obeys_weaken (authenticateAccountOrPair_checks authorization) fun _ _ _ hop =>
      bland_of_free (free_of_checks hop)) published_nil (by rintro ⟨m,hm⟩; cases hm)
  refine obeys_seq hauth fun r l hl _ => ?_
  rcases r with _ | ⟨accountID,cred⟩
  · exact obeys_pure hl.1
  refine obeys_ite (fun _ => obeys_pure hl.1) fun _ => ?_
  refine obeys_ite (fun _ => obeys_pure hl.1) fun _ => obeys_step trivial fun r => ?_
  have hread:=hl.1.bland rfl r
  rcases r with e | p
  · exact obeys_pure hread
  refine obeys_ite (fun _ => obeys_pure hread) fun _ => ?_
  refine obeys_step ⟨rfl,.inl ⟨_,p,saw_head _ _ _,rfl⟩⟩ fun r => ?_
  rcases r with e | u
  · exact obeys_pure (hread.cons fun id heq => by cases heq)
  refine obeys_step trivial fun t => obeys_step trivial fun r => ?_
  unfold publishRevocation
  simp only [hbp,if_true]
  refine obeys_step trivial fun r' => obeys_pure ?_
  intro id hsaw
  simp only [Saw,List.mem_cons] at hsaw
  rcases hsaw with heq | heq | heq | heq | hsaw
  · cases heq
  · cases heq
  · cases heq
  · cases heq
    exact ⟨r',List.mem_cons_self⟩
  · obtain ⟨r'',hr''⟩:=hread id (List.mem_cons.2 hsaw)
    exact ⟨r'',by simp [hr'']⟩

end Requests

/- The call failed, where its caller gives up on that. -/
def failing : Auth.Event → Bool
  | ⟨.store (.upsertAccount _),.error _⟩ | ⟨.store (.upsertSubscription _),.error _⟩
  | ⟨.store (.listLicensesBySubscription _),.error _⟩
  | ⟨.store (.setLicenseStatus _ _),.error _⟩
  | ⟨.store (.listActivePairingsByLicense _),.error _⟩
  | ⟨.store (.setPairingStatus _ _),.error _⟩ | ⟨.publishRevocation _,.error _⟩ => true
  | _ => false

def Failed (log : List Auth.Event) : Prop := ∃ e ∈ log, failing e = true

def Closed (log : List Auth.Event) (licenseID : String) : Prop :=
  ∃ ps, Saw log (.listActivePairingsByLicense licenseID) (.ok ps) ∧
    ∀ p ∈ ps, Saw log (.setPairingStatus p.pairID .revoked) (.ok ())

theorem Closed.mono {l : List Auth.Event} {licenseID : String} (h : Closed log licenseID)
    (hl : log <:+ l) : Closed l licenseID := by
  obtain ⟨ps,hps,hall⟩:=h
  exact ⟨ps,hps.mono hl,fun p hp => (hall p hp).mono hl⟩

def Enforced (subID : String) (log : List Auth.Event) : Prop :=
  Mirrored log ∧ ∃ ls, Saw log (.listLicensesBySubscription subID) (.ok ls) ∧
    ∀ l ∈ ls, Closed log l.id

theorem Enforced.mono {l : List Auth.Event} (h : Enforced subID log) (hl : log <:+ l) :
    Enforced subID l := by
  obtain ⟨⟨m,hm⟩,ls,hls,hclosed⟩:=h
  exact ⟨⟨m,hm.mono hl⟩,ls,hls.mono hl,fun l' hl' => (hclosed l' hl').mono hl⟩

/- What a part of `enforce` leaves: everything published, and its work done unless a
call failed. -/
def Withdrew {α : Type} (done : List Auth.Event → Prop) (res : Except Err α)
    (log : List Auth.Event) : Prop :=
  Published log ∧
    match res with
    | .ok _ => done log
    | .error _ => Failed log

theorem withdrew_failed {α : Type} {done : List Auth.Event → Prop} {e : Err} {x : Auth.Event}
    (hp : Published (x::log)) (hx : failing x=true) :
    Withdrew done (.error e : Except Err α) (x::log) :=
  ⟨hp,x,List.mem_cons_self,hx⟩

theorem enforcePairings_withdraws (pairs : List Pairing) (hp : Published log)
    (hknown : ∀ p∈pairs,Known log p.pairID) :
    Obeys (Withdraws subID)
      (Withdrew fun l => ∀ p∈pairs,Saw l (.setPairingStatus p.pairID .revoked) (.ok ())) log
      (enforcePairings .revoked pairs) := by
  induction pairs generalizing log with
  | nil => exact obeys_pure ⟨hp,by simp⟩
  | cons pr pairs ih =>
    refine obeys_step ⟨rfl,hknown pr List.mem_cons_self⟩ fun r => ?_
    rcases r with e | u
    · exact obeys_pure (withdrew_failed (hp.cons fun id heq => by cases heq) rfl)
    refine obeys_step trivial fun r => ?_
    have hpub : Published (⟨.publishRevocation { pairID := pr.pairID },r⟩ ::
        ⟨.store (.setPairingStatus pr.pairID .revoked),.ok u⟩::log) := by
      intro id hsaw
      rcases List.mem_cons.1 hsaw with heq | hsaw
      · cases heq
      rcases List.mem_cons.1 hsaw with heq | hsaw
      · cases heq
        exact ⟨r,List.mem_cons_self⟩
      · obtain ⟨r',hr'⟩:=hp id hsaw
        exact ⟨r',by simp [hr']⟩
    rcases r with e | u'
    · exact obeys_pure (withdrew_failed hpub rfl)
    have hmono : ∀ p∈pairs,Known (⟨.publishRevocation { pairID := pr.pairID },.ok u'⟩ ::
        ⟨.store (.setPairingStatus pr.pairID .revoked),.ok u⟩::log) p.pairID := by
      intro p hmem
      rcases hknown p (List.mem_cons_of_mem pr hmem) with ⟨k,q,hq,hid⟩ | ⟨k,ps,q,hps,hq⟩
      · exact .inl ⟨k,q,hq.tail.tail,hid⟩
      · exact .inr ⟨k,ps,q,hps.tail.tail,hq⟩
    refine obeys_mono (obeys_grows (ih hpub hmono)) ?_
    rintro (e | u'') l ⟨⟨hpl,hres⟩,hl⟩
    · exact ⟨hpl,hres⟩
    refine ⟨hpl,fun p hmem => ?_⟩
    rcases List.mem_cons.1 hmem with rfl | hmem
    · exact Saw.mono (Saw.tail (saw_head _ _ _)) hl
    · exact hres p hmem

theorem enforceLicenses_withdraws {ls : List License} (licenses : List License) (hp : Published log)
    (hls : Saw log (.listLicensesBySubscription subID) (.ok ls)) (hmem : ∀ l∈licenses,l∈ls) :
    Obeys (Withdraws subID) (Withdrew fun log' => ∀ l∈licenses,Closed log' l.id) log
      (enforceLicenses .revoked licenses) := by
  induction licenses generalizing log with
  | nil => exact obeys_pure ⟨hp,by simp⟩
  | cons lic licenses ih =>
    refine obeys_step ⟨rfl,ls,lic,hls,hmem lic List.mem_cons_self,rfl⟩ fun r => ?_
    have hset:=hp.cons (e := ⟨.store (.setLicenseStatus lic.id .revoked),r⟩)
      fun id heq => by cases heq
    rcases r with e | u
    · exact obeys_pure (withdrew_failed hset rfl)
    refine obeys_step (.inr (saw_head _ _ _)) fun r => ?_
    have hlist : Published (⟨.store (.listActivePairingsByLicense lic.id),r⟩ ::
        ⟨.store (.setLicenseStatus lic.id .revoked),.ok u⟩::log) := hset.bland rfl r
    rcases r with e | ps
    · exact obeys_pure (withdrew_failed hlist rfl)
    have hknown : ∀ p∈ps,Known (⟨.store (.listActivePairingsByLicense lic.id),.ok ps⟩ ::
        ⟨.store (.setLicenseStatus lic.id .revoked),.ok u⟩::log) p.pairID :=
      fun p hpmem => .inr ⟨lic.id,ps,p,saw_head _ _ _,hpmem,rfl⟩
    refine obeys_seq (enforcePairings_withdraws ps hlist hknown) fun res l hres hl => ?_
    obtain ⟨hpl,hres⟩:=hres
    rcases res with e | u'
    · exact obeys_pure ⟨hpl,hres⟩
    have hclosed : Closed l lic.id := ⟨ps,Saw.mono (saw_head _ _ _) hl,hres⟩
    refine obeys_mono (obeys_grows (ih hpl (hls.tail.tail.mono hl)
      fun l' hl' => hmem l' (List.mem_cons_of_mem lic hl'))) ?_
    rintro (e | u'') l' ⟨⟨hpl',hrest⟩,hl'⟩
    · exact ⟨hpl',hrest⟩
    refine ⟨hpl',fun l'' hl'' => ?_⟩
    rcases List.mem_cons.1 hl'' with rfl | hl''
    · exact hclosed.mono hl'
    · exact hrest l'' hl''

def early : Op → Bool
  | .store (.listActivePairingsByLicense _) => false
  | op => bland op

structure Early (log : List Auth.Event) : Prop where
  published : Published log
  unlisted : ∀ id ps, ¬ Saw log (.listActivePairingsByLicense id) (.ok ps)

theorem early_nil : Early [] := ⟨published_nil,fun id ps hsaw => by cases hsaw⟩

theorem Early.cons (h : Early log) (hop : early op=true) (r : op.Rep) : Early (⟨op,r⟩::log) := by
  constructor
  · apply h.published.cons
    intro id heq
    obtain ⟨rfl,-⟩:=Sigma.mk.inj heq
    cases hop
  · intro id ps hsaw
    rcases List.mem_cons.1 hsaw with heq | hold
    · obtain ⟨rfl,-⟩:=Sigma.mk.inj heq
      cases hop
    · exact h.unlisted id ps hold

theorem resolveAccount_withdraws (customerID : String) (hcust : customerID ≠ "") (h : Early log) :
    Obeys (Withdraws subID) (Withdrew Early) log (resolveAccount customerID) := by
  unfold resolveAccount
  rw [if_neg hcust]
  refine obeys_step trivial fun r => ?_
  have h₁ : Early (⟨.store (.getAccountByCustomer customerID),r⟩::log) := h.cons rfl r
  rcases r with e | acct
  · refine obeys_step trivial fun id => obeys_step trivial fun t => obeys_step trivial fun r => ?_
    have h₂ : Early (⟨.store (.upsertAccount
        { id, stripeCustomerID := customerID, createdAt := t }),r⟩::⟨.now,t⟩ ::
        ⟨.newID "acct",id⟩::⟨.store (.getAccountByCustomer customerID),.error e⟩::log) :=
      ((h₁.cons rfl _).cons rfl _).cons rfl r
    rcases r with e | u
    · exact obeys_pure (withdrew_failed h₂.published rfl)
    · exact obeys_pure ⟨h₂.published,h₂⟩
  · exact obeys_pure ⟨h₁.published,h₁⟩

theorem handleSubscriptionDeleted_withdraws (sub : Stripe.Subscription)
    (hcust : Stripe.customerIDOf sub.customer ≠ "") :
    Obeys (Withdraws sub.id) (Withdrew (Enforced sub.id)) []
      (handleSubscriptionDeleted (some sub)) := by
  refine obeys_seq (resolveAccount_withdraws _ hcust early_nil) fun res l hres _ => ?_
  obtain ⟨hp,hres⟩:=hres
  rcases res with e | accountID
  · exact obeys_pure ⟨hp,hres⟩
  have hearly : Early l := hres
  refine obeys_step trivial fun t => ?_
  have hnow : Early (⟨.now,t⟩::l) := hearly.cons rfl t
  refine obeys_step hnow.unlisted fun r => ?_
  have hmirror:=hnow.published.cons (e := ⟨.store (.upsertSubscription
    { id := sub.id, accountID, status := .canceled, maxPairs := Stripe.maxPairsFor sub,
      updatedAt := t }),r⟩) fun id heq => by cases heq
  rcases r with e | u
  · exact obeys_pure (withdrew_failed hmirror rfl)
  refine obeys_step trivial fun r => ?_
  have hlist:=hmirror.cons (e := ⟨.store (.listLicensesBySubscription sub.id),r⟩)
    fun id heq => by cases heq
  rcases r with e | ls
  · exact obeys_pure (withdrew_failed hlist rfl)
  refine obeys_mono (obeys_grows (enforceLicenses_withdraws ls hlist (saw_head _ _ _)
    fun _ hmem => hmem)) ?_
  rintro (e | u') l' ⟨⟨hpl,hres'⟩,hl⟩
  · exact ⟨hpl,hres'⟩
  · exact ⟨hpl,⟨_,Saw.mono (Saw.tail (saw_head _ _ _)) hl⟩,ls,
      Saw.mono (saw_head _ _ _) hl,hres'⟩

theorem task_withdraws {srv : Service} {sub : Stripe.Subscription} (hbp : srv.backplane=true)
    (hcust : Stripe.customerIDOf sub.customer ≠ "") (t : Task)
    (ht : unhindered (.start t)=true) :
    Obeys (Withdraws sub.id) (fun _ l => Published l) [] (t.prog srv sub) := by
  have hbland {α : Type} {p : Handler α} (h : Makes Bland [] p) :
      Obeys (Withdraws sub.id) (fun _ l => Published l) [] (ignore p) := by
    have hnew : ¬ Mirrored [] := by
      rintro ⟨m,hm⟩
      cases hm
    exact obeys_seq (obeys_bland h published_nil hnew) fun _ l hl _ => obeys_pure hl.1
  have hcalm {α : Type} {p : Handler α} (h : Makes (Calm (fun _ => True) false srv false) [] p) :
      Obeys (Withdraws sub.id) (fun _ l => Published l) [] (ignore p) :=
    hbland (obeys_weaken h fun _ _ _ hop => hop.2)
  cases t with
  | cancel =>
    exact obeys_seq (handleSubscriptionDeleted_withdraws sub hcust) fun _ l hl _ => obeys_pure hl.1
  | request r =>
    cases r with
    | createPairingToken authorization req =>
      exact hcalm (handleCreatePairingToken_calm authorization req)
    | completePairing req =>
      rcases req with _ | req
      · exact obeys_pure published_nil
      refine hbland (obeys_mono (obeys_weaken (handleCompletePairing_finishes (fun _ => True) false srv
        req) ?_) fun _ _ _ => trivial)
      exact fun _ _ _ hop => hop.1.2
    | unpair authorization pairID =>
      exact obeys_seq (handleUnpair_withdraws hbp authorization pairID) fun _ l hl _ =>
        obeys_pure hl
    | issueToken authorization req => exact hcalm (handleIssueToken_calm (by simp) authorization req)
    | refreshToken token => exact hcalm (handleRefreshToken_calm (by simp) token)
    | _ => cases ht

/-- What holds between the store, the channel and the calls of all tasks. -/
structure Withdrawn (subID : String) (w : World) (history : List (ℕ × Auth.Event)) : Prop where
  channel : ∀ n, w.channel.fails n = false
  published : ∀ i ev r, (i,(⟨.publishRevocation ev,r⟩ : Auth.Event)) ∈ history →
    ev ∈ w.channel.published
  unfailing : ∀ x ∈ history, failing x.2 = false
  listed : ∀ i ls, Saw (Pool.logOf i history) (.listLicensesBySubscription subID) (.ok ls) →
    (∀ l ∈ ls, LicenseOf w.store l.id subID) ∧
      ∀ id, LicenseOf w.store id subID → ∃ l ∈ ls, l.id=id
  known : ∀ i id, Known (Pool.logOf i history) id → ∃ p, w.store.pairings.get id = some p
  license : ∀ i id, Saw (Pool.logOf i history) (.setLicenseStatus id .revoked) (.ok ()) →
    Barred subID w.store id
  revoked : ∀ i id, Saw (Pool.logOf i history) (.setPairingStatus id .revoked) (.ok ()) →
    Revoked w.store id
  bound : ∀ i id ps, Mirrored (Pool.logOf i history) →
    Saw (Pool.logOf i history) (.listActivePairingsByLicense id) (.ok ps) →
    Barred subID w.store id ∧ ∀ k q, w.store.pairings.get k = some q → q.status=.active →
      q.licenseID = id → ∃ p ∈ ps, p.pairID=k

section Call
variable {a : Answer} {op : Op} {w : World} {history : List (ℕ × Auth.Event)} {i : ℕ}

theorem Barred.perform (h : Barred subID w.store id)
    (hok : Withdraws subID (Pool.logOf i history) op) :
    Barred subID (perform a op w).2.store id := by
  rcases perform_writes a op w with hsame | ⟨sop,rfl,hw⟩
  · exact hsame.symm ▸ h
  generalize (Auth.perform a (.store sop) w).2.store=s' at hw
  cases hw with
  | license l hnew => exact hok.elim
  | licenseStatus id' status l hold =>
    refine Table.exists_get_put h fun l₀ hl₀ hsub => ?_
    obtain rfl : l=l₀ := by simpa [Table.replaced hold rfl] using hl₀
    exact ⟨hsub.1,hok.1⟩
  | _ => exact h

theorem licenseOf_before (hok : Withdraws subID (Pool.logOf i history) op)
    (h : LicenseOf (perform a op w).2.store id subID) : LicenseOf w.store id subID := by
  rcases perform_writes a op w with hsame | ⟨sop,rfl,hw⟩
  · exact hsame ▸ h
  generalize (Auth.perform a (.store sop) w).2.store=s' at hw h
  cases hw with
  | license l hnew => exact hok.elim
  | licenseStatus id' status l hold =>
    obtain ⟨l',hl',hsub⟩:=h
    rw [Table.get_put] at hl'
    split at hl'
    · next hkey =>
      cases hl'
      exact ⟨l,by rw [← hkey,Table.replaced hold rfl],hsub⟩
    · exact ⟨l',hl',hsub⟩
  | _ => exact h

theorem pairing_kept (h : ∃ p,w.store.pairings.get id=some p) :
    ∃ p,(perform a op w).2.store.pairings.get id=some p := by
  rcases perform_writes a op w with hsame | ⟨sop,rfl,hw⟩
  · exact hsame.symm ▸ h
  generalize (Auth.perform a (.store sop) w).2.store=s' at hw
  obtain ⟨p,hp⟩:=h
  have hput (q : Pairing) : ∃ p',(w.store.pairings.put q).get id=some p' := by
    rw [Table.get_put]
    split
    · exact ⟨q,rfl⟩
    · exact ⟨p,hp⟩
  cases hw with
  | pairing | pairingWithin | pairingStatus | pairingDevices => exact hput _
  | _ => exact ⟨p,hp⟩

theorem active_before (hok : Withdraws subID (Pool.logOf i history) op)
    (hlive : ∀ p n,op = .store (.createPairingWithinCapacity p n) →
      ¬ Barred subID w.store p.licenseID) {k : String} {q : Pairing}
    (hq : (perform a op w).2.store.pairings.get k=some q) (hactive : q.status=.active)
    (hbarred : Barred subID w.store q.licenseID) :
    ∃ q₀,w.store.pairings.get k=some q₀ ∧ q₀.status=.active ∧ q₀.licenseID=q.licenseID := by
  rcases perform_writes a op w with hsame | ⟨sop,rfl,hw⟩
  · exact ⟨q,hsame ▸ hq,hactive,rfl⟩
  generalize (Auth.perform a (.store sop) w).2.store=s' at hw hq
  cases hw with
  | pairing p hnew => exact hok.elim
  | pairingWithin p n hnew hfree =>
    rw [Table.get_put] at hq
    split at hq
    · have hpq : p=q := Option.some.inj hq
      exact absurd (hpq ▸ hbarred) (hlive p n rfl)
    · exact ⟨q,hq,hactive,rfl⟩
  | pairingStatus id status p hold =>
    rw [Table.get_put] at hq
    split at hq
    · cases hq
      rw [hok.1] at hactive
      cases hactive
    · exact ⟨q,hq,hactive,rfl⟩
  | pairingDevices id mobileID desktopID p hold =>
    rw [Table.get_put] at hq
    split at hq
    · next hkey =>
      cases hq
      exact ⟨p,by rw [← hkey,Table.replaced hold rfl],hactive,rfl⟩
    · exact ⟨q,hq,hactive,rfl⟩
  | _ => exact ⟨q,hq,hactive,rfl⟩

theorem channel_perform (a : Answer) (op : Op) (w : World) (h : ∀ n,w.channel.fails n=false) :
    (perform a op w).2.channel.fails=w.channel.fails ∧
      (∀ ev∈w.channel.published,ev∈(perform a op w).2.channel.published) ∧
      ∀ ev,op = .publishRevocation ev → ev∈(perform a op w).2.channel.published := by
  cases op with
  | store sop => cases hf : a.fault <;> simp [Auth.perform,hf]
  | publishRevocation ev => simp +contextual [Auth.perform,Channel.publish,h]
  | _ => simp [Auth.perform]

theorem Withdrawn.unfailing_called (h : Withdrawn subID w history) (hfault : a.fault=false)
    (hok : Withdraws subID (Pool.logOf i history) op) : failing ⟨op,(perform a op w).1⟩=false := by
  cases op with
  | store sop =>
    cases sop with
    | setLicenseStatus id status =>
      obtain ⟨-,ls,l,hls,hmem,rfl⟩:=hok
      obtain ⟨l',hl',-⟩:=(h.listed i ls hls).1 l hmem
      simp [Auth.perform,hfault,Store.exec,Store.setLicenseStatus,hl',failing]
    | setPairingStatus id status =>
      obtain ⟨p,hp⟩:=h.known i id hok.2
      simp [Auth.perform,hfault,Store.exec,Store.setPairingStatus,Store.modifyPairing,hp,failing]
    | upsertAccount | upsertSubscription | listLicensesBySubscription
    | listActivePairingsByLicense => simp [Auth.perform,hfault,Store.exec,failing]
    | _ => rfl
  | publishRevocation ev => simp [Auth.perform,Channel.publish,h.channel,failing]
  | _ => rfl

theorem Withdrawn.listed_called (h : Withdrawn subID w history)
    (hok : Withdraws subID (Pool.logOf i history) op) (j : ℕ) (ls : List License)
    (hsaw : Saw (Pool.logOf j ((i,⟨op,(perform a op w).1⟩)::history))
      (.listLicensesBySubscription subID) (.ok ls)) :
    (∀ l∈ls,LicenseOf (perform a op w).2.store l.id subID) ∧
      ∀ id,LicenseOf (perform a op w).2.store id subID → ∃ l∈ls,l.id=id := by
  have hbefore : (∀ l∈ls,LicenseOf w.store l.id subID) ∧
      ∀ id,LicenseOf w.store id subID → ∃ l∈ls,l.id=id := by
    rcases saw_called hsaw with ⟨-,-,hexec⟩ | hold
    · cases hexec
      constructor
      · intro l hl
        obtain ⟨hget,hsub⟩:=Table.mem_list.1 hl
        exact ⟨l,hget,by simpa using hsub⟩
      · rintro id ⟨l,hget,hsub⟩
        exact ⟨l,Table.mem_list_of_get hget (by simpa using hsub),Table.key_of_get hget⟩
    · exact h.listed j ls hold
  exact ⟨fun l hl => (hbefore.1 l hl).perform,fun id hid => hbefore.2 id (licenseOf_before hok hid)⟩

theorem Withdrawn.known_called (h : Withdrawn subID w history) (j : ℕ) (id : String)
    (hknown : Known (Pool.logOf j ((i,⟨op,(perform a op w).1⟩)::history)) id) :
    ∃ p,(perform a op w).2.store.pairings.get id=some p := by
  apply pairing_kept
  rcases hknown with ⟨k,p,hsaw,hid⟩ | ⟨k,ps,p,hsaw,hmem,hid⟩
  · rcases saw_called hsaw with ⟨-,-,hexec⟩ | hold
    · have hget : w.store.pairings.get k=some p := by simpa [Store.exec] using hexec
      exact ⟨p,by rw [← hid,Table.key_of_get hget,hget]⟩
    · exact h.known j id (.inl ⟨k,p,hold,hid⟩)
  · rcases saw_called hsaw with ⟨-,-,hexec⟩ | hold
    · cases hexec
      exact ⟨p,hid ▸ (Table.mem_list.1 hmem).1⟩
    · exact h.known j id (.inr ⟨k,ps,p,hold,hmem,hid⟩)

theorem Withdrawn.license_called (h : Withdrawn subID w history) (hfault : a.fault=false)
    (hok : Withdraws subID (Pool.logOf i history) op) (j : ℕ) (id : String)
    (hsaw : Saw (Pool.logOf j ((i,⟨op,(perform a op w).1⟩)::history))
      (.setLicenseStatus id .revoked) (.ok ())) :
    Barred subID (perform a op w).2.store id := by
  rcases saw_called hsaw with ⟨-,rfl,-⟩ | hold
  · obtain ⟨-,ls,l,hls,hmem,rfl⟩:=hok
    obtain ⟨l',hl',hsub⟩:=(h.listed i ls hls).1 l hmem
    have hkey : l'.id=l.id := Table.key_of_get hl'
    refine ⟨{ l' with status := .revoked },?_,hsub,rfl⟩
    simp only [Auth.perform,hfault,Store.exec,Store.setLicenseStatus,hl']
    exact hkey ▸ Table.get_put_self _ _
  · exact (h.license j id hold).perform hok

theorem Withdrawn.revoked_called (h : Withdrawn subID w history) (hfault : a.fault=false)
    (hok : Withdraws subID (Pool.logOf i history) op) (j : ℕ) (id : String)
    (hsaw : Saw (Pool.logOf j ((i,⟨op,(perform a op w).1⟩)::history))
      (.setPairingStatus id .revoked) (.ok ())) :
    Revoked (perform a op w).2.store id := by
  rcases saw_called hsaw with ⟨-,rfl,-⟩ | hold
  · obtain ⟨p,hp⟩:=h.known i id hok.2
    have hkey : p.pairID=id := Table.key_of_get hp
    refine ⟨{ p with status := .revoked },?_,rfl⟩
    simp only [Auth.perform,hfault,Store.exec,Store.setPairingStatus,Store.modifyPairing,hp]
    exact hkey ▸ Table.get_put_self _ _
  · refine (h.revoked j id hold).kept ?_ ?_
    · rintro p rfl
      exact hok
    · rintro id' status rfl
      exact hok.1

theorem mirrored_called {j : ℕ}
    (h : Mirrored (Pool.logOf j ((i,⟨op,(perform a op w).1⟩)::history))) :
    (i=j ∧ ∃ m,op = .store (.upsertSubscription m)) ∨ Mirrored (Pool.logOf j history) := by
  obtain ⟨m,hsaw⟩:=h
  rcases saw_called hsaw with ⟨rfl,rfl,-⟩ | hold
  · exact .inl ⟨rfl,m,rfl⟩
  · exact .inr ⟨m,hold⟩

theorem Withdrawn.bound_called (h : Withdrawn subID w history)
    (hok : Withdraws subID (Pool.logOf i history) op)
    (hlive : ∀ p n,op = .store (.createPairingWithinCapacity p n) →
      ¬ Barred subID w.store p.licenseID) (j : ℕ) (id : String) (ps : List Pairing)
    (hm : Mirrored (Pool.logOf j ((i,⟨op,(perform a op w).1⟩)::history)))
    (hsaw : Saw (Pool.logOf j ((i,⟨op,(perform a op w).1⟩)::history))
      (.listActivePairingsByLicense id) (.ok ps)) :
    Barred subID (perform a op w).2.store id ∧
      ∀ k q,(perform a op w).2.store.pairings.get k=some q → q.status=.active →
        q.licenseID=id → ∃ p∈ps,p.pairID=k := by
  have hbefore : Barred subID w.store id ∧ ∀ k q,w.store.pairings.get k=some q →
      q.status = .active → q.licenseID=id → ∃ p∈ps,p.pairID=k := by
    rcases mirrored_called hm with ⟨rfl,m,rfl⟩ | hmirror
    · -- the mirror is written before anything is listed
      rcases saw_called hsaw with ⟨-,hop,-⟩ | hold
      · cases hop
      · exact absurd hold (hok id ps)
    rcases saw_called hsaw with ⟨rfl,rfl,hexec⟩ | hold
    · cases hexec
      rcases hok with hno | hset
      · exact absurd hmirror hno
      refine ⟨h.license _ id hset,fun k q hq hactive hlic => ⟨q,?_,Table.key_of_get hq⟩⟩
      exact Table.mem_list_of_get hq (by simp [Store.activeOn,hactive,hlic])
    · exact h.bound j id ps hmirror hold
  refine ⟨hbefore.1.perform hok,fun k q hq hactive hlic => ?_⟩
  obtain ⟨q₀,hq₀,hactive₀,hlic₀⟩ := active_before hok hlive hq hactive (hlic.symm ▸ hbefore.1)
  exact hbefore.2 k q₀ hq₀ hactive₀ (hlic₀.trans hlic)

theorem Withdrawn.called (h : Withdrawn subID w history) (hfault : a.fault=false)
    (hok : Withdraws subID (Pool.logOf i history) op)
    (hlive : ∀ p n,op = .store (.createPairingWithinCapacity p n) →
      ¬ Barred subID w.store p.licenseID) :
    Withdrawn subID (perform a op w).2 ((i,⟨op,(perform a op w).1⟩)::history) := by
  obtain ⟨hfails,hkept,hnew⟩:=channel_perform a op w h.channel
  exact
    { channel := hfails ▸ h.channel
      published := fun j ev r hmem => by
        rcases List.mem_cons.1 hmem with heq | hold
        · obtain ⟨-,heq⟩:=Prod.mk.inj heq
          exact hnew ev (Sigma.mk.inj heq).1.symm
        · exact hkept ev (h.published j ev r hold)
      unfailing := fun x hx => by
        rcases List.mem_cons.1 hx with rfl | hold
        · exact h.unfailing_called hfault hok
        · exact h.unfailing x hold
      listed := h.listed_called hok
      known := h.known_called
      license := h.license_called hfault hok
      revoked := h.revoked_called hfault hok
      bound := h.bound_called hok hlive }

end Call

theorem not_saw_nil (op : StoreOp) (r : op.Res) : ¬ Saw [] op r := by
  intro h
  cases h

theorem withdrawn_start (w : World) (hchannel : ∀ n,w.channel.fails n=false) :
    Withdrawn subID w [] where
  channel := hchannel
  published _ _ _ h := by cases h
  unfailing _ h := by cases h
  listed _ _ h := absurd h (not_saw_nil _ _)
  known _ _ h := by rcases h with ⟨_,_,h,-⟩ | ⟨_,_,_,h,-⟩ <;> exact absurd h (not_saw_nil _ _)
  license _ _ h := absurd h (not_saw_nil _ _)
  revoked _ _ h := absurd h (not_saw_nil _ _)
  bound _ _ _ _ h := absurd h (not_saw_nil _ _)

section Run
variable {srv : Service} {sub : Stripe.Subscription} {w : World}

def cutoffGuard (subID : String) (st : Requests) (x : CutoffAct) : Prop :=
  unhindered x = true ∧ timely subID st x = true

variable {st : Requests}

theorem live_of_timely {i : ℕ} {a : Answer} {op : Op} (hg : timely subID st (.call i a)=true)
    (hnext : Pool.upNext st i=some op) (p : Pairing) (n : ℕ)
    (hop : op = .store (.createPairingWithinCapacity p n)) :
    ¬ Barred subID st.world.store p.licenseID := by
  subst hop
  rw [← barred_iff]
  simpa [timely,hnext] using hg

variable {xs : List CutoffAct}

theorem withdrawn_run (hbp : srv.backplane=true) (hcust : Stripe.customerIDOf sub.customer ≠ "")
    (hl : Pool.Ledger (Withdraws sub.id) Published (Withdrawn sub.id) st)
    (hg : Machine.Guarded (Pool.act perform (Task.prog srv sub)) (cutoffGuard sub.id) st xs) :
    Pool.Ledger (Withdraws sub.id) Published (Withdrawn sub.id)
      (Machine.run (Pool.act perform (Task.prog srv sub)) st xs) := by
  refine Pool.ledger_acts_guarded perform (Task.prog srv sub) ?_ ?_ hl hg
  · intro st t ht
    exact task_withdraws hbp hcust t ht.1
  intro st i a op h hx hnext hok
  have hfault : a.fault=false := by simpa [unhindered] using hx.1
  exact h.called hfault hok (live_of_timely hx.2 hnext)

theorem enforced_of_returned {h : ℕ} {t : Thread Op Op.Rep}
    (hcust : Stripe.customerIDOf sub.customer ≠ "")
    (hl : Pool.Ledger (Withdraws sub.id) Published (Withdrawn sub.id) (cutoff srv sub w xs))
    (hcancel : (Pool.started xs)[h]? = some .cancel)
    (ht : (cutoff srv sub w xs).threads[h]? = some t) (hdone : t.returned=true) :
    Enforced sub.id t.log := by
  have hobeys : Obeys (Withdraws sub.id) (fun _ l => Failed l ∨ Enforced sub.id l) []
      (Task.prog srv sub .cancel) := by
    refine obeys_seq (handleSubscriptionDeleted_withdraws sub hcust) fun res l hres _ => ?_
    rcases res with e | u
    · exact obeys_pure (.inl hres.2)
    · exact obeys_pure (.inr hres.2)
  have hpost:=Pool.returned_acts perform (Task.prog srv sub) hcancel ht hdone hobeys
  refine hpost.resolve_left ?_
  rintro ⟨e,he,hbad⟩
  rw [hl.recorded.log_eq ht,Pool.mem_logOf] at he
  rw [hl.inv.unfailing _ he] at hbad
  cases hbad

theorem none_active {i : ℕ} (hl : Pool.Ledger (Withdraws subID) Published (Withdrawn subID) st)
    (henforced : Enforced subID (Pool.logOf i st.history)) (k : String) (p : Pairing)
    (hp : st.world.store.pairings.get k=some p)
    (hlic : LicenseOf st.world.store p.licenseID subID) : p.status≠.active := by
  intro hactive
  obtain ⟨hm,ls,hls,hclosed⟩:=henforced
  obtain ⟨l,hmem,hid⟩:=(hl.inv.listed i ls hls).2 p.licenseID hlic
  obtain ⟨ps,hps,hrevoked⟩:=hclosed l hmem
  obtain ⟨p',hp',hk⟩:=(hl.inv.bound i l.id ps hm hps).2 k p hp hactive hid.symm
  obtain ⟨q,hq,hstatus⟩:=hl.inv.revoked i p'.pairID (hrevoked p' hp')
  rw [hk,hp,Option.some.injEq] at hq
  rw [← hq,hactive] at hstatus
  cases hstatus

/-- A pairing of the license that was active at some moment is so still, or a task has
revoked it. -/
def Fate (subID id licenseID : String) (w : World) (history : List (ℕ × Auth.Event)) : Prop :=
  LicenseOf w.store licenseID subID ∧
    ((∃ p, w.store.pairings.get id = some p ∧ p.status=.active ∧ p.licenseID=licenseID) ∨
      ∃ i, (i,(⟨.store (.setPairingStatus id .revoked),.ok ()⟩ : Auth.Event)) ∈ history)

theorem Fate.called {a : Answer} {op : Op} {history : List (ℕ × Auth.Event)} {i : ℕ}
    {licenseID : String} (h : Fate subID id licenseID w history) (hfault : a.fault=false)
    (hok : Withdraws subID (Pool.logOf i history) op) :
    Fate subID id licenseID (perform a op w).2 ((i,⟨op,(perform a op w).1⟩)::history) := by
  refine ⟨h.1.perform,?_⟩
  rcases h.2 with ⟨p,hp,hactive,hlic⟩ | ⟨j,hj⟩
  swap
  · exact .inr ⟨j,List.mem_cons_of_mem _ hj⟩
  have hkey : p.pairID=id := Table.key_of_get hp
  by_cases hset : op = .store (.setPairingStatus id .revoked)
  · subst hset
    refine .inr ⟨i,?_⟩
    have hres : (Auth.perform a (.store (.setPairingStatus id .revoked)) w).1 = .ok () := by
      simp [Auth.perform,hfault,Store.exec,Store.setPairingStatus,Store.modifyPairing,hp]
    rw [hres]
    exact List.mem_cons_self
  left
  rcases perform_writes a op w with hsame | ⟨sop,rfl,hw⟩
  · exact ⟨p,hsame.symm ▸ hp,hactive,hlic⟩
  generalize (Auth.perform a (.store sop) w).2.store=s' at hw
  cases hw with
  | pairing q hnew => exact hok.elim
  | pairingWithin q n hnew hfree =>
    exact Table.exists_get_put ⟨p,hp,hactive,hlic⟩ fun q' hq' => by simp [hnew] at hq'
  | pairingStatus id' status q hold =>
    have hne : id'≠id := by
      rintro rfl
      exact hset (by rw [hok.1])
    refine ⟨p,?_,hactive,hlic⟩
    rw [Table.get_put_ne _ _ (by rw [show q.pairID=id' from Table.key_of_get hold]; exact hne)]
    exact hp
  | pairingDevices id' mobileID desktopID q hold =>
    refine Table.exists_get_put ⟨p,hp,hactive,hlic⟩ fun q' hq' hprop => ?_
    obtain rfl : q=q' := by simpa [Table.replaced hold rfl] using hq'
    exact hprop
  | _ => exact ⟨p,hp,hactive,hlic⟩

theorem fate_run (hbp : srv.backplane=true) (hcust : Stripe.customerIDOf sub.customer ≠ "")
    {licenseID : String}
    (hl : Pool.Ledger (Withdraws sub.id) Published (Fate sub.id id licenseID) st)
    (hg : Machine.Guarded (Pool.act perform (Task.prog srv sub)) (cutoffGuard sub.id) st xs) :
    Pool.Ledger (Withdraws sub.id) Published (Fate sub.id id licenseID)
      (Machine.run (Pool.act perform (Task.prog srv sub)) st xs) := by
  refine Pool.ledger_acts_guarded perform (Task.prog srv sub) ?_ ?_ hl hg
  · intro st t ht
    exact task_withdraws hbp hcust t ht.1
  intro st i a op h hx _ hok
  have hfault : a.fault=false := by simpa [unhindered] using hx.1
  exact h.called hfault hok

theorem published_of_returned {i : ℕ} {u : Thread Op Op.Rep}
    (hl : Pool.Ledger (Withdraws subID) Published (Withdrawn subID) st)
    (hu : st.threads[i]? = some u) (hdone : u.returned=true)
    (hrevoked : (i,(⟨.store (.setPairingStatus id .revoked),.ok ()⟩ : Auth.Event))∈st.history) :
    { pairID := id } ∈ st.world.channel.published := by
  have hsaw : Saw u.log (.setPairingStatus id .revoked) (.ok ()) := by
    rw [hl.recorded.log_eq hu]
    exact Pool.mem_logOf.2 hrevoked
  have hpublished : Published u.log := by
    obtain ⟨log,_ | ⟨_ | ⟨op,k⟩⟩⟩:=u
    · cases hdone
    · exact hl.disciplined i log _ hu
    · cases hdone
  obtain ⟨r,hr⟩:=hpublished id hsaw
  rw [hl.recorded.log_eq hu] at hr
  exact hl.inv.published i _ r (Pool.mem_logOf.1 hr)

/-- A cancellation leaves no active pairing behind, and every pairing of the
subscription that was active at some moment before it had finished has been published,
in every interleaving in which no pairing is inserted under a license that is revoked:
`xs` ends when the handling has returned, and `ys` when all tasks have that had started
by then. -/
theorem cancellation_cuts_off (hbp : srv.backplane=true)
    (hchannel : ∀ n, w.channel.fails n = false)
    (hcust : Stripe.customerIDOf sub.customer ≠ "") (xs ys : List CutoffAct)
    (hrun : ∀ x ∈ xs ++ ys, unhindered x = true)
    (htimely : Machine.Guarded (Pool.act perform (Task.prog srv sub))
      (fun st x => timely sub.id st x = true) (Pool.start w) (xs ++ ys))
    (h : ℕ) (t : Thread Op Op.Rep) (hcancel : (Pool.started xs)[h]? = some .cancel)
    (ht : (cutoff srv sub w xs).threads[h]? = some t) (hdone : t.returned=true)
    (hrest : ∀ i u, i < (cutoff srv sub w xs).threads.length →
      (cutoff srv sub w (xs ++ ys)).threads[i]? = some u → u.returned=true) :
    (∀ k p, (cutoff srv sub w (xs ++ ys)).world.store.pairings.get k = some p →
      LicenseOf (cutoff srv sub w (xs ++ ys)).world.store p.licenseID sub.id →
      p.status ≠ .active) ∧
    ∀ zs, zs <+: xs → ∀ k p, (cutoff srv sub w zs).world.store.pairings.get k = some p →
      p.status = .active → LicenseOf (cutoff srv sub w zs).world.store p.licenseID sub.id →
      { pairID := k } ∈ (cutoff srv sub w (xs ++ ys)).world.channel.published := by
  have hall := Machine.guarded_and _ (fun _ x => unhindered x = true) _ _ _
    (Machine.guarded_of_forall _ _ (Pool.start w) (xs ++ ys) fun x hx _ => hrun x hx) htimely
  obtain ⟨hgx,hgy⟩ := (Machine.guarded_append _ _ _ xs ys).1 hall
  have hstart : Pool.Ledger (Withdraws sub.id) Published (Withdrawn sub.id) (Pool.start w) :=
    Pool.ledger_start (withdrawn_start w hchannel)
  have hx : Pool.Ledger (Withdraws sub.id) Published (Withdrawn sub.id) (cutoff srv sub w xs) :=
    withdrawn_run hbp hcust hstart hgx
  have hend : cutoff srv sub w (xs ++ ys) =
      Machine.run (Pool.act perform (Task.prog srv sub)) (cutoff srv sub w xs) ys :=
    Machine.run_append _ _ xs ys
  have hy : Pool.Ledger (Withdraws sub.id) Published (Withdrawn sub.id)
      (cutoff srv sub w (xs ++ ys)) := hend ▸ withdrawn_run hbp hcust hx hgy
  have hgrows : (cutoff srv sub w xs).history <:+ (cutoff srv sub w (xs ++ ys)).history :=
    hend ▸ Pool.history_acts perform (Task.prog srv sub) _ ys
  have henforced := enforced_of_returned hcust hx hcancel ht hdone
  rw [hx.recorded.log_eq ht] at henforced
  refine ⟨none_active hy (henforced.mono (Pool.logOf_suffix h hgrows)),?_⟩
  rintro zs ⟨rest,rfl⟩ k p hp hactive hlic
  obtain ⟨hgz,hgr⟩ := (Machine.guarded_append _ _ _ zs rest).1 hgx
  have hz : Pool.Ledger (Withdraws sub.id) Published (Withdrawn sub.id) (cutoff srv sub w zs) :=
    withdrawn_run hbp hcust hstart hgz
  have hfate : Fate sub.id k p.licenseID (cutoff srv sub w (zs ++ rest)).world
      (cutoff srv sub w (zs ++ rest)).history := by
    rw [cutoff,Machine.run_append]
    refine (fate_run hbp hcust ⟨hz.disciplined,hz.recorded,?_⟩ hgr).inv
    exact ⟨hlic,.inl ⟨p,hp,hactive,rfl⟩⟩
  rcases hfate with ⟨hlic',⟨p',hp',hactive',hid⟩ | ⟨i,hi⟩⟩
  · exact absurd hactive' (none_active hx henforced k p' hp' (hid ▸ hlic'))
  obtain ⟨u₀,hu₀⟩ := hx.recorded.thread_of_mem hi
  obtain ⟨u,hu⟩ := hy.recorded.thread_of_mem (hgrows.subset hi)
  exact published_of_returned hy hu
    (hrest i u (List.getElem?_eq_some_iff.1 hu₀).1 hu) (hgrows.subset hi)

end Run

def preparedWorld : World where
  store := desktopWorld.store
  clock := 1000

def callsOf (n i : ℕ) (fresh : String) : List CutoffAct :=
  List.replicate n (.call i { elapsed := 1, fresh := fresh })

def phoneCompletes : CutoffAct :=
  .start (.request (.completePairing (some { pairingToken := "pt_p", mobilePublicKey := "AQ==" })))

/- A paired phone; while the deletion is handled the desktop unpairs it, and has
revoked the pairing before the handling lists it. -/
def unpairedMeanwhile : List CutoffAct :=
  [phoneCompletes] ++ callsOf 30 0 "m" ++ [.start .cancel] ++ callsOf 3 1 "c" ++
    [.start (.request (.unpair "Bearer acct_a.s" (some "pair_m")))] ++ callsOf 3 2 "u" ++
    callsOf 30 1 "c"

theorem cancellation_cuts_off_unpairedMeanwhile :
    { pairID := "pair_m" } ∈ (cutoff sampleService sampleSubscription preparedWorld
      (unpairedMeanwhile ++ callsOf 30 2 "u")).world.channel.published := by
  have hthread : ((cutoff sampleService sampleSubscription preparedWorld
      unpairedMeanwhile).threads[1]?).any Thread.returned = true := by decide +kernel
  have hcount : (cutoff sampleService sampleSubscription preparedWorld
      unpairedMeanwhile).threads.length = 3 := by decide +kernel
  have hall : ∀ i < 3, ((cutoff sampleService sampleSubscription preparedWorld
      (unpairedMeanwhile ++ callsOf 30 2 "u")).threads[i]?).all Thread.returned = true := by
    decide +kernel
  have hpaired : ((cutoff sampleService sampleSubscription preparedWorld
      (unpairedMeanwhile.take 31)).world.store.pairings.get "pair_m").any
        (fun p => p.status == .active && p.licenseID == "lic_a") = true := by decide +kernel
  have hlicensed : ((cutoff sampleService sampleSubscription preparedWorld
      (unpairedMeanwhile.take 31)).world.store.licenses.get "lic_a").any
        (fun l => l.subscriptionID == "sub_1") = true := by decide +kernel
  obtain ⟨t,ht,hdone⟩ := Option.any_eq_true _ _ |>.1 hthread
  obtain ⟨p,hp,hactive⟩ := Option.any_eq_true _ _ |>.1 hpaired
  obtain ⟨l,hl,hsub⟩ := Option.any_eq_true _ _ |>.1 hlicensed
  simp only [Bool.and_eq_true,beq_iff_eq] at hactive hsub
  refine (cancellation_cuts_off rfl (fun _ => ?_) (by decide) unpairedMeanwhile
    (callsOf 30 2 "u") (by decide +kernel) (by decide +kernel) 1 t rfl ht hdone ?_).2
    (unpairedMeanwhile.take 31) (List.take_prefix _ _) "pair_m" p hp hactive.1
    ⟨l,hactive.2 ▸ hl,hsub⟩
  · rfl
  intro i u hi hu
  rw [hcount] at hi
  exact Option.all_eq_true _ _ |>.1 (hall i hi) u hu

/- A completion that has passed its license check makes all its other calls after the
deletion was handled. -/
def lateCompletion : List CutoffAct :=
  [phoneCompletes] ++ callsOf 15 0 "m" ++ [.start .cancel] ++ callsOf 30 1 "c" ++ callsOf 30 0 "m"

theorem late_completion_survives :
    (∀ x ∈ lateCompletion, unhindered x = true) ∧
      (cutoff sampleService sampleSubscription preparedWorld lateCompletion).threads.all
        Thread.returned = true ∧
      ((cutoff sampleService sampleSubscription preparedWorld
        lateCompletion).world.store.pairings.get "pair_m").map
          (fun p => (p.licenseID,p.status)) = some ("lic_a",.active) ∧
      ((cutoff sampleService sampleSubscription preparedWorld
        lateCompletion).world.store.licenses.get "lic_a").map
          (fun l => (l.subscriptionID,l.status)) = some (sampleSubscription.id,.revoked) ∧
      (cutoff sampleService sampleSubscription preparedWorld
        lateCompletion).world.channel.published = [] := by
  decide +kernel

end SecureGateway.Billing
