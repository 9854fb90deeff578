import SecureGateway.Auth.Obedience
import SecureGateway.Lib.Machine

/-!
# Every minted token is authorized

The refresh path never compares the account of the pairing with that of the token. That both
name one account is an invariant of the store (`Bound`). What a request has read about
accounts stays true (`Remembers`); what it has checked is true when it mints, because until
then it only makes quiet calls (`Current`).
-/

namespace SecureGateway.Auth
open Authstore Prog

def OwnedBy (s : Store) (licenseID accountID : String) : Prop :=
  ∃ l, s.licenses.get licenseID = some l ∧ l.accountID=accountID

def PairingOf (s : Store) (pairID accountID : String) : Prop :=
  ∃ p, s.pairings.get pairID = some p ∧ p.accountID=accountID

structure Bound (s : Store) : Prop where
  pairing : ∀ id p, s.pairings.get id = some p → OwnedBy s p.licenseID p.accountID
  refresh : ∀ id r, s.refreshTokens.get id = some r → PairingOf s r.pairID r.accountID
  pairingToken : ∀ id t, s.pairingTokens.get id = some t → OwnedBy s t.licenseID t.accountID

/-- What a request has read about accounts holds, and goes on holding. -/
structure Remembers (log : List Event) (s : Store) : Prop where
  license : ∀ id lic, Saw log (.getLicense id) (.ok lic) →
    lic.id = id ∧ OwnedBy s lic.id lic.accountID
  pairingToken : ∀ id t, Saw log (.getPairingToken id) (.ok t) → OwnedBy s t.licenseID t.accountID
  pairing : ∀ id p, Saw log (.getPairing id) (.ok p) → p.pairID=id ∧ PairingOf s id p.accountID
  refresh : ∀ id r, Saw log (.getRefreshToken id) (.ok r) → PairingOf s r.pairID r.accountID

/-- What a request has read is what the store holds. -/
structure Current (log : List Event) (s : Store) : Prop where
  pairing : ∀ id p, Saw log (.getPairing id) (.ok p) → s.pairings.get id = some p
  device : ∀ id d, Saw log (.getDevice id) (.ok d) → s.devices.get id = some d
  license : ∀ id l, Saw log (.getLicense id) (.ok l) → s.licenses.get id = some l
  subscription : ∀ id m, Saw log (.getSubscription id) (.ok m) → s.subscriptions.get id = some m

variable {s : Store}

theorem OwnedBy.writes {s' : Store} {op : StoreOp} {licenseID accountID : String}
    (h : OwnedBy s licenseID accountID) (hw : Writes s op s') : OwnedBy s' licenseID accountID := by
  cases hw with
  | license l hnew => exact Table.exists_get_put h fun l₀ hl₀ => by simp [hnew] at hl₀
  | licenseStatus id status l hold =>
    refine Table.exists_get_put h fun l₀ hl₀ hacct => ?_
    obtain rfl : l=l₀ := by simpa [Table.replaced hold rfl] using hl₀
    exact hacct
  | _ => exact h

theorem PairingOf.writes {s' : Store} {op : StoreOp} {pairID accountID : String}
    (h : PairingOf s pairID accountID) (hw : Writes s op s') : PairingOf s' pairID accountID := by
  cases hw with
  | pairing p hnew => exact Table.exists_get_put h fun p₀ hp₀ => by simp [hnew] at hp₀
  | pairingWithin p maxPairs hnew hfree =>
    exact Table.exists_get_put h fun p₀ hp₀ => by simp [hnew] at hp₀
  | pairingStatus pairID status p hold =>
    refine Table.exists_get_put h fun p₀ hp₀ hacct => ?_
    obtain rfl : p=p₀ := by simpa [Table.replaced hold rfl] using hp₀
    exact hacct
  | pairingDevices pairID mobileID desktopID p hold =>
    refine Table.exists_get_put h fun p₀ hp₀ hacct => ?_
    obtain rfl : p=p₀ := by simpa [Table.replaced hold rfl] using hp₀
    exact hacct
  | _ => exact h

theorem Remembers.writes {log : List Event} {s' : Store} {op : StoreOp} (h : Remembers log s)
    (hw : Writes s op s') : Remembers log s' where
  license id lic hsaw := ⟨(h.license id lic hsaw).1,(h.license id lic hsaw).2.writes hw⟩
  pairingToken id t hsaw := (h.pairingToken id t hsaw).writes hw
  pairing id p hsaw := ⟨(h.pairing id p hsaw).1,(h.pairing id p hsaw).2.writes hw⟩
  refresh id r hsaw := (h.refresh id r hsaw).writes hw

variable {given : Stripe.Subscription → Prop} {b : Bool} {srv : Service} {log : List Event}

theorem Backed.pairingOf {accountID : String} {pairing : Pairing}
    (hb : Backed log accountID pairing) (hr : Remembers log s) :
    PairingOf s pairing.pairID accountID := by
  obtain ⟨id,hsaw,hacct⟩:=hb
  obtain ⟨rfl,hof⟩:=hr.pairing id pairing hsaw
  rcases hacct with rfl | ⟨hash,rt,hrt,hpair,rfl⟩
  · exact hof
  · exact hpair ▸ hr.refresh hash rt hrt

theorem Bound.writes {s' : Store} {op : StoreOp} (h : Bound s) (hr : Remembers log s)
    (hok : Permitted given b log (.store op)) (hw : Writes s op s') : Bound s' := by
  have hpairing : ∀ id p,s.pairings.get id=some p → OwnedBy s' p.licenseID p.accountID :=
    fun id p hp => (h.pairing id p hp).writes hw
  have hrefresh : ∀ id r,s.refreshTokens.get id=some r → PairingOf s' r.pairID r.accountID :=
    fun id r hr => (h.refresh id r hr).writes hw
  have htoken : ∀ id t,s.pairingTokens.get id=some t → OwnedBy s' t.licenseID t.accountID :=
    fun id t ht => (h.pairingToken id t ht).writes hw
  have hr' : Remembers log s' := hr.writes hw
  cases hw with
  | pairing p hnew => exact absurd hok id
  | pairingWithin p maxPairs hnew hfree =>
    obtain ⟨id,pt,lic,sub,hpt,hlic,-,hlid,hacct,-⟩:=hok
    refine ⟨Table.forall_get_put ?_ hpairing,hrefresh,htoken⟩
    rw [hlid,hacct,(hr'.license _ lic hlic).1]
    exact hr'.pairingToken id pt hpt
  -- a rewritten pairing keeps its license and its account
  | pairingStatus pairID status p hold =>
    exact ⟨Table.forall_get_put (hpairing pairID p hold) hpairing,hrefresh,htoken⟩
  | pairingDevices pairID mobileID desktopID p hold =>
    exact ⟨Table.forall_get_put (hpairing pairID p hold) hpairing,hrefresh,htoken⟩
  | refreshToken r =>
    obtain ⟨pairing,hbacked,hid⟩:=hok
    exact ⟨hpairing,Table.forall_get_put (hid ▸ hbacked.pairingOf hr') hrefresh,htoken⟩
  | revokedTokens op t hrows =>
    refine ⟨hpairing,fun id r hrow => ?_,htoken⟩
    obtain ⟨r₀,instant,hr₀,rfl⟩:=hrows id r hrow
    exact hrefresh id r₀ hr₀
  | pairingToken t hnew =>
    obtain ⟨id,lic,hlic,hlid,hacct⟩:=hok
    refine ⟨hpairing,hrefresh,Table.forall_get_put ?_ htoken⟩
    rw [hlid,hacct]
    exact (hr'.license id lic hlic).2
  | consumed id resultPairID consumedAt t hold hpending =>
    exact ⟨hpairing,hrefresh,Table.forall_get_put (htoken id t hold) htoken⟩
  | _ => exact ⟨hpairing,hrefresh,htoken⟩

theorem Current.writes {s' : Store} {op : StoreOp} (h : Current log s) (hw : Writes s op s')
    (hq : (Op.store op).quiet=true) : Current log s' := by
  cases hw with
  | subscription => cases hq
  | license => cases hq
  | licenseStatus => cases hq
  | device => cases hq
  | pairing => cases hq
  | pairingWithin => cases hq
  | pairingStatus => cases hq
  | pairingDevices => cases hq
  | _ => exact ⟨h.pairing,h.device,h.license,h.subscription⟩

/-- What holds between the calls of a request and the store. -/
structure Knows (log : List Event) (s : Store) : Prop where
  bound : Bound s
  remembers : Remembers log s
  current : Quiet log → Current log s

theorem Remembers.answered {a : Answer} {op : Op} {w : World} (hb : Bound w.store)
    (hr : Remembers log (perform a op w).2.store)
    (hlic : ∀ l acct,OwnedBy w.store l acct → OwnedBy (perform a op w).2.store l acct)
    (hpair : ∀ p acct,PairingOf w.store p acct → PairingOf (perform a op w).2.store p acct) :
    Remembers (⟨op,(perform a op w).1⟩::log) (perform a op w).2.store where
  license id lic hsaw := by
    rcases saw_perform hsaw with ⟨-,hexec⟩ | hold
    · have hget : w.store.licenses.get id=some lic := by simpa [Store.exec] using hexec
      have hid:=Table.key_of_get hget
      exact ⟨hid,hlic _ _ ⟨lic,hid ▸ hget,rfl⟩⟩
    · exact hr.license id lic hold
  pairingToken id t hsaw := by
    rcases saw_perform hsaw with ⟨-,hexec⟩ | hold
    · exact hlic _ _ (hb.pairingToken id t (by simpa [Store.exec] using hexec))
    · exact hr.pairingToken id t hold
  pairing id p hsaw := by
    rcases saw_perform hsaw with ⟨-,hexec⟩ | hold
    · have hget : w.store.pairings.get id=some p := by simpa [Store.exec] using hexec
      exact ⟨Table.key_of_get hget,hpair _ _ ⟨p,hget,rfl⟩⟩
    · exact hr.pairing id p hold
  refresh id r hsaw := by
    rcases saw_perform hsaw with ⟨-,hexec⟩ | hold
    · exact hpair _ _ (hb.refresh id r (by simpa [Store.exec] using hexec))
    · exact hr.refresh id r hold

theorem Current.answered {a : Answer} {op : Op} {w : World}
    (h : Current log (perform a op w).2.store) :
    Current (⟨op,(perform a op w).1⟩::log) (perform a op w).2.store where
  pairing id p hsaw := by
    rcases saw_perform hsaw with ⟨rfl,hexec⟩ | hold
    · rw [perform_read a _ w rfl]; simpa [Store.exec] using hexec
    · exact h.pairing id p hold
  device id d hsaw := by
    rcases saw_perform hsaw with ⟨rfl,hexec⟩ | hold
    · rw [perform_read a _ w rfl]; simpa [Store.exec] using hexec
    · exact h.device id d hold
  license id l hsaw := by
    rcases saw_perform hsaw with ⟨rfl,hexec⟩ | hold
    · rw [perform_read a _ w rfl]; simpa [Store.exec] using hexec
    · exact h.license id l hold
  subscription id m hsaw := by
    rcases saw_perform hsaw with ⟨rfl,hexec⟩ | hold
    · rw [perform_read a _ w rfl]; simpa [Store.exec] using hexec
    · exact h.subscription id m hold

theorem Knows.perform {a : Answer} {op : Op} {w : World} (h : Knows log w.store)
    (hok : Permitted given b log op) :
    Knows (⟨op,(perform a op w).1⟩::log) (perform a op w).2.store := by
  have hquiet (hq : Quiet (⟨op,(Auth.perform a op w).1⟩::log)) : Quiet log :=
    fun e he => hq e (List.mem_cons_of_mem _ he)
  rcases perform_writes a op w with hsame | ⟨sop,rfl,hw⟩
  · have hr:=hsame.symm ▸ h.remembers
    refine ⟨hsame.symm ▸ h.bound,hr.answered h.bound ?_ ?_,fun hq => ?_⟩
    · exact fun l acct hl => hsame.symm ▸ hl
    · exact fun p acct hp => hsame.symm ▸ hp
    · exact (hsame.symm ▸ h.current (hquiet hq) : Current log _).answered
  · refine ⟨h.bound.writes h.remembers hok hw,(h.remembers.writes hw).answered h.bound ?_ ?_,?_⟩
    · exact fun l acct hl => hl.writes hw
    · exact fun p acct hp => hp.writes hw
    · exact fun hq => ((h.current (hquiet hq)).writes hw (hq _ List.mem_cons_self)).answered

theorem bound_empty : Bound {} := by constructor <;> intro id x hx <;> simp at hx

theorem knows_start (h : Bound s) : Knows [] s where
  bound := h
  remembers := by constructor <;> intro id x hx <;> cases hx
  current := fun _ => by constructor <;> intro id x hx <;> cases hx

theorem knows_answer (log : List Event) (op : Op) (s : World × List Answer)
    (h : Knows log s.1.store) (hok : Permitted given b log op) :
    Knows (⟨op,(answer op s).1⟩::log) (answer op s).2.1.store :=
  h.perform hok

theorem bound_next (w : World) (r : Request × List Answer) (h : Bound w.store) :
    Bound (next srv w r).store := by
  obtain ⟨hk,-⟩:=run_obeys answer (Permitted r.1.carries srv.billingEnabled)
    (fun log s => Knows log s.1.store) knows_answer _ (handle srv r.1) [] (w,r.2)
    (handle_obeys id r.1 fun _ h => h) (knows_start h)
  exact hk.bound

/-- What a token's claims say is so in the store, and its subscription is
honoured at an instant the clock showed in one of the calls. -/
def Authorized (srv : Service) (s : Store) (calls : List Event) (p : TokenParams) : Prop :=
  ∃ pairing dev lic, s.pairings.get p.pairID = some pairing ∧ pairing.status=.active ∧
    pairing.accountID = p.accountID ∧
    s.devices.get p.deviceID = some dev ∧ dev.accountID=p.accountID ∧ dev.role=p.role ∧
    Pairing.entry pairing p.role = p.deviceID ∧
    p.licenseID = pairing.licenseID ∧ s.licenses.get p.licenseID = some lic ∧
    lic.status = .active ∧ lic.accountID=p.accountID ∧
    (srv.billingEnabled=true → ∃ sub t, s.subscriptions.get lic.subscriptionID = some sub ∧
      (⟨.now,t⟩ : Event) ∈ calls ∧ License.issuable (License.evaluate sub t) = true)

theorem Mints.authorized {p : TokenParams} (hk : Knows log s) (hm : Mints srv.billingEnabled log p) :
    Authorized srv s log p := by
  obtain ⟨pairing,dev,lic,ha,hpair,hdev,hrole,hlic⟩:=hm
  have hc:=hk.current ha.quiet
  obtain ⟨pid,hsaw,-⟩:=id ha.backed
  obtain ⟨did,hsawDev⟩:=ha.device
  have hpid:=(hk.remembers.pairing pid pairing hsaw).1
  have hgetP : s.pairings.get p.pairID=some pairing := by
    rw [hpair,hpid]; exact hc.pairing pid pairing hsaw
  have hgetD : s.devices.get did=some dev := hc.device did dev hsawDev
  have hgetL : s.licenses.get pairing.licenseID=some lic := hc.license _ lic ha.license
  have hkeyD : dev.id=did := Table.key_of_get hgetD
  have hkeyL : lic.id=pairing.licenseID := Table.key_of_get hgetL
  -- the account of the pairing: checked on issue, an invariant on refresh
  have hacct : pairing.accountID=p.accountID := by
    obtain ⟨q,hq,hqa⟩:=ha.backed.pairingOf hk.remembers
    rw [← hpair,hgetP] at hq
    cases hq
    exact hqa
  have hown : lic.accountID=pairing.accountID := by
    obtain ⟨l,hl,hla⟩:=hk.bound.pairing _ _ hgetP
    rw [hgetL] at hl
    cases hl
    exact hla
  refine ⟨pairing,dev,lic,hgetP,ha.active,hacct,?_,ha.account,hrole.symm,?_,?_,?_,
    ha.honoured.1,hown.trans hacct,fun hbill => ?_⟩
  · rw [hdev,hkeyD]; exact hgetD
  · rw [hrole,hdev]; simpa [pairingHasDevice] using ha.member
  · rw [hlic,hkeyL]
  · rw [hlic,hkeyL]; exact hgetL
  · obtain ⟨sub,t,hsub,hnow,hok⟩:=ha.honoured.2 hbill
    exact ⟨sub,t,hc.subscription _ sub hsub,hnow,hok⟩

/-- In every serial run from an empty store, whenever a request makes a call of
the signer, the token it asks for is authorized by the store at that moment. -/
theorem minted_token_authorized (srv : Service) (clock : Time) (channel : Channel)
    (rs : List (Request × List Answer)) (r : Request) (as : List Answer) (i : ℕ)
    (x : (World × List Answer) × Event) (p : TokenParams)
    (hx : ((handle srv r).trace answer
      (Machine.run (next srv) { clock := clock, channel := channel } rs,as))[i]? = some x)
    (hp : x.2.1 = .mint p) :
    Authorized srv x.1.1.store (logBefore answer (handle srv r)
      (Machine.run (next srv) { clock := clock, channel := channel } rs,as) i []) p := by
  have hbound : Bound (Machine.run (next srv) { clock := clock, channel := channel } rs).store :=
    Machine.run_invariant (next srv) (fun w => Bound w.store) (fun w r h => bound_next w r h) _ rs
      bound_empty
  obtain ⟨hk,hok⟩ := trace_obeys answer (Permitted r.carries srv.billingEnabled)
    (fun log s => Knows log s.1.store) knows_answer _ (handle srv r) []
    (Machine.run (next srv) { clock := clock, channel := channel } rs,as) (handle_obeys id r fun _ h => h)
    (knows_start hbound) i x hx
  rw [hp] at hok
  exact hok.authorized hk

def Op.minted : Op → Option TokenParams
  | .mint p => some p
  | _ => none

theorem Op.eq_mint {op : Op} {p : TokenParams} (h : op.minted=some p) : op = .mint p := by
  cases op with
  | mint q => cases h; rfl
  | _ => cases h

/- From the purchase to a complete pairing: the desktop is `dev_d`, the phone
`dev_m` and their pair `pair_m`. -/
def pairingRun : List (Request × List Answer) :=
  [(.webhook (some ⟨"evt_1",.customerSubscriptionCreated (some sampleSubscription)⟩) true,
      drawing "a"),
    (.createAccount "Bearer root" (some "acct_a"),drawing "s"),
    (.registerDevice "Bearer acct_a.s" (some { role := "desktop", publicKey := "AQ==" }),
      drawing "d"),
    (.createPairingToken "Bearer acct_a.s"
      (some { licenseID := "lic_a", desktopDeviceID := "dev_d" }),drawing "p"),
    (.completePairing (some { pairingToken := "pt_p", mobilePublicKey := "AQ==" }),drawing "m")]

def pairedWorld : World := Machine.run (next sampleService) {} pairingRun

def phoneRequest : Request :=
  .issueToken "Bearer pair_m.m" (some { deviceID := "dev_m", pairID := "pair_m" })

def phoneToken : TokenParams :=
  { issuer := "", audience := "", accountID := "acct_a", pairID := "pair_m", deviceID := "dev_m",
    role := .mobile, licenseID := "lic_a", ttl := 0 }

theorem minted_token_authorized_phone :
    ∃ x, ((handle sampleService phoneRequest).trace answer
        (Machine.run (next sampleService) {} pairingRun,drawing "t"))[8]? = some x ∧
      x.2.1 = .mint phoneToken ∧
      Authorized sampleService x.1.1.store (logBefore answer (handle sampleService phoneRequest)
        (Machine.run (next sampleService) {} pairingRun,drawing "t") 8 []) phoneToken := by
  have hcall : (((handle sampleService phoneRequest).trace answer
      (Machine.run (next sampleService) {} pairingRun,drawing "t"))[8]?.bind
        fun x => x.2.1.minted) = some phoneToken := by decide +kernel
  obtain ⟨x,hx,hm⟩ := Option.bind_eq_some_iff.1 hcall
  have hp := Op.eq_mint hm
  exact ⟨x,hx,hp,minted_token_authorized sampleService 0 {} pairingRun phoneRequest
    (drawing "t") 8 x phoneToken hx hp⟩

end SecureGateway.Auth
