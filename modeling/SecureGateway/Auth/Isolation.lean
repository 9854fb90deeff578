import SecureGateway.Auth.Resolution
import SecureGateway.Auth.Rotation

/-!
# What pairing operations do to other pairs

A completion or an unpairing acts on one pair and leaves the rows and credentials of every
other pair alone. Two of its writes go by device: the phone's key, and the refresh tokens of
a phone that is replaced. Another pair sees these where it shares the phone.
-/

namespace SecureGateway.Auth
open Authstore Prog
open E2ee (Bytes)

/- The pair the call acts on: its token was consumed for it, or its status was set. -/
def actsOn (e : Event) : Option String := ((spentBy e).map Prod.snd).or (restatused e)

def Acted (log : List Event) (pairID : String) : Prop := ∃ e ∈ log, actsOn e = some pairID

def StoredIn (log : List Event) (deviceID : String) : Prop :=
  ∃ e ∈ log, ∃ d, storedDevice e = some d ∧ d.id=deviceID

/- The calls have put another phone in the place that the device had in a pairing. -/
def Evicted (s₀ : Store) (log : List Event) (deviceID : String) : Prop :=
  ∃ p mobileID, s₀.pairings.get p.pairID = some p ∧ p.mobileDeviceID=deviceID ∧
    mobileID ≠ deviceID ∧ ∃ e ∈ log, rewrote e = some (p.pairID,mobileID)

section
variable {log l : List Event} {s₀ : Store} {id : String}

theorem Acted.mono (h : Acted log id) (hl : log <:+ l) : Acted l id := by
  obtain ⟨e,he,hid⟩:=h
  exact ⟨e,hl.subset he,hid⟩

theorem StoredIn.mono (h : StoredIn log id) (hl : log <:+ l) : StoredIn l id := by
  obtain ⟨e,he,hd⟩:=h
  exact ⟨e,hl.subset he,hd⟩

theorem Evicted.mono (h : Evicted s₀ log id) (hl : log <:+ l) : Evicted s₀ l id := by
  obtain ⟨p,mobileID,hp,hid,hne,e,he,hr⟩:=h
  exact ⟨p,mobileID,hp,hid,hne,e,hl.subset he,hr⟩

theorem acted_of_spent {tokenID pairID : String} (h : Spent tokenID log pairID) :
    Acted log pairID := by
  obtain ⟨pt,t,-,hsaw⟩:=h
  exact ⟨_,hsaw,rfl⟩

end

/-- What a call of such a request can do to the store, where `log` ends with the
call. -/
inductive Touches (pub : Bytes) (s₀ : Store) (log : List Event) (s : Store) : Store → Prop
  | pairingTokens (t : Table PairingToken PairingToken.id) :
      Touches pub s₀ log s { s with pairingTokens := t }
  | device (d : Device) (hstored : StoredIn log d.id) (hkey : d.publicKey = some pub) :
      Touches pub s₀ log s { s with devices := s.devices.put d }
  | pairing (p : Pairing) (hacted : Acted log p.pairID) :
      Touches pub s₀ log s { s with pairings := s.pairings.put p }
  | credential (c : PairCredential) (hacted : Acted log c.pairID) :
      Touches pub s₀ log s { s with pairCredentials := s.pairCredentials.put c }
  | evicts (deviceID : String) (t : Time) (hevicted : Evicted s₀ log deviceID) :
      Touches pub s₀ log s (s.revokeRefreshTokensByDevice deviceID t)

section Call
variable {pub : Bytes} {s₀ s : Store} {log : List Event} {a : Answer} {op : Op} {w : World}

theorem Touches.same (pub : Bytes) (s₀ : Store) (log : List Event) (s : Store) :
    Touches pub s₀ log s s := .pairingTokens s.pairingTokens

theorem touches_perform {sop : StoreOp}
    (h : a.fault=false → Touches pub s₀ log w.store (w.store.exec ⟨w.clock,a.ties⟩ sop).2) :
    Touches pub s₀ log w.store (perform a (.store sop) w).2.store := by
  cases hf : a.fault with
  | true =>
    simp only [perform,hf,if_true]
    exact .same pub s₀ log w.store
  | false =>
    simp only [perform,hf]
    exact h hf

theorem touches_reads {m : Moment} {sop : StoreOp} (h : sop.reads=true) :
    Touches pub s₀ log s (s.exec m sop).2 := by
  rw [Store.exec_reads s m h]
  exact .same pub s₀ log s

theorem touches_consume (id pairID : String) (t : Time) :
    Touches pub s₀ log s (s.consumePairingToken id pairID t).2 := by
  unfold Store.consumePairingToken
  split
  · split
    · exact .same pub s₀ log s
    · exact .pairingTokens _
  · exact .same pub s₀ log s

theorem touches_create (p : Pairing) (maxPairs : ℕ) (hacted : Acted log p.pairID) :
    Touches pub s₀ log s (s.createPairingWithinCapacity p maxPairs).2 := by
  unfold Store.createPairingWithinCapacity
  split
  · exact .same pub s₀ log s
  split
  · exact .same pub s₀ log s
  · exact .pairing p hacted

theorem touches_modify (pairID : String) (f : Pairing → Pairing) (hf : ∀ p,(f p).pairID=p.pairID)
    (hacted : (s.modifyPairing pairID f).1 = .ok () → Acted log pairID) :
    Touches pub s₀ log s (s.modifyPairing pairID f).2 := by
  unfold Store.modifyPairing at hacted ⊢
  split
  · next p hp =>
    have hid : (f p).pairID=pairID := (hf p).trans (Table.key_of_get hp)
    rw [hp] at hacted
    exact .pairing (f p) (hid ▸ hacted rfl)
  · exact .same pub s₀ log s

theorem touches_revokeCredential (pairID : String) (t : Time) (hacted : Acted log pairID) :
    Touches pub s₀ log s (s.revokePairCredential pairID t) := by
  unfold Store.revokePairCredential
  split
  · next c hc =>
    split
    · obtain rfl : c.pairID=pairID := Table.key_of_get hc
      exact .credential { c with revokedAt := t } hacted
    · exact .same pub s₀ log s
  · exact .same pub s₀ log s

theorem touches_upsert (d : Device) (hstored : StoredIn log d.id) (hkey : d.publicKey=some pub) :
    Touches pub s₀ log s (s.upsertDevice d) := by
  unfold Store.upsertDevice
  rw [hkey]
  exact .device d hstored hkey

theorem touches_completing {tokenID : String} (hok : Completing tokenID pub log op)
    (hlisted : ∀ p,Listed log p → s₀.pairings.get p.pairID=some p) :
    Touches pub s₀ (⟨op,(perform a op w).1⟩::log) w.store (perform a op w).2.store := by
  have hl : log <:+ (⟨op,(perform a op w).1⟩::log : List Event) := List.suffix_cons _ _
  cases op with
  | store sop =>
    refine touches_perform fun hf => ?_
    cases sop with
    | consumePairingToken id pairID t => exact touches_consume id pairID t
    | upsertDevice d =>
      refine touches_upsert d ⟨_,List.mem_cons_self,d,?_,rfl⟩ hok.1
      simp [perform,hf,Store.exec,storedDevice]
    | updatePairingDevices pairID mobileID desktopID =>
      exact touches_modify pairID _ (fun _ => rfl) fun _ => (acted_of_spent hok.1).mono hl
    | createPairingWithinCapacity p maxPairs =>
      exact touches_create p maxPairs ((acted_of_spent hok.1).mono hl)
    | revokeRefreshTokensByDevice id t =>
      obtain ⟨p,mobileID,hp,hid,hne,hr⟩:=hok
      have hevicted : Evicted s₀ log id := ⟨p,mobileID,hlisted p hp,hid,hne,hr⟩
      exact .evicts id t (hevicted.mono hl)
    | putPairCredential c => exact .credential c ((acted_of_spent hok).mono hl)
    | _ => exact touches_reads (by first | exact hok | rfl)
  | _ => exact .same pub s₀ _ w.store

theorem touches_unpairing (hok : Unpairing log op) :
    Touches pub s₀ (⟨op,(perform a op w).1⟩::log) w.store (perform a op w).2.store := by
  cases op with
  | store sop =>
    refine touches_perform fun hf => ?_
    cases sop with
    | setPairingStatus pairID status =>
      refine touches_modify pairID _ (fun _ => rfl) fun hset => ⟨_,List.mem_cons_self,?_⟩
      have hreply : (perform a (.store (.setPairingStatus pairID status)) w).1 = .ok () := by
        simp only [perform,hf]
        exact hset
      rw [hreply]
      rfl
    | revokePairCredential pairID t =>
      exact touches_revokeCredential pairID t ⟨_,List.mem_cons_of_mem _ hok,rfl⟩
    | _ => exact touches_reads hok
  | _ => exact .same pub s₀ _ w.store

end Call

/-- What has become of the store `s₀` after the calls in `log`. -/
structure Untouched (pub : Bytes) (s₀ : Store) (log : List Event) (s : Store) : Prop where
  pairing : ∀ pairID, ¬ Acted log pairID → s.pairings.get pairID = s₀.pairings.get pairID
  credential : ∀ pairID, ¬ Acted log pairID →
    s.pairCredentials.get pairID = s₀.pairCredentials.get pairID
  device : ∀ id, s.devices.get id = s₀.devices.get id ∨
    StoredIn log id ∧ ∃ d, s.devices.get id = some d ∧ d.publicKey = some pub
  token : ∀ id, s.refreshTokens.get id = s₀.refreshTokens.get id ∨
    ∃ rt t, s₀.refreshTokens.get id = some rt ∧ Evicted s₀ log rt.deviceID ∧
      s.refreshTokens.get id = some { rt with revokedAt := t }

section Run
variable {pub : Bytes} {s₀ s s' : Store} {log l : List Event}

theorem untouched_start (pub : Bytes) (s₀ : Store) : Untouched pub s₀ [] s₀ where
  pairing _ _ := rfl
  credential _ _ := rfl
  device _ := .inl rfl
  token _ := .inl rfl

theorem Untouched.grow (h : Untouched pub s₀ log s) (hl : log <:+ l) : Untouched pub s₀ l s where
  pairing pairID hid := h.pairing pairID fun hacted => hid (hacted.mono hl)
  credential pairID hid := h.credential pairID fun hacted => hid (hacted.mono hl)
  device id := (h.device id).imp_right fun hd => ⟨hd.1.mono hl,hd.2⟩
  token id := by
    rcases h.token id with hsame | ⟨rt,t,hrt,hevicted,hget⟩
    · exact .inl hsame
    · exact .inr ⟨rt,t,hrt,hevicted.mono hl,hget⟩

theorem Untouched.revoke (h : Untouched pub s₀ log s) {deviceID : String} (t : Time)
    (hevicted : Evicted s₀ log deviceID) :
    Untouched pub s₀ log (s.revokeRefreshTokensByDevice deviceID t) := by
  refine ⟨h.pairing,h.credential,h.device,fun id => ?_⟩
  rw [get_revokeByDevice]
  rcases h.token id with hsame | ⟨rt,t',hrt,hold,hget⟩
  · cases hrow : s.refreshTokens.get id with
    | none => exact .inl (hrow.symm.trans hsame)
    | some rt =>
      rw [hrow] at hsame
      rw [Option.map_some]
      split
      · next hdevice => exact .inr ⟨rt,t,hsame.symm,hdevice.1 ▸ hevicted,rfl⟩
      · exact .inl hsame
  · rw [hget,Option.map_some]
    split
    · exact .inr ⟨rt,t,hrt,hold,rfl⟩
    · exact .inr ⟨rt,t',hrt,hold,rfl⟩

theorem Untouched.step (h : Untouched pub s₀ log s) (ht : Touches pub s₀ log s s') :
    Untouched pub s₀ log s' := by
  cases ht with
  | pairingTokens t => exact ⟨h.pairing,h.credential,h.device,h.token⟩
  | device d hstored hkey =>
    refine ⟨h.pairing,h.credential,fun id => ?_,h.token⟩
    by_cases hid : d.id=id
    · subst hid
      exact .inr ⟨hstored,d,s.devices.get_put_self d,hkey⟩
    · rw [Table.get_put_ne _ d hid]
      exact h.device id
  | pairing p hacted =>
    refine ⟨fun pairID hid => ?_,h.credential,h.device,h.token⟩
    have hne : p.pairID≠pairID := fun heq => hid (heq ▸ hacted)
    rw [Table.get_put_ne _ p hne]
    exact h.pairing pairID hid
  | credential c hacted =>
    refine ⟨h.pairing,fun pairID hid => ?_,h.device,h.token⟩
    have hne : c.pairID≠pairID := fun heq => hid (heq ▸ hacted)
    rw [Table.get_put_ne _ c hne]
    exact h.credential pairID hid
  | evicts deviceID t hevicted => exact h.revoke t hevicted

end Run

structure Reading (s₀ : Store) (log : List Event) (s : Store) : Prop where
  unwritten : Never rewrote log → s.pairings=s₀.pairings
  listed : ∀ p, Listed log p → s₀.pairings.get p.pairID = some p

theorem reading_start (s₀ : Store) : Reading s₀ [] s₀ where
  unwritten _ := rfl
  listed p hp := by
    obtain ⟨licenseID,ps,hsaw,-⟩:=hp
    cases hsaw

section Reading
variable {tokenID : String} {pub : Bytes} {s₀ : Store} {log : List Event} {a : Answer} {op : Op}
  {w : World}

theorem pairings_of_not_rewrote (hok : Completing tokenID pub log op)
    (hr : rewrote ⟨op,(perform a op w).1⟩=none) :
    (perform a op w).2.store.pairings=w.store.pairings := by
  cases op with
  | store sop =>
    cases sop with
    | createPairingWithinCapacity p maxPairs =>
      cases hreply : (perform a (.store (.createPairingWithinCapacity p maxPairs)) w).1 with
      | error e => rw [perform_error hreply]
      | ok u =>
        rw [hreply] at hr
        cases hr
    | updatePairingDevices pairID mobileID desktopID =>
      cases hreply : (perform a (.store (.updatePairingDevices pairID mobileID desktopID)) w).1 with
      | error e => rw [perform_error hreply]
      | ok u =>
        rw [hreply] at hr
        cases hr
    | createPairing p => cases hok
    | setPairingStatus pairID status => cases hok
    | _ => exact (perform_frame a _ w).2.2.1 rfl
  | _ => rfl

theorem Reading.called (h : Reading s₀ log w.store) (hok : Completing tokenID pub log op) :
    Reading s₀ (⟨op,(perform a op w).1⟩::log) (perform a op w).2.store where
  unwritten hnever := by
    obtain ⟨hhere,hbefore⟩:=List.forall_mem_cons.1 hnever
    exact (pairings_of_not_rewrote hok hhere).trans (h.unwritten hbefore)
  listed p hp := by
    obtain ⟨licenseID,ps,hsaw,hmem⟩:=hp
    rcases saw_perform hsaw with ⟨rfl,hexec⟩ | hold
    · -- the list was read before the completion wrote a pairing
      cases hexec
      rw [← h.unwritten hok]
      exact (Table.mem_list.1 hmem).1
    · exact h.listed p ⟨licenseID,ps,hold,hmem⟩

end Reading

def pairingOperation : Request → Bool
  | .completePairing _ | .unpair _ _ => true
  | _ => false

def submitted (srv : Service) : Request → Bytes
  | .completePairing (some req) => req.key srv
  | _ => []

def callsOf (srv : Service) (w : World) (r : Request × List Answer) : List Event :=
  logAfter answer (handle srv r.1) (w,r.2) []

theorem once_completing {tokenID : String} {pub : Bytes} {log : List Event} {op : Op} (r : op.Rep)
    (h : Once actsOn log ∧ Never restatused log) (hok : Completing tokenID pub log op) :
    Once actsOn (⟨op,r⟩::log) ∧ Never restatused (⟨op,r⟩::log) := by
  have hstatus : restatused ⟨op,r⟩=none := by
    cases op with
    | store sop => cases sop <;> first | rfl | cases hok
    | _ => rfl
  refine ⟨h.1.cons ?_,h.2.cons hstatus⟩
  cases op with
  | store sop =>
    cases sop with
    | consumePairingToken id pairID t =>
      refine .inr fun e he => ?_
      simp [actsOn,hok.2.1 e he,h.2 e he]
    | setPairingStatus pairID status => cases hok
    | _ => exact .inl rfl
  | _ => exact .inl rfl

theorem once_unpairing {log : List Event} {op : Op} (r : op.Rep)
    (h : Once actsOn log ∧ Never spentBy log) (hok : Unpairing log op) :
    Once actsOn (⟨op,r⟩::log) ∧ Never spentBy (⟨op,r⟩::log) := by
  have hspent : spentBy ⟨op,r⟩=none := by
    cases op with
    | store sop => cases sop <;> first | rfl | cases hok
    | _ => rfl
  refine ⟨h.1.cons ?_,h.2.cons hspent⟩
  cases op with
  | store sop =>
    cases sop with
    | setPairingStatus pairID status =>
      refine .inr fun e he => ?_
      simp [actsOn,hok.2 e he,h.2 e he]
    | consumePairingToken id pairID t => cases hok
    | _ => exact .inl rfl
  | _ => exact .inl rfl

theorem untouched_next (srv : Service) (w : World) (r : Request × List Answer)
    (hr : pairingOperation r.1=true) :
    Untouched (submitted srv r.1) w.store (callsOf srv w r) (next srv w r).store ∧
      Once actsOn (callsOf srv w r) := by
  obtain ⟨r,as⟩:=r
  cases r with
  | completePairing req =>
    rcases req with _ | req
    · exact ⟨untouched_start _ _,once_nil actsOn⟩
    have hobeys : Obeys (Completing (srv.hashSecret req.pairingToken) (req.key srv))
        (fun _ l => True ∧ Once actsOn l ∧ Never restatused l) []
        (handle srv (.completePairing (some req))) :=
      obeys_log (fun _ _ r hl hop => once_completing r hl hop) (handle_completing srv req)
        ⟨once_nil actsOn,by simp [Never]⟩
    obtain ⟨hinv,-,honce,-⟩:=run_obeys answer _
      (fun l x => Untouched (req.key srv) w.store l x.1.store ∧ Reading w.store l x.1.store)
      (fun l op x hx hop => ⟨(hx.1.grow (List.suffix_cons _ _)).step
        (touches_completing hop hx.2.listed),hx.2.called hop⟩)
      _ _ [] (w,as) hobeys ⟨untouched_start _ _,reading_start _⟩
    exact ⟨hinv.1,honce⟩
  | unpair authorization pairID =>
    have hhandle : Makes Unpairing [] (handle srv (.unpair authorization pairID)) :=
      obeys_seq (handleUnpair_unpairing srv authorization pairID) fun _ _ _ _ => trivial
    have hobeys : Obeys Unpairing (fun _ l => True ∧ Once actsOn l ∧ Never spentBy l) []
        (handle srv (.unpair authorization pairID)) :=
      obeys_log (fun _ _ r hl hop => once_unpairing r hl hop) hhandle
        ⟨once_nil actsOn,by simp [Never]⟩
    obtain ⟨hinv,-,honce,-⟩:=run_obeys answer _
      (fun l x => Untouched [] w.store l x.1.store)
      (fun l op x hx hop => (hx.grow (List.suffix_cons _ _)).step (touches_unpairing hop))
      _ _ [] (w,as) hobeys (untouched_start _ _)
    exact ⟨hinv,honce⟩
  | _ => cases hr

/-- A completion or unpairing, with any calls of it failing: it acts on one pair at
most. Every other pair keeps its row and its credential, every device keeps its key
unless it is the phone the request stores with the submitted key, and every refresh
token stays as it is unless the request has evicted its device from the pair. -/
theorem other_pairs_untouched (srv : Service) (w : World) (r : Request × List Answer)
    (hr : pairingOperation r.1 = true) :
    let log := callsOf srv w r
    let s' := (next srv w r).store
    (∀ pairID pairID', Acted log pairID → Acted log pairID' → pairID=pairID') ∧
    (∀ pairID, ¬ Acted log pairID →
      s'.pairings.get pairID = w.store.pairings.get pairID ∧
      s'.pairCredentials.get pairID = w.store.pairCredentials.get pairID) ∧
    (∀ id d, w.store.devices.get id = some d → ∃ d', s'.devices.get id = some d' ∧
      (d'.publicKey=d.publicKey ∨ StoredIn log id ∧ d'.publicKey = some (submitted srv r.1))) ∧
    ∀ id rt, ¬ Evicted w.store log rt.deviceID →
      (s'.refreshTokens.get id = some rt ↔ w.store.refreshTokens.get id = some rt) := by
  intro log s'
  obtain ⟨hkept,honce⟩ := untouched_next srv w r hr
  refine ⟨?_,fun pairID hid => ⟨hkept.pairing pairID hid,hkept.credential pairID hid⟩,?_,?_⟩
  · rintro pairID pairID' ⟨e,he,hid⟩ ⟨e',he',hid'⟩
    exact honce e he e' he' _ _ hid hid'
  · intro id d hd
    rcases hkept.device id with hsame | ⟨hstored,d',hd',hkey⟩
    · exact ⟨d,hsame.trans hd,.inl rfl⟩
    · exact ⟨d',hd',.inr ⟨hstored,hkey⟩⟩
  intro id rt hstays
  rcases hkept.token id with hsame | ⟨rt',t,hrt',hevicted,hget⟩
  · rw [hsame]
  -- the row is one of an evicted device, so it is not `rt`
  constructor
  · intro hrt
    rw [hget,Option.some.injEq] at hrt
    subst hrt
    exact absurd hevicted hstays
  · intro hrt
    rw [hrt',Option.some.injEq] at hrt
    subst hrt
    exact absurd hevicted hstays

/- Two desktops of an account, each paired with the phone `dev_m`, which has a refresh
token for the second pair; the first desktop asks for another pairing. -/
def sharedPhone : List (Request × List Answer) :=
  [(.webhook (some ⟨"evt_1",.customerSubscriptionCreated (some roomySubscription)⟩) true,
      drawing "a"),
    (.createAccount "Bearer root" (some "acct_a"),drawing "s"),
    (.registerDevice "Bearer acct_a.s" (some { role := "desktop", publicKey := "AQ==" }),
      drawing "d"),
    (.registerDevice "Bearer acct_a.s" (some { role := "desktop", publicKey := "AQ=" }),
      drawing "e"),
    (.createPairingToken "Bearer acct_a.s"
      (some { licenseID := "lic_a", desktopDeviceID := "dev_d" }),drawing "p"),
    (.createPairingToken "Bearer acct_a.s"
      (some { licenseID := "lic_a", desktopDeviceID := "dev_e" }),drawing "q"),
    (.completePairing (some { pairingToken := "pt_p", mobilePublicKey := "A" }),drawing "m"),
    (.completePairing
      (some { pairingToken := "pt_q", mobileDeviceID := "dev_m", mobilePublicKey := "A" }),
      drawing "n"),
    (.issueToken "Bearer pair_n.n" (some { deviceID := "dev_m", pairID := "pair_n" }),drawing "t"),
    (.createPairingToken "Bearer acct_a.s"
      (some { licenseID := "lic_a", desktopDeviceID := "dev_d" }),drawing "r")]

def sharedPhoneWorld : World := Machine.run (next sampleService) {} sharedPhone

def replacing : Request × List Answer :=
  (.completePairing (some { pairingToken := "pt_r", mobilePublicKey := "AQ" }),drawing "o")

def rekeying : Request × List Answer :=
  (.completePairing
    (some { pairingToken := "pt_r", mobileDeviceID := "dev_m", mobilePublicKey := "AQ" }),
    drawing "o")

theorem other_pairs_untouched_replacing :
    (next sampleService sharedPhoneWorld replacing).store.pairings.get "pair_n" =
        sharedPhoneWorld.store.pairings.get "pair_n" ∧
      (next sampleService sharedPhoneWorld replacing).store.pairCredentials.get "pair_n" =
        sharedPhoneWorld.store.pairCredentials.get "pair_n" := by
  refine (other_pairs_untouched sampleService sharedPhoneWorld replacing rfl).2.1 "pair_n" ?_
  unfold Acted
  decide +kernel

theorem shared_phone_touched :
    let s := sharedPhoneWorld.store
    let replaced := (next sampleService sharedPhoneWorld replacing).store
    let rekeyed := (next sampleService sharedPhoneWorld rekeying).store
    (∃ e ∈ callsOf sampleService sharedPhoneWorld replacing, actsOn e = some "pair_m") ∧
    (∃ e ∈ callsOf sampleService sharedPhoneWorld rekeying, actsOn e = some "pair_m") ∧
    (s.pairings.get "pair_n").map (fun p => (p.accountID,p.status,p.mobileDeviceID)) =
      some ("acct_a",.active,"dev_m") ∧
    (s.refreshTokens.get "#rt_t").map (fun rt => (rt.pairID,rt.revokedAt == 0)) =
      some ("pair_n",true) ∧
    (replaced.refreshTokens.get "#rt_t").map (fun rt => (rt.pairID,rt.revokedAt == 0)) =
      some ("pair_n",false) ∧
    (s.devices.get "dev_m").map Device.publicKey = some (some [1]) ∧
    (rekeyed.devices.get "dev_m").map Device.publicKey = some (some [2]) := by
  decide +kernel

end SecureGateway.Auth
