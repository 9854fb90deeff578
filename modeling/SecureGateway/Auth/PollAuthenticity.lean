import SecureGateway.Auth.Isolation

/-!
# Whose key a poll reports

A poll of a consumed token looks up the pair the token was consumed for, the phone
of that pair, and the key of that phone, as they are now. Once a completion has written
the pair that is the key it submitted, whether or not it could store a credential too. It
stays so until another completion gives the pair another phone or stores another key for
the phone's device.
-/

namespace SecureGateway.Auth
open Authstore Prog
open E2ee (Bytes)

/-- The token was consumed for the pair, which has this phone, which has this key. -/
structure Reports (tokenID pairID mobileID : String) (pub : Bytes) (s : Store) : Prop where
  token : ∃ pt, s.pairingTokens.get tokenID = some pt ∧ pt.consumedAt≠0 ∧ pt.resultPairID=pairID
  phone : ∃ p, s.pairings.get pairID = some p ∧ p.mobileDeviceID=mobileID
  key : ∃ d, s.devices.get mobileID = some d ∧ d.publicKey = some pub

section Poll
variable {srv : Service} {log : List Event}

def ReadBack (srv : Service) (tokenID : String) (log : List Event) (pairID key : String) : Prop :=
  ∃ pt p d, Saw log (.getPairingToken tokenID) (.ok pt) ∧ pt.resultPairID=pairID ∧
    Saw log (.getPairing pairID) (.ok p) ∧ Saw log (.getDevice p.mobileDeviceID) (.ok d) ∧
    key = srv.base64Encode d.key

theorem handlePollPairingToken_readBack (authorization text : String) :
    Obeys Polls (fun res l => ∀ pairID key,res = .ok (.completed pairID key) →
        ReadBack srv (srv.hashSecret text) l pairID key) log
      (handlePollPairingToken srv authorization (some text)) := by
  have hauth : Makes Polls log (authenticateAccount srv authorization) :=
    obeys_weaken (authenticateAccount_checks authorization) fun _ _ _ hop => Op.polls_of_checks hop
  refine obeys_seq hauth fun r l _ _ => ?_
  rcases r with _ | accountID
  · exact obeys_pure (by simp)
  refine obeys_ite (fun _ => obeys_pure (by simp)) fun _ =>
    obeys_stored rfl (fun pt => ?_) fun _ => obeys_pure (by simp)
  refine obeys_ite (fun _ => obeys_pure (by simp)) fun _ => obeys_ite (fun _ => ?_) fun _ => ?_
  · refine obeys_stored rfl (fun p => ?_) fun _ => obeys_pure (by simp)
    refine obeys_stored rfl (fun d => ?_) fun _ => obeys_pure (by simp)
    refine obeys_pure ?_
    intro pairID key heq
    cases heq
    exact ⟨pt,p,d,(saw_head _ _ _).tail.tail,rfl,(saw_head _ _ _).tail,saw_head _ _ _,rfl⟩
  · refine obeys_step rfl fun t => obeys_pure ?_
    intro pairID key heq
    split at heq <;> cases heq

structure Consulted (s : Store) (log : List Event) (x : World × List Answer) : Prop where
  store : x.1.store=s
  read : ∀ (sop : StoreOp) (y : sop.Out), Saw log sop (.ok y) → ∃ m, (s.exec m sop).1 = .ok y

theorem Consulted.next {s : Store} {x : World × List Answer} {op : Op} (h : Consulted s log x)
    (hop : op.polls=true) : Consulted s (⟨op,(answer op x).1⟩::log) (answer op x).2 where
  store := by
    cases op with
    | store sop =>
      have hreads : sop.reads=true := by cases sop <;> first | rfl | cases hop
      exact (perform_read _ sop x.1 (Store.exec_reads _ _ hreads)).trans h.store
    | _ => exact h.store
  read sop y hsaw := by
    rcases saw_perform hsaw with ⟨rfl,hexec⟩ | hold
    · exact ⟨_,h.store ▸ hexec⟩
    · exact h.read sop y hold

theorem poll_of_reports {authorization text pairID mobileID reported key : String} {pub : Bytes}
    {as : List Answer} {w : World} (h : Reports (srv.hashSecret text) pairID mobileID pub w.store)
    (hpoll : (serve (handlePollPairingToken srv authorization (some text)) as w).1 =
      .ok (.completed reported key)) : reported=pairID ∧ key=srv.base64Encode pub := by
  have hobeys : Obeys Polls (fun res l => ∀ pairID key,res = .ok (.completed pairID key) →
      ReadBack srv (srv.hashSecret text) l pairID key) []
      (handlePollPairingToken srv authorization (some text)) :=
    handlePollPairingToken_readBack authorization text
  obtain ⟨⟨-,hread⟩,hpost⟩:=run_obeys answer Polls (fun l x => Consulted w.store l x)
    (fun _ _ _ hx hop => hx.next hop) _ _ [] (w,as) hobeys ⟨rfl,fun _ _ hsaw => by cases hsaw⟩
  obtain ⟨pt,p,d,htoken,rfl,hpairing,hdevice,hkey⟩:=hpost reported key hpoll
  obtain ⟨⟨pt',hpt',-,hpair'⟩,⟨p',hp',hmobile⟩,⟨d',hd',hpub⟩⟩:=h
  -- what the poll has read is what `Reports` says is there
  obtain rfl : pt=pt' := by
    obtain ⟨t,hexec⟩:=hread _ _ htoken
    exact Option.some.inj (((Store.found_eq_ok _ _).1 hexec).symm.trans hpt')
  obtain rfl : p=p' := by
    obtain ⟨t,hexec⟩:=hread _ _ hpairing
    rw [hpair'] at hexec
    exact Option.some.inj (((Store.found_eq_ok _ _).1 hexec).symm.trans hp')
  obtain rfl : d=d' := by
    obtain ⟨t,hexec⟩:=hread _ _ hdevice
    rw [hmobile] at hexec
    exact Option.some.inj (((Store.found_eq_ok _ _).1 hexec).symm.trans hd')
  refine ⟨hpair',?_⟩
  rw [hkey,Device.key,hpub]
  rfl

end Poll

/- The call gives the pair no other phone and the phone's device no other key. -/
def leaves (pairID mobileID : String) (pub : Bytes) (e : Event) : Bool :=
  (rewrote e).all (fun x => x.1 != pairID || x.2 == mobileID) &&
    (storedDevice e).all fun d => d.id != mobileID || d.publicKey.all (· == pub)

section Kept
variable {a : Answer} {op : Op} {w : World}

theorem device_same {id : String} {d : Device} (h : w.store.devices.get id=some d) :
    (perform a op w).2.store.devices.get id=some d ∨
      ∃ d',storedDevice ⟨op,(perform a op w).1⟩=some d' ∧ d'.id=id := by
  rcases perform_writes a op w with hsame | ⟨sop,rfl,hw⟩
  · rw [hsame]
    exact .inl h
  cases hr : (perform a (.store sop) w).1 with
  | error e =>
    rw [perform_error hr]
    exact .inl h
  | ok x =>
    generalize (perform a (.store sop) w).2.store=s' at hw
    cases hw with
    | device d' publicKey =>
      by_cases hid : d'.id=id
      · exact .inr ⟨d',rfl,hid⟩
      · exact .inl ((Table.get_put_ne _ { d' with publicKey := publicKey } hid).trans h)
    | _ => exact .inl h

/- An upsert without a key keeps the one that is stored. -/
theorem key_same {id : String} {pub : Bytes}
    (h : ∃ d,w.store.devices.get id=some d ∧ d.publicKey=some pub)
    (hstored : ∀ d,storedDevice ⟨op,(perform a op w).1⟩=some d → d.id=id →
      ∀ key,d.publicKey=some key → key=pub) :
    ∃ d,(perform a op w).2.store.devices.get id=some d ∧ d.publicKey=some pub := by
  obtain ⟨d,hd,hpub⟩:=h
  have hkept : (perform a op w).2.store.devices.get id=some d ∨ _ := device_same hd
  rcases hkept with hsame | ⟨d',hd',rfl⟩
  · exact ⟨d,hsame,hpub⟩
  obtain ⟨d₁,hd₁,hkey⟩:=storedDevice_perform hd'
  refine ⟨d₁,hd₁,?_⟩
  rw [hkey,hd]
  cases hnew : d'.publicKey with
  | none => exact hpub
  | some key => rw [hstored d' hd' rfl key hnew,Option.some_or]

theorem Reports.called {tokenID pairID mobileID : String} {pub : Bytes}
    (h : Reports tokenID pairID mobileID pub w.store)
    (hleaves : leaves pairID mobileID pub ⟨op,(perform a op w).1⟩=true) :
    Reports tokenID pairID mobileID pub (perform a op w).2.store := by
  simp only [leaves,Bool.and_eq_true] at hleaves
  obtain ⟨⟨pt,hpt,hconsumed,hpair⟩,⟨p,hp,hmobile⟩,hkey⟩:=h
  refine ⟨⟨pt,consumed_kept hpt hconsumed,hconsumed,hpair⟩,?_,key_same hkey ?_⟩
  · have hkept : ∃ p',(perform a op w).2.store.pairings.get pairID=some p' ∧ _ := pairing_kept hp
    obtain ⟨p',hp',hsame | hrewrote⟩:=hkept
    · exact ⟨p',hp',hsame.trans hmobile⟩
    · simp only [hrewrote,Option.all_some,bne_self_eq_false,Bool.false_or,beq_iff_eq] at hleaves
      exact ⟨p',hp',hleaves.1⟩
  · intro d hd hid key hpub
    simpa [hd,hid,hpub] using hleaves.2

end Kept

section Requests
variable {srv : Service} {tokenID pairID mobileID : String} {pub : Bytes}

theorem Reports.next {w : World} {r : Request × List Answer}
    (h : Reports tokenID pairID mobileID pub w.store)
    (hleaves : (callsOf srv w r).all (leaves pairID mobileID pub)=true) :
    Reports tokenID pairID mobileID pub (next srv w r).store := by
  obtain ⟨hinv,-⟩:=run_obeys answer (fun _ _ => True)
    (fun l x => (∀ e∈l,leaves pairID mobileID pub e=true) →
      Reports tokenID pairID mobileID pub x.1.store)
    (fun l op x hx _ hall => (hx fun e he => hall e (List.mem_cons_of_mem _ he)).called
      (hall _ List.mem_cons_self))
    _ _ [] (w,r.2) (obeys_any [] (handle srv r.1)) (fun _ => h)
  exact hinv (List.all_eq_true.1 hleaves)

theorem Reports.run {w : World} {later : List (Request × List Answer)}
    (h : Reports tokenID pairID mobileID pub w.store)
    (hlater : Machine.Guarded (Auth.next srv)
      (fun w r => (callsOf srv w r).all (leaves pairID mobileID pub)=true) w later) :
    Reports tokenID pairID mobileID pub (Machine.run (Auth.next srv) w later).store :=
  Machine.guarded_invariant (Auth.next srv) _
    (fun w => Reports tokenID pairID mobileID pub w.store) (fun _ _ h hr => h.next hr) w later h
    hlater

end Requests

/-- What a completion has brought about. -/
structure Brought (tokenID : String) (pub : Bytes) (log : List Event) (s : Store) : Prop where
  read : ∀ hash pt, Saw log (.getPairingToken hash) (.ok pt) → pt.id=hash
  spent : ∀ e ∈ log, ∀ id pairID, spentBy e = some (id,pairID) →
    ∃ pt, s.pairingTokens.get id = some pt ∧ pt.consumedAt≠0 ∧ pt.resultPairID=pairID
  wrote : ∀ e ∈ log, ∀ pairID mobileID, rewrote e = some (pairID,mobileID) →
    (Spent tokenID log pairID ∧ Keyed pub log mobileID) ∧
      ∃ p, s.pairings.get pairID = some p ∧ p.mobileDeviceID=mobileID
  stored : ∀ e ∈ log, ∀ d, storedDevice e = some d →
    ∃ d', s.devices.get d.id = some d' ∧ d'.publicKey = some pub

section Completion
variable {tokenID : String} {pub : Bytes} {log : List Event} {a : Answer} {op : Op} {w : World}

theorem brought_start (tokenID : String) (pub : Bytes) (s : Store) : Brought tokenID pub [] s where
  read hash pt hsaw := by cases hsaw
  spent e he := by cases he
  wrote e he := by cases he
  stored e he := by cases he

/- A completion writes one pairing, once the token is spent and the key is stored. -/
theorem Completing.rewrote {r : op.Rep} {pairID mobileID : String}
    (hok : Completing tokenID pub log op) (h : rewrote ⟨op,r⟩=some (pairID,mobileID)) :
    Never Auth.rewrote log ∧ Spent tokenID log pairID ∧ Keyed pub log mobileID := by
  cases op with
  | store sop =>
    cases sop with
    | createPairingWithinCapacity p maxPairs =>
      cases r with
      | error e => cases h
      | ok u =>
        cases h
        exact ⟨hok.2.2.1,hok.1,hok.2.1⟩
    | updatePairingDevices id mobile desktop =>
      cases r with
      | error e => cases h
      | ok u =>
        cases h
        exact ⟨hok.2.2.1,hok.1,hok.2.1⟩
    | _ => cases h
  | _ => cases h

theorem key_of_stored {r : op.Rep} {d : Device} (hok : Completing tokenID pub log op)
    (h : storedDevice ⟨op,r⟩=some d) : d.publicKey=some pub := by
  cases op with
  | store sop =>
    cases sop with
    | upsertDevice d' =>
      cases r with
      | error e => cases h
      | ok u =>
        cases h
        exact hok.1
    | _ => cases h
  | _ => cases h

theorem Brought.spent_called (h : Brought tokenID pub log w.store) (hdated : op.dated=true)
    (e : Event) (he : e∈⟨op,(perform a op w).1⟩::log) (id pairID : String)
    (hs : spentBy e=some (id,pairID)) :
    ∃ pt,(perform a op w).2.store.pairingTokens.get id=some pt ∧ pt.consumedAt≠0 ∧
      pt.resultPairID=pairID := by
  rcases List.mem_cons.1 he with rfl | hold
  · obtain ⟨t,pt,rfl,-,-,hget⟩:=spentBy_perform hs
    exact ⟨_,hget,by simpa [Op.dated] using hdated,rfl⟩
  · obtain ⟨pt,hpt,hconsumed,hpair⟩:=h.spent e hold id pairID hs
    exact ⟨pt,consumed_kept hpt hconsumed,hconsumed,hpair⟩

theorem Brought.wrote_called (h : Brought tokenID pub log w.store)
    (hok : Completing tokenID pub log op) (e : Event) (he : e∈⟨op,(perform a op w).1⟩::log)
    (pairID mobileID : String) (hr : rewrote e=some (pairID,mobileID)) :
    (Spent tokenID (⟨op,(perform a op w).1⟩::log) pairID ∧
        Keyed pub (⟨op,(perform a op w).1⟩::log) mobileID) ∧
      ∃ p,(perform a op w).2.store.pairings.get pairID=some p ∧ p.mobileDeviceID=mobileID := by
  have hl : log <:+ (⟨op,(perform a op w).1⟩::log : List Event) := List.suffix_cons _ _
  rcases List.mem_cons.1 he with rfl | hold
  · obtain ⟨-,hspent,hkeyed⟩:=hok.rewrote hr
    exact ⟨⟨hspent.mono hl,hkeyed.mono hl⟩,rewrote_perform hr⟩
  obtain ⟨⟨hspent,hkeyed⟩,p,hp,rfl⟩:=h.wrote e hold pairID mobileID hr
  refine ⟨⟨hspent.mono hl,hkeyed.mono hl⟩,?_⟩
  have hkept : ∃ p',(perform a op w).2.store.pairings.get pairID=some p' ∧ _ := pairing_kept hp
  obtain ⟨p',hp',hsame | hagain⟩:=hkept
  · exact ⟨p',hp',hsame⟩
  · rw [(hok.rewrote hagain).1 e hold] at hr
    cases hr

theorem Brought.stored_called (h : Brought tokenID pub log w.store)
    (hok : Completing tokenID pub log op) (e : Event) (he : e∈⟨op,(perform a op w).1⟩::log)
    (d : Device) (hs : storedDevice e=some d) :
    ∃ d',(perform a op w).2.store.devices.get d.id=some d' ∧ d'.publicKey=some pub := by
  rcases List.mem_cons.1 he with rfl | hold
  · obtain ⟨d',hd',hkey⟩:=storedDevice_perform hs
    exact ⟨d',hd',by rw [hkey,key_of_stored hok hs,Option.some_or]⟩
  refine key_same (h.stored e hold d hs) fun d₁ h₁ _ key hkey => ?_
  rw [key_of_stored hok h₁,Option.some.injEq] at hkey
  exact hkey.symm

theorem Brought.called (h : Brought tokenID pub log w.store) (hok : Completing tokenID pub log op)
    (hdated : op.dated=true) :
    Brought tokenID pub (⟨op,(perform a op w).1⟩::log) (perform a op w).2.store where
  read hash pt hsaw := by
    rcases saw_perform hsaw with ⟨rfl,hexec⟩ | hold
    · exact Table.key_of_get ((Store.found_eq_ok _ _).1 hexec)
    · exact h.read hash pt hold
  spent := h.spent_called hdated
  wrote := h.wrote_called hok
  stored := h.stored_called hok

end Completion

/- The completion has written this pair with this phone, whatever it answered. -/
def Paired (srv : Service) (w : World) (req : CompletePairingReq) (as : List Answer)
    (pairID mobileID : String) : Prop :=
  ∃ e ∈ callsOf srv w (.completePairing (some req),as), rewrote e = some (pairID,mobileID)

theorem reports_of_paired {srv : Service} {req : CompletePairingReq} {as : List Answer} {w : World}
    {pairID mobileID : String} (hpaired : Paired srv w req as pairID mobileID)
    (hdated : ∀ e∈callsOf srv w (.completePairing (some req),as), e.1.dated=true) :
    Reports (srv.hashSecret req.pairingToken) pairID mobileID (req.key srv)
      (next srv w (.completePairing (some req),as)).store := by
  have hcalls (x : (World × List Answer) × Event)
      (hx : x∈trace answer (handle srv (.completePairing (some req))) (w,as)) :
      x.2.1.dated=true :=
    hdated x.2 (by simpa [callsOf,logAfter] using ⟨x.1.1,x.1.2,hx⟩)
  obtain ⟨hinv,-⟩:=run_guarded answer
    (Completing (srv.hashSecret req.pairingToken) (req.key srv))
    (fun l x => Brought (srv.hashSecret req.pairingToken) (req.key srv) l x.1.store)
    (fun _ op => op.dated=true) (fun _ _ _ hx hop hd => hx.called hop hd) _ _ [] (w,as)
    (handle_completing srv req) hcalls (brought_start _ _ _)
  obtain ⟨e,he,hwrote⟩:=hpaired
  obtain ⟨⟨⟨pt,t,hread,hspent⟩,⟨d,hstored,hid,-⟩⟩,hpairing⟩:=hinv.wrote e he _ _ hwrote
  refine ⟨?_,hpairing,?_⟩
  · have hid : pt.id=srv.hashSecret req.pairingToken := hinv.read _ pt hread
    exact hid ▸ hinv.spent _ hspent pt.id pairID rfl
  · exact hid ▸ hinv.stored _ hstored d rfl

/-- A completion that has written its pair, then any requests of which none gives the
pair another phone or the phone another key: a poll of the token that answers `completed`
reports that pair and the key the completion submitted. -/
theorem poll_reports_submitted_key (srv : Service) (w : World) (req : CompletePairingReq)
    (as : List Answer) (pairID mobileID : String) (hpaired : Paired srv w req as pairID mobileID)
    (hdated : ∀ e ∈ callsOf srv w (.completePairing (some req),as), e.1.dated = true)
    (later : List (Request × List Answer))
    (hlater : Machine.Guarded (next srv)
      (fun w r => (callsOf srv w r).all (leaves pairID mobileID (req.key srv)) = true)
      (next srv w (.completePairing (some req),as)) later)
    (authorization : String) (as' : List Answer) (reported key : String)
    (hpoll : (serve (handlePollPairingToken srv authorization (some req.pairingToken)) as'
      (Machine.run (next srv) (next srv w (.completePairing (some req),as)) later)).1 =
        .ok (.completed reported key)) :
    reported = pairID ∧ key = srv.base64Encode (req.key srv) := by
  have hreports := reports_of_paired hpaired hdated
  exact poll_of_reports (hreports.run hlater) hpoll

def keyingService : Service :=
  { sampleService with
    base64Encode := fun key => String.ofList (List.replicate (key.headD 0).toNat 'A') }

def firstPhone : CompletePairingReq := { pairingToken := "pt_p", mobilePublicKey := "A" }

def firstPaired : Except Reject CompletePairingResp × World :=
  serve (handleCompletePairing keyingService (some firstPhone)) (drawing "m") desktopWorld

def secondPhone : CompletePairingReq := { pairingToken := "pt_q", mobilePublicKey := "AQ" }

def sameDevice : CompletePairingReq :=
  { pairingToken := "pt_q", mobileDeviceID := "dev_m", mobilePublicKey := "AQ" }

/- The call after the first `n` ones fails. -/
def failingAt (n : ℕ) (fresh : String) : List Answer :=
  (drawing fresh).take n ++ [{ fault := true }]

def harmless : List (Request × List Answer) :=
  [(.registerDevice "Bearer acct_a.s" (some { role := "mobile", publicKey := "AQI" }),drawing "x"),
    (.completePairing (some { sameDevice with mobilePublicKey := "A" }),drawing "z"),
    (.unpair "Bearer acct_a.s" (some "pair_m"),drawing "y")]

/- The credential could not be stored, and the phone has paired once more. -/
theorem poll_reports_submitted_key_harmless :
    (serve (handleCompletePairing keyingService (some firstPhone)) (failingAt 22 "m") desktopWorld).1 =
        .error ⟨500,"store_error"⟩ ∧
      "pair_m" = "pair_m" ∧ "A" = keyingService.base64Encode (firstPhone.key keyingService) :=
  ⟨by decide +kernel,poll_reports_submitted_key keyingService desktopWorld firstPhone
    (failingAt 22 "m") "pair_m" "dev_m" (by unfold Paired; decide +kernel) (by decide +kernel)
    harmless (by decide +kernel) "Bearer acct_a.s" [] "pair_m" "A" (by decide +kernel)⟩

/- The first token reports the second phone, or the key of the second completion; the
second token, whose completion failed, reports the first phone. -/
theorem poll_reports_another_key :
    let poll := fun text w =>
      (serve (handlePollPairingToken keyingService "Bearer acct_a.s" (some text)) [] w).1
    let after := fun r as => next keyingService firstPaired.2 (.completePairing (some r),as)
    (serve (handleCompletePairing keyingService (some secondPhone)) (failingAt 15 "n") firstPaired.2).1 =
      .error ⟨500,"store_error"⟩ ∧
    keyingService.base64Encode (firstPhone.key keyingService) = "A" ∧
    keyingService.base64Encode (secondPhone.key keyingService) = "AA" ∧
    poll "pt_p" firstPaired.2 = .ok (.completed "pair_m" "A") ∧
    poll "pt_p" (after secondPhone (drawing "n")) = .ok (.completed "pair_m" "AA") ∧
    poll "pt_p" (after sameDevice (drawing "n")) = .ok (.completed "pair_m" "AA") ∧
    poll "pt_q" (after secondPhone (failingAt 15 "n")) = .ok (.completed "pair_m" "A") := by
  decide +kernel

end SecureGateway.Auth
