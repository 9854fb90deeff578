import SecureGateway.Auth.Conduct

/-!
# What a completion does

`Completing` is the discipline of one `handleCompletePairing` request: it consumes the token
it read at most once and for one pair, and writes only for that pair and that phone
afterwards. `Registers` is that of the requests that register a device. The request is
walked once for both and for `Calm` (`Finishes`), and `Completed` says what it has done when it
answers.
-/

namespace SecureGateway.Auth
open Authstore Prog
open E2ee (Bytes)

def spentBy : Event → Option (String × String)
  | ⟨.store (.consumePairingToken id pairID _),.ok _⟩ => some (id,pairID)
  | _ => none

def storedDevice : Event → Option Device
  | ⟨.store (.upsertDevice d),.ok _⟩ => some d
  | _ => none

def tallied (licenseID : String) : Event → Option ℕ
  | ⟨.store (.activePairCount id),.ok n⟩ => if id=licenseID then some n else none
  | _ => none

def tally (licenseID : String) : List Event → Option ℕ
  | [] => none
  | e :: log =>
    match tallied licenseID e with
    | some n => some n
    | none => tally licenseID log

/- A write of a completion that was answered with an error. -/
def refused : Event → Bool
  | ⟨.store (.upsertDevice _),.error _⟩ | ⟨.store (.updatePairingDevices _ _ _),.error _⟩
  | ⟨.store (.createPairingWithinCapacity _ _),.error _⟩
  | ⟨.store (.putPairCredential _),.error _⟩ => true
  | _ => false

def Listed (log : List Event) (p : Pairing) : Prop :=
  ∃ licenseID ps, Saw log (.listActivePairingsByLicense licenseID) (.ok ps) ∧ p ∈ ps

variable {l : List Event}

theorem Listed.mono {log : List Event} {p : Pairing} (h : Listed log p) (hl : log <:+ l) :
    Listed l p := by
  obtain ⟨licenseID,ps,hsaw,hmem⟩:=h
  exact ⟨licenseID,ps,hsaw.mono hl,hmem⟩

section
variable (tokenID : String) (pub : Bytes)

def Spent (log : List Event) (pairID : String) : Prop :=
  ∃ pt t, Saw log (.getPairingToken tokenID) (.ok pt) ∧
    Saw log (.consumePairingToken pt.id pairID t) (.ok ())

def Keyed (log : List Event) (mobileID : String) : Prop :=
  ∃ d, Saw log (.upsertDevice d) (.ok ()) ∧ d.id=mobileID ∧ d.publicKey = some pub

variable {tokenID pub} in
theorem Spent.mono {log : List Event} {pairID : String} (h : Spent tokenID log pairID)
    (hl : log <:+ l) : Spent tokenID l pairID := by
  obtain ⟨pt,t,hpt,hspent⟩:=h
  exact ⟨pt,t,hpt.mono hl,hspent.mono hl⟩

variable {tokenID pub} in
theorem Keyed.mono {log : List Event} {mobileID : String} (h : Keyed pub log mobileID)
    (hl : log <:+ l) : Keyed pub l mobileID := by
  obtain ⟨d,hsaw,hd⟩:=h
  exact ⟨d,hsaw.mono hl,hd⟩

/-- What a request that completes a pairing with this token and this key has done
before a call. -/
def Completing (log : List Event) : Op → Prop
  | .store (.getPairingToken id) => id = tokenID
  | .store (.listActivePairingsByLicense _) => Never rewrote log
  | .store (.consumePairingToken id pairID _) =>
    (∃ pt, Saw log (.getPairingToken tokenID) (.ok pt) ∧ pt.id=id) ∧ Never spentBy log ∧
      ((∃ p, Listed log p ∧ p.pairID=pairID) ∨ (⟨.newID "pair",pairID⟩ : Event) ∈ log)
  | .store (.upsertDevice d) =>
    d.publicKey = some pub ∧
      (((⟨.newID "dev",d.id⟩ : Event) ∈ log ∧ Never storedDevice log) ∨
        ∃ pairID, Spent tokenID log pairID)
  | .store (.updatePairingDevices pairID mobileID _) =>
    Spent tokenID log pairID ∧ Keyed pub log mobileID ∧ Never rewrote log ∧
      ∃ p, Listed log p ∧ p.pairID=pairID
  | .store (.createPairingWithinCapacity p maxPairs) =>
    Spent tokenID log p.pairID ∧ Keyed pub log p.mobileDeviceID ∧ Never rewrote log ∧
      (⟨.newID "pair",p.pairID⟩ : Event) ∈ log ∧
      ∃ n, tally p.licenseID log = some n ∧ n < maxPairs
  | .store (.revokeRefreshTokensByDevice id _) =>
    ∃ p mobileID, Listed log p ∧ p.mobileDeviceID=id ∧ mobileID≠id ∧
      ∃ e ∈ log, rewrote e = some (p.pairID,mobileID)
  | .store (.putPairCredential c) => Spent tokenID log c.pairID
  | .store op => op.reads = true
  | _ => True

/-- What the request has done when it answers: everything, or nothing since a write
that was refused. -/
def Completed (log : List Event) : Except Reject CompletePairingResp → Prop
  | .ok resp =>
    Spent tokenID log resp.pairID ∧ Keyed pub log resp.mobileDeviceID ∧
      (∃ e ∈ log, rewrote e = some (resp.pairID,resp.mobileDeviceID)) ∧
      ∀ e ∈ log, ∀ x, rewrote e = some x → x = (resp.pairID,resp.mobileDeviceID)
  | .error _ => Never spentBy log ∨ ∃ e ∈ log, refused e = true

end

variable {srv : Service} {log : List Event} {op : Op} {tokenID : String} {pub : Bytes}

/-! ## Registered devices -/

def drewDevice (id : String) : Event → Bool
  | ⟨.newID tag,fresh⟩ => tag == "dev" && fresh == id
  | _ => false

/-- A write of the device registers it if its id was drawn for it and the request
has not stored it yet. -/
def registering (log : List Event) (d : Device) : Bool :=
  log.any (drewDevice d.id) && log.all fun e => (storedDevice e).isNone

theorem drewDevice_iff {id : String} {e : Event} :
    drewDevice id e=true ↔ e=⟨.newID "dev",id⟩ := by
  constructor
  · intro h
    unfold drewDevice at h
    split at h
    · next tag fresh =>
      simp only [Bool.and_eq_true,beq_iff_eq] at h
      obtain ⟨rfl,rfl⟩:=h
      rfl
    · cases h
  · rintro rfl
    simp [drewDevice]

theorem registering_iff {d : Device} : registering log d=true ↔
    (⟨.newID "dev",d.id⟩ : Event)∈log ∧ Never storedDevice log := by
  simp only [registering,Bool.and_eq_true,List.any_eq_true,drewDevice_iff,exists_eq_right,
    List.all_eq_true,Option.isNone_iff_eq_none,Never]

def heldBy : Event → Option Device
  | ⟨.store (.getDevice _),.ok d⟩ => some d
  | ⟨.store (.findDeviceByAccountRoleKey _ _ _),.ok d⟩ => some d
  | ⟨.store (.upsertDevice d),.ok _⟩ => some d
  | _ => none

def Holds (log : List Event) (d : Device) : Prop := ∃ e ∈ log, heldBy e = some d

/-- A device is registered after a count below the cap, or a key is stored in a device
the request holds. -/
def Registers (cap : ℕ) (log : List Event) : Op → Prop
  | .store (.upsertDevice d) =>
    if registering log d then ∀ n, Saw log (.countDevicesByAccount d.accountID) (.ok n) → n<cap
    else ∃ e pub, Holds log e ∧ d = { e with publicKey := some pub }
  | _ => True

/- The calls that neither count devices nor draw an id for one nor store one. -/
def Op.idles : Op → Bool
  | .store (.upsertDevice _) | .store (.countDevicesByAccount _) => false
  | .newID tag => tag != "dev"
  | _ => true

theorem not_drew_of_idle (h : Only Op.idles log) (id : String) :
    (⟨.newID "dev",id⟩ : Event)∉log := by
  intro he
  cases h _ he

theorem never_stored_of_idle (h : Only Op.idles log) : Never storedDevice log := by
  intro e he
  have hidle:=h e he
  unfold storedDevice
  split
  · cases hidle
  · rfl

structure InHand (log : List Event) (d : Device) : Prop where
  holds : Holds log d
  done : Only Op.idles log ∨ ∃ e ∈ log, (storedDevice e).isSome = true

theorem InHand.cons {d : Device} {r : op.Rep} (hop : op.idles=true) (h : InHand log d) :
    InHand (⟨op,r⟩::log) d where
  holds := by
    obtain ⟨e,he,hheld⟩:=h.holds
    exact ⟨e,List.mem_cons_of_mem _ he,hheld⟩
  done := by
    rcases h.done with hidle | ⟨e,he,hstored⟩
    · exact .inl (hidle.cons hop)
    · exact .inr ⟨e,List.mem_cons_of_mem _ he,hstored⟩

theorem InHand.not_registering {d : Device} (h : InHand log d) (d' : Device) :
    ¬ registering log d'=true := by
  rw [registering_iff]
  rintro ⟨hdrew,hstored⟩
  rcases h.done with hidle | ⟨e,he,hsome⟩
  · exact not_drew_of_idle hidle _ hdrew
  · rw [hstored e he] at hsome
    cases hsome

def Op.enrols : Op → Bool
  | .store (.findDeviceByAccountRoleKey _ _ _) | .store (.countDevicesByAccount _)
  | .store (.getDevice _) | .now => true
  | .newID tag => tag == "dev"
  | _ => false

/-- The calls that look a device up and register one with this key. -/
def Enrols (cap : ℕ) (pub : Option Bytes) (log : List Event) : Op → Prop
  | .store (.upsertDevice d) => d.publicKey = pub ∧ registering log d = true ∧
    ∀ n, Saw log (.countDevicesByAccount d.accountID) (.ok n) → n<cap
  | op => op.enrols = true

theorem registeredDevice_enrols {cap : ℕ} (accountID : String) (role : Role) (pub : Option Bytes)
    (hlog : Only Op.idles log) :
    Obeys (Enrols cap pub) (fun r l => Only Op.idles l ∧ ∀ d,r = .ok (some d) → Holds l d) log
      (registeredDevice accountID role pub) := by
  refine obeys_ite (fun _ => obeys_pure ⟨hlog,fun d h => nomatch h⟩) fun _ => ?_
  refine obeys_stored rfl (fun dev => obeys_pure ⟨hlog.cons rfl,fun d h => ?_⟩) fun e => ?_
  · cases h
    exact ⟨_,List.mem_cons_self,rfl⟩
  · exact obeys_ite (fun _ => obeys_pure ⟨hlog.cons rfl,fun d h => nomatch h⟩) fun _ =>
      obeys_pure ⟨hlog.cons rfl,fun d h => nomatch h⟩

theorem registerOrFindDevice_enrols (accountID : String) (role : Role) (pub : Option Bytes)
    (hlog : Only Op.idles log) :
    Obeys (Enrols srv.deviceCap pub) (fun res l => ∀ d,res = .ok d → InHand l d) log
      (registerOrFindDevice srv accountID role pub) := by
  refine obeys_seq (registeredDevice_enrols accountID role pub hlog) fun r l ⟨hidle,hheld⟩ _ => ?_
  rcases r with e | _ | dev
  · exact obeys_pure fun d h => nomatch h
  · refine obeys_stored rfl (fun count => ?_) fun e => obeys_pure fun d h => nomatch h
    refine obeys_ite (fun _ => obeys_pure fun d h => nomatch h) fun hroom => ?_
    refine obeys_step rfl fun id => obeys_step rfl fun t => obeys_stored ?_ (fun u => ?_) fun e => ?_
    · refine ⟨rfl,registering_iff.2 ⟨by simp,?_⟩,fun n hsaw => ?_⟩
      · exact .cons rfl (.cons rfl (.cons rfl (never_stored_of_idle hidle)))
      -- the only count of the request is the one just made
      simp only [Saw,List.mem_cons] at hsaw
      rcases hsaw with heq | heq | heq | hsaw
      · cases heq
      · cases heq
      · cases heq
        exact Nat.lt_of_not_le hroom
      · cases hidle _ hsaw
    · refine obeys_pure fun d h => ?_
      cases h
      exact ⟨⟨_,List.mem_cons_self,rfl⟩,.inr ⟨_,List.mem_cons_self,rfl⟩⟩
    · exact obeys_pure fun d h => nomatch h
  · refine obeys_pure fun d h => ?_
    cases h
    exact ⟨hheld dev rfl,.inl hidle⟩

variable (pt : PairingToken) (lic : License)

theorem mobileDevice_enrols (mobileDeviceID : String) (hlog : Only Op.idles log) :
    Obeys (Enrols srv.deviceCap (some pub)) (fun res l => ∀ d,res = .ok d → InHand l d) log
      (mobileDevice srv pt mobileDeviceID pub) := by
  refine obeys_ite (fun _ => ?_) fun _ => ?_
  · have hfind : Obeys (Enrols srv.deviceCap (some pub)) (fun r l => ∀ d,r=some d → InHand l d) log
        (deviceForRole mobileDeviceID pt.accountID .mobile) := by
      refine obeys_stored rfl (fun dev => obeys_pure fun d h => ?_) fun e =>
        obeys_pure fun d h => nomatch h
      split at h
      · cases h
        exact ⟨⟨_,List.mem_cons_self,rfl⟩,.inl (hlog.cons rfl)⟩
      · cases h
    refine obeys_seq hfind fun r l hheld _ => ?_
    rcases r with _ | dev
    · exact obeys_pure fun d h => nomatch h
    refine obeys_pure fun d h => ?_
    cases h
    exact hheld dev rfl
  · refine obeys_seq (registerOrFindDevice_enrols _ _ _ hlog) fun r l hheld _ => ?_
    rcases r with e | dev
    · exact obeys_ite (fun _ => obeys_pure fun d h => nomatch h) fun _ =>
        obeys_pure fun d h => nomatch h
    refine obeys_pure fun d h => ?_
    cases h
    exact hheld dev rfl

/-! ## The walk -/

/- The calls that neither consume a token nor write a pairing or a credential. -/
def Op.light : Op → Bool
  | .store (.upsertDevice _) => true
  | .store op => op.reads
  | _ => true

theorem light_of_free (h : op.free=true) : op.light=true := by
  cases op with
  | store sop => cases sop <;> first | rfl | cases h
  | _ => rfl

theorem light_of_enrols {cap : ℕ} {pub : Option Bytes} (h : Enrols cap pub log op) :
    op.light=true := by
  cases op with
  | store sop => cases sop <;> first | rfl | cases h
  | _ => rfl

theorem idles_of_free (h : op.free=true) : op.idles=true := by
  cases op with
  | store sop => cases sop <;> first | rfl | cases h
  | newID tag =>
    simp only [Op.free,Bool.and_eq_true] at h
    exact h.2
  | _ => rfl

theorem unspent_of_light (h : Only Op.light log) : Never spentBy log := by
  intro e he
  have hlight:=h e he
  unfold spentBy
  split
  · cases hlight
  · rfl

theorem unwritten_of_light (h : Only Op.light log) : Never rewrote log := by
  intro e he
  have hlight:=h e he
  unfold rewrote
  split
  · cases hlight
  · cases hlight
  · rfl

theorem owes_of_unwritten (h : Never rewrote log) : owes log=none := by
  induction log with
  | nil => rfl
  | cons e log ih =>
    obtain ⟨he,hlog⟩:=List.forall_mem_cons.1 h
    simp [owes,he,ih hlog]

theorem rewrote_of_owes {x : String × String} (h : owes log=some x) : ∃ e∈log,rewrote e=some x := by
  induction log with
  | nil => cases h
  | cons e log ih =>
    unfold owes at h
    split at h
    · next y hy => exact ⟨e,List.mem_cons_self,hy.trans h⟩
    · split at h
      · cases h
      · obtain ⟨e',he',hx⟩:=ih h
        exact ⟨e',List.mem_cons_of_mem _ he',hx⟩

/-- What all disciplines ask of a completion. -/
abbrev Finishes (given : Stripe.Subscription → Prop) (billing : Bool) (srv : Service)
    (tokenID : String) (pub : Bytes) (log : List Event) (op : Op) : Prop :=
  Calm given billing srv true log op ∧ Completing tokenID pub log op ∧
    Registers srv.deviceCap log op

variable {given : Stripe.Subscription → Prop} {b : Bool} {l : List Event}

theorem finishes_of_free (h : op.free=true) : Finishes given b srv tokenID pub log op := by
  refine ⟨calm_of_free h,?_⟩
  cases op with
  | store sop => cases sop <;> first | exact ⟨h,trivial⟩ | cases h
  | _ => exact ⟨trivial,trivial⟩

theorem calm_of_enrols {cap : ℕ} {key : Option Bytes} {pairs : Bool} (h : Enrols cap key log op) :
    Calm given b srv pairs log op := by
  cases op with
  | store sop => cases sop <;> first | exact ⟨⟨trivial,trivial⟩,rfl⟩ | cases h
  | newID tag =>
    obtain rfl : tag = "dev" := eq_of_beq h
    exact ⟨⟨permitted_newID _ (by decide),fun htag => absurd htag (by decide)⟩,rfl⟩
  | now => exact ⟨⟨trivial,trivial⟩,rfl⟩
  | _ => cases h

theorem registers_of_enrols {cap : ℕ} {key : Option Bytes} (h : Enrols cap key log op) :
    Registers cap log op := by
  unfold Registers
  split
  · rw [if_pos h.2.1]
    exact h.2.2
  · trivial

theorem finishes_of_enrols (h : Enrols srv.deviceCap (some pub) log op) :
    Finishes given b srv tokenID pub log op := by
  refine ⟨calm_of_enrols h,?_,registers_of_enrols h⟩
  cases op with
  | store sop =>
    cases sop with
    | upsertDevice d => exact ⟨h.1,.inl (registering_iff.1 h.2.1)⟩
    | _ => first | exact h | cases h
  | _ => trivial

/- The request has the phone's device, and has only read and registered so far. -/
structure Ready (mobile : Device) (log : List Event) : Prop where
  light : Only Op.light log
  held : InHand log mobile

variable {mobile : Device}

theorem Ready.cons {r : op.Rep} (hlight : op.light=true) (hidle : op.idles=true)
    (h : Ready mobile log) : Ready mobile (⟨op,r⟩::log) :=
  ⟨h.light.cons hlight,h.held.cons hidle⟩

theorem obeys_ready {α : Type} {post : α → List Event → Prop} {p : Handler α}
    (h : Obeys Free post log p) (hready : Ready mobile log) :
    Obeys (Finishes given b srv tokenID pub) (fun a l => post a l ∧ Ready mobile l) log p :=
  obeys_weaken (obeys_log (fun _ _ _ hl hop => hl.cons (light_of_free hop) (idles_of_free hop)) h
    hready) fun _ _ _ => finishes_of_free

/- The pairing of the desktop that the listing shows, or that it shows none. -/
def Found (licenseID desktopID : String) (l : List Event) : Option Pairing → Prop
  | some p => Listed l p ∧ p.desktopDeviceID=desktopID
  | none => vacant licenseID desktopID l = true

theorem activePairingForDesktop_finishes (licenseID desktopID : String)
    (hready : Ready mobile log) :
    Obeys (Finishes given b srv tokenID pub)
      (fun res l => Ready mobile l ∧ ∀ existing,res = .ok existing →
        Found licenseID desktopID l existing) log
      (activePairingForDesktop licenseID desktopID) := by
  refine obeys_stored ⟨⟨⟨trivial,trivial⟩,rfl⟩,unwritten_of_light hready.light,trivial⟩
    (fun ps => obeys_pure ⟨hready.cons rfl rfl,fun existing heq => ?_⟩)
    fun e => obeys_pure ⟨hready.cons rfl rfl,by simp⟩
  cases heq
  cases hfind : ps.find? (·.desktopDeviceID == desktopID) with
  | none => simpa [Found,vacant,searched] using hfind
  | some p =>
    have hfound:=List.find?_some hfind
    exact ⟨⟨licenseID,ps,saw_head _ _ _,List.mem_of_find?_eq_some hfind⟩,eq_of_beq hfound⟩

/- The pair id is that of the listed pairing, or it was drawn, the desktop has no pairing and
there is room for one. -/
def Target (lic : License) (desktopID : String) (existing : Option Pairing) (l : List Event)
    (slot : String × ℕ) : Prop :=
  match existing with
  | some p => slot.1 = p.pairID ∧ Listed l p ∧ p.desktopDeviceID=desktopID
  | none => (⟨.newID "pair",slot.1⟩ : Event) ∈ l ∧ vacant lic.id desktopID l = true ∧
    ∃ sub n, Saw l (.getSubscription lic.subscriptionID) (.ok sub) ∧ slot.2=sub.maxPairs ∧
      tally lic.id l = some n ∧ n<slot.2

theorem Target.cons {desktopID : String} {existing : Option Pairing} {slot : String × ℕ} {e : Event}
    (h : Target lic desktopID existing log slot)
    (hv : vacant lic.id desktopID (e::log)=vacant lic.id desktopID log)
    (ht : tally lic.id (e::log)=tally lic.id log) :
    Target lic desktopID existing (e::log) slot := by
  rcases existing with _ | p
  · obtain ⟨hdrawn,hvacant,sub,n,hsub,hmax,htally⟩:=h
    exact ⟨List.mem_cons_of_mem _ hdrawn,hv.trans hvacant,sub,n,hsub.tail,hmax,ht ▸ htally⟩
  · exact ⟨h.1,h.2.1.mono (List.suffix_cons _ _),h.2.2⟩

theorem pairSlot_finishes {desktopID : String} (existing : Option Pairing) (hready : Ready mobile log)
    (hfound : Found lic.id desktopID log existing) :
    Obeys (Finishes given b srv tokenID pub)
      (fun res l => Ready mobile l ∧ ∀ slot,res = .ok slot → Target lic desktopID existing l slot)
      log (pairSlot lic existing) := by
  refine obeys_step (finishes_of_free rfl) fun fresh => ?_
  have hready₁ : Ready mobile (⟨.newID "pair",fresh⟩::log) := hready.cons rfl rfl
  rcases existing with _ | p
  · refine obeys_seq (obeys_ready (capacityAvailable_free lic) hready₁) fun r l ⟨hg,hl⟩ _ => ?_
    rcases r with e | ⟨_ | _,maxPairs⟩
    · exact obeys_pure ⟨hl,by simp⟩
    · exact obeys_pure ⟨hl,by simp⟩
    refine obeys_pure ⟨hl,fun slot hslot => ?_⟩
    cases hslot
    obtain ⟨sub,n,rfl,rfl,hlt⟩:=hg _ _ rfl
    exact ⟨by simp,hfound,sub,n,(saw_head _ _ _).tail,rfl,by simp [tally,tallied],hlt rfl⟩
  · refine obeys_pure ⟨hready₁,fun slot hslot => ?_⟩
    cases hslot
    exact ⟨rfl,hfound.1.mono (List.suffix_cons _ _),hfound.2⟩

/- The token, the license and the desktop's device that the request has read. -/
structure Basis (tokenID : String) (pt : PairingToken) (lic : License) (desktop : Device)
    (log : List Event) : Prop where
  token : Saw log (.getPairingToken tokenID) (.ok pt)
  license : Saw log (.getLicense pt.licenseID) (.ok lic)
  device : Saw log (.getDevice pt.desktopDeviceID) (.ok desktop)

/- The token is consumed for the pair and the phone's key stored, and no pairing is written
yet. -/
structure Begun (tokenID : String) (pub : Bytes) (pt : PairingToken) (lic : License)
    (mobile desktop : Device) (existing : Option Pairing) (pairID : String) (maxPairs : ℕ)
    (log : List Event) : Prop where
  basis : Basis tokenID pt lic desktop log
  spent : Spent tokenID log pairID
  keyed : Keyed pub log mobile.id
  unwritten : Never rewrote log
  target : Target lic pt.desktopDeviceID existing log (pairID,maxPairs)

variable {pt lic} {desktop : Device}

theorem Basis.mono (h : Basis tokenID pt lic desktop log) (hl : log <:+ l) :
    Basis tokenID pt lic desktop l :=
  ⟨h.token.mono hl,h.license.mono hl,h.device.mono hl⟩

/- The pairing has been written, with this phone, or the write was refused. -/
def Written (pairID mobileID : String) (res : Except Reject Unit) (l : List Event) : Prop :=
  match res with
  | .ok _ => owes l = some (pairID,mobileID) ∧
    ∀ e ∈ l, ∀ x, rewrote e = some x → x = (pairID,mobileID)
  | .error _ => owes l = none ∧ ∃ e ∈ l, refused e = true

variable {pairID mobileID : String} {maxPairs : ℕ}

theorem written_head {e : Event} {u : Unit} (hn : Never rewrote log)
    (he : rewrote e=some (pairID,mobileID)) : Written pairID mobileID (.ok u) (e::log) := by
  refine ⟨by simp [owes,he],fun e' he' x hx => ?_⟩
  rcases List.mem_cons.1 he' with rfl | he'
  · exact Option.some.inj (hx.symm.trans he)
  · cases (hn e' he').symm.trans hx

theorem Written.cons {e : Event} {u : Unit} (h : Written pairID mobileID (.ok u) log)
    (hr : rewrote e=none) (hc : credentialed e=none) : Written pairID mobileID (.ok u) (e::log) := by
  refine ⟨by simpa [owes,hr,hc] using h.1,fun e' he' x hx => ?_⟩
  rcases List.mem_cons.1 he' with rfl | he'
  · cases hr.symm.trans hx
  · exact h.2 e' he' x hx

theorem rePair_finishes {existing : Pairing}
    (h : Begun tokenID pub pt lic mobile desktop (some existing) pairID maxPairs log) :
    Obeys (Finishes given b srv tokenID pub) (Written pairID mobile.id) log
      (rePair srv existing mobile desktop) := by
  have hn:=h.unwritten
  obtain ⟨rfl,⟨licenseID,ps,hps,hmem⟩,hdesk⟩:=h.target
  refine obeys_stored ⟨⟨⟨trivial,rfl,?_,owes_of_unwritten hn⟩,rfl⟩,⟨h.spent,h.keyed,hn,?_⟩,trivial⟩
    (fun u => ?_) fun e => obeys_pure ⟨owes_of_unwritten (hn.cons rfl),_,List.mem_cons_self,rfl⟩
  · exact ⟨licenseID,ps,existing,desktop,hps,hmem,rfl,hdesk ▸ h.basis.device,rfl⟩
  · exact ⟨existing,⟨licenseID,ps,hps,hmem⟩,rfl⟩
  have hpublish (l : List Event) (hl : Written existing.pairID mobile.id (.ok ()) l) :
      Obeys (Finishes given b srv tokenID pub) (Written existing.pairID mobile.id) l (do
        publishRevocation srv { pairID := existing.pairID }
        return .ok ()) := by
    refine obeys_bind (obeys_ite (fun _ => obeys_step (finishes_of_free rfl) fun _ => ?_) fun _ => hl)
    exact hl.cons rfl rfl
  have hwritten : Written existing.pairID mobile.id (.ok ()) (⟨.store (.updatePairingDevices
      existing.pairID mobile.id desktop.id),.ok u⟩::log) := written_head hn rfl
  refine obeys_ite (fun hevicted => ?_) fun _ => hpublish _ hwritten
  refine obeys_step (finishes_of_free rfl) fun t => obeys_step ⟨⟨⟨trivial,List.mem_cons_self⟩,rfl⟩,?_,
    trivial⟩ fun r => hpublish _ ((hwritten.cons rfl rfl).cons rfl rfl)
  exact ⟨existing,mobile.id,⟨licenseID,ps,hps.tail.tail,hmem⟩,rfl,Ne.symm hevicted.2,_,
    List.mem_cons_of_mem _ List.mem_cons_self,rfl⟩

theorem newPair_finishes
    (h : Begun tokenID pub pt lic mobile desktop none pairID maxPairs log) :
    Obeys (Finishes given b srv tokenID pub) (Written pairID mobile.id) log
      (newPair pt lic mobile desktop pairID maxPairs) := by
  have hn:=h.unwritten
  obtain ⟨hdrawn,hvacant,sub,n,hsub,hmax,htally,hlt⟩:=h.target
  refine obeys_step (finishes_of_free rfl) fun t => obeys_stored ⟨⟨⟨?_,?_⟩,rfl⟩,?_,trivial⟩
    (fun u => obeys_pure (written_head (hn.cons rfl) rfl)) fun e => ?_
  · exact ⟨tokenID,pt,lic,sub,h.basis.token.tail,h.basis.license.tail,hsub.tail,rfl,rfl,hmax⟩
  · exact ⟨rfl,⟨_,desktop,hvacant,h.basis.device.tail,rfl⟩,owes_of_unwritten (hn.cons rfl)⟩
  · have hs:=List.suffix_cons (⟨.now,t⟩ : Event) log
    exact ⟨h.spent.mono hs,h.keyed.mono hs,hn.cons rfl,List.mem_cons_of_mem _ hdrawn,n,htally,hlt⟩
  · have hnone : Never rewrote (⟨.now,t⟩::log) := hn.cons rfl
    exact obeys_ite
      (fun _ => obeys_pure ⟨owes_of_unwritten (hnone.cons rfl),_,List.mem_cons_self,rfl⟩)
      fun _ => obeys_pure ⟨owes_of_unwritten (hnone.cons rfl),_,List.mem_cons_self,rfl⟩

variable (pt lic mobile desktop)

/-- The request has stored a credential for every phone that it wrote into a
pairing, unless a write of a credential failed. -/
def Settled (log : List Event) : Prop :=
  owes log = none ∨ ∃ c e, Saw log (.putPairCredential c) (.error e)

theorem credentialPair_finishes {u : Unit} (hspent : Spent tokenID log pairID)
    (hkeyed : Keyed pub log mobile.id) (hw : Written pairID mobile.id (.ok u) log) :
    Obeys (Finishes given b srv tokenID pub)
      (fun res l => Completed tokenID pub l res ∧ Settled l) log
      (credentialPair srv pt lic mobile desktop pairID) := by
  refine obeys_step (finishes_of_free rfl) fun id => obeys_step (finishes_of_free rfl) fun t =>
    obeys_stored ⟨⟨⟨trivial,hw.1,rfl⟩,rfl⟩,?_,trivial⟩ (fun u => obeys_pure ⟨?_,.inl rfl⟩)
      fun e => obeys_pure ⟨.inr ⟨_,List.mem_cons_self,rfl⟩,.inr ⟨_,e,saw_head _ _ _⟩⟩
  · exact hspent.mono ((List.suffix_cons _ _).trans (List.suffix_cons _ _))
  have hs (e : Event) : log <:+ e::⟨.now,t⟩::⟨.newID "pc",id⟩::log :=
    (List.suffix_cons _ _).trans ((List.suffix_cons _ _).trans (List.suffix_cons _ _))
  obtain ⟨e,he,hx⟩:=rewrote_of_owes hw.1
  refine ⟨hspent.mono (hs _),hkeyed.mono (hs _),⟨e,(hs _).subset he,hx⟩,fun e' he' x hx' => ?_⟩
  simp only [List.mem_cons] at he'
  rcases he' with rfl | rfl | rfl | he'
  · cases hx'
  · cases hx'
  · cases hx'
  · exact hw.2 e' he' x hx'

theorem gaveUp (hlight : Only Op.light log) (e : Reject) :
    Completed tokenID pub log (.error e) ∧ Settled log :=
  ⟨.inl (unspent_of_light hlight),.inl (owes_of_unwritten (unwritten_of_light hlight))⟩

theorem pairDevices_finishes (hbasis : Basis tokenID pt lic desktop log)
    (hready : Ready mobile log) :
    Obeys (Finishes given b srv tokenID pub)
      (fun res l => Completed tokenID pub l res ∧ Settled l) log
      (pairDevices srv pt lic mobile desktop pub) := by
  refine obeys_seq (activePairingForDesktop_finishes _ _ hready) fun r l₁ ⟨hready₁,hfound⟩ hs₁ => ?_
  rcases r with e | existing
  · exact obeys_pure (gaveUp hready₁.light _)
  refine obeys_seq (pairSlot_finishes lic existing hready₁ (hfound existing rfl))
    fun r l₂ ⟨hready₂,hslot⟩ hs₂ => ?_
  rcases r with e | ⟨pairID,maxPairs⟩
  · exact obeys_pure (gaveUp hready₂.light _)
  have htarget:=hslot _ rfl
  refine obeys_step (finishes_of_free rfl) fun t => ?_
  have hbasis₃:=hbasis.mono ((hs₁.trans hs₂).trans (List.suffix_cons (⟨.now,t⟩ : Event) l₂))
  have hready₃ : Ready mobile (⟨.now,t⟩::l₂) := hready₂.cons rfl rfl
  have htarget₃ : Target lic pt.desktopDeviceID existing (⟨.now,t⟩::l₂) (pairID,maxPairs) :=
    htarget.cons _ rfl rfl
  generalize (⟨.now,t⟩::l₂ : List Event)=l₃ at hbasis₃ hready₃ htarget₃
  refine obeys_stored ⟨⟨⟨trivial,trivial⟩,rfl⟩,?_,trivial⟩ (fun u => ?_) fun e => ?_
  · refine ⟨⟨pt,hbasis₃.token,rfl⟩,unspent_of_light hready₃.light,?_⟩
    rcases existing with _ | p
    · exact .inr htarget₃.1
    · exact .inl ⟨p,htarget₃.2.1,htarget₃.1.symm⟩
  · generalize hlog : (⟨.store (.consumePairingToken pt.id pairID t),.ok u⟩::l₃ : List Event)=l₄
    have hs : l₃ <:+ l₄ := hlog ▸ List.suffix_cons _ _
    have hn : Never rewrote l₄ := hlog ▸ (unwritten_of_light hready₃.light).cons rfl
    have hspent : Spent tokenID l₄ pairID := ⟨pt,t,hbasis₃.token.mono hs,hlog ▸ saw_head _ _ _⟩
    have hheld : InHand l₄ mobile := hlog ▸ hready₃.held.cons rfl
    have htarget₄ : Target lic pt.desktopDeviceID existing l₄ (pairID,maxPairs) :=
      hlog ▸ htarget₃.cons _ rfl rfl
    refine obeys_stored ⟨⟨⟨trivial,trivial⟩,rfl⟩,⟨rfl,.inr ⟨pairID,hspent⟩⟩,?_⟩ (fun u' => ?_)
      fun e => obeys_pure ⟨.inr ⟨_,List.mem_cons_self,rfl⟩,.inl (owes_of_unwritten (hn.cons rfl))⟩
    · show if _ then _ else _
      rw [if_neg (hheld.not_registering _)]
      exact ⟨mobile,pub,hheld.holds,rfl⟩
    have hbegun : Begun tokenID pub pt lic mobile desktop existing pairID maxPairs
        (⟨.store (.upsertDevice { mobile with publicKey := some pub }),.ok u'⟩::l₄) :=
      ⟨hbasis₃.mono (hs.trans (List.suffix_cons _ _)),hspent.mono (List.suffix_cons _ _),
        ⟨_,saw_head _ _ _,rfl,rfl⟩,hn.cons rfl,htarget₄.cons _ rfl rfl⟩
    rcases existing with _ | p
    · refine obeys_seq (newPair_finishes hbegun) fun r l hr hl => ?_
      rcases r with e | u
      · exact obeys_pure ⟨.inr hr.2,.inl hr.1⟩
      · exact credentialPair_finishes pt lic mobile desktop (hbegun.spent.mono hl)
          (hbegun.keyed.mono hl) hr
    · refine obeys_seq (rePair_finishes hbegun) fun r l hr hl => ?_
      rcases r with e | u
      · exact obeys_pure ⟨.inr hr.2,.inl hr.1⟩
      · exact credentialPair_finishes pt lic mobile desktop (hbegun.spent.mono hl)
          (hbegun.keyed.mono hl) hr
  · have hgave (res : Reject) : Completed tokenID pub
        (⟨.store (.consumePairingToken pt.id pairID t),.error e⟩::l₃) (.error res) ∧
        Settled (⟨.store (.consumePairingToken pt.id pairID t),.error e⟩::l₃) :=
      ⟨.inl ((unspent_of_light hready₃.light).cons rfl),
        .inl (owes_of_unwritten ((unwritten_of_light hready₃.light).cons rfl))⟩
    exact obeys_ite (fun _ => obeys_pure (hgave _)) fun _ => obeys_pure (hgave _)

def CompletePairingReq.key (srv : Service) (req : CompletePairingReq) : Bytes :=
  (srv.base64Decode req.mobilePublicKey).getD []

variable (given b) in
theorem handleCompletePairing_finishes (srv : Service) (req : CompletePairingReq) :
    Obeys (Finishes given b srv (srv.hashSecret req.pairingToken) (req.key srv))
      (fun res l =>
        Completed (srv.hashSecret req.pairingToken) (req.key srv) l res ∧ Settled l) []
      (handleCompletePairing srv (some req)) := by
  have hchecks (op : Op) (h : op.checks=true) : (op.light && op.idles)=true := by
    simp [light_of_free (free_of_checks h),idles_of_free (free_of_checks h)]
  refine obeys_ite (fun _ => obeys_pure (gaveUp only_nil _)) fun _ =>
    obeys_stored ⟨⟨⟨trivial,trivial⟩,rfl⟩,rfl,trivial⟩ (fun pt => ?_) fun e =>
      obeys_pure (gaveUp (.cons rfl only_nil) _)
  refine obeys_step (finishes_of_free rfl) fun t => ?_
  refine obeys_ite (fun _ => obeys_pure (gaveUp (.cons rfl (.cons rfl only_nil)) _)) fun _ =>
    obeys_stored (finishes_of_free rfl) (fun lic => ?_) fun e =>
      obeys_pure (gaveUp (.cons rfl (.cons rfl (.cons rfl only_nil))) _)
  refine obeys_seq (obeys_weaken (obeys_only (licenseIssuable_checks lic) (fun _ => hchecks)
    (.cons rfl (.cons rfl (.cons rfl only_nil))))
    fun _ _ _ hop => finishes_of_free (free_of_checks hop)) fun valid l₁ ⟨_,hboth⟩ hs₁ => ?_
  have hlight : Only Op.light l₁ := hboth.mono fun _ hop => (Bool.and_eq_true_iff.1 hop).1
  refine obeys_ite (fun _ => obeys_pure (gaveUp hlight _)) fun _ => ?_
  refine obeys_ite (fun _ => obeys_pure (gaveUp hlight _)) fun _ => ?_
  refine obeys_seq (obeys_weaken (obeys_only (mobileDevice_enrols pt req.mobileDeviceID
    (hboth.mono fun _ hop => (Bool.and_eq_true_iff.1 hop).2)) (fun _ _ => light_of_enrols) hlight)
    fun _ _ _ => finishes_of_enrols) fun r l₂ ⟨hheld,hlight⟩ hs₂ => ?_
  rcases r with e | mobile
  · exact obeys_pure (gaveUp hlight _)
  refine obeys_stored (finishes_of_free rfl) (fun desktop => ?_) fun e =>
    obeys_pure (gaveUp (hlight.cons rfl) _)
  refine obeys_ite (fun _ => obeys_pure (gaveUp (hlight.cons rfl) _)) fun _ => ?_
  refine pairDevices_finishes pt lic mobile desktop ⟨?_,?_,saw_head _ _ _⟩
    ⟨hlight.cons rfl,(hheld mobile rfl).cons rfl⟩
  · exact (Saw.mono (saw_head _ _ _).tail.tail (hs₁.trans hs₂)).tail
  · exact (Saw.mono (saw_head _ _ _) (hs₁.trans hs₂)).tail

theorem handleCompletePairing_completing (srv : Service) (req : CompletePairingReq) :
    Obeys (Completing (srv.hashSecret req.pairingToken) (req.key srv))
      (fun res l => Completed (srv.hashSecret req.pairingToken) (req.key srv) l res) []
      (handleCompletePairing srv (some req)) :=
  obeys_weaken (obeys_mono (handleCompletePairing_finishes (fun _ => True) false srv req)
    fun _ _ h => h.1) fun _ _ _ hop => hop.2.1

theorem handle_completing (srv : Service) (req : CompletePairingReq) :
    Makes (Completing (srv.hashSecret req.pairingToken) (req.key srv)) []
      (handle srv (.completePairing (some req))) :=
  obeys_seq (handleCompletePairing_completing srv req) fun _ _ _ _ => trivial

theorem once_spentBy {op : Op} (r : op.Rep) (h : Once spentBy log)
    (hok : Completing tokenID pub log op) : Once spentBy (⟨op,r⟩::log) := by
  refine h.cons ?_
  cases op with
  | store sop =>
    cases sop with
    | consumePairingToken id pairID t => exact .inr hok.2.1
    | _ => exact .inl rfl
  | _ => exact .inl rfl

theorem handleCompletePairing_once (srv : Service) (req : CompletePairingReq) :
    Obeys (Completing (srv.hashSecret req.pairingToken) (req.key srv))
      (fun res l =>
        Completed (srv.hashSecret req.pairingToken) (req.key srv) l res ∧ Once spentBy l) []
      (handleCompletePairing srv (some req)) :=
  obeys_log (fun _ _ r hl hop => once_spentBy r hl hop) (handleCompletePairing_completing srv req)
    (once_nil spentBy)

end SecureGateway.Auth
