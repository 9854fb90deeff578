import SecureGateway.Auth.SingleUse
import SecureGateway.Lib.Standing

/-!
# Devices registered by concurrent requests

`registerOrFindDevice` looks a device up, counts and inserts in three calls, so two requests
may both count fewer than the cap. Where a request inserts only while its count and its
lookup stand, and no stored key is replaced, the cap holds and a key is registered once.
-/

namespace SecureGateway.Auth
open Authstore Prog Standing
open E2ee (Bytes)

def deviceCount (s : Store) (accountID : String) : ℕ :=
  s.devices.count fun d => d.accountID == accountID

def under (accountID : String) (role : Role) (key : Bytes) (d : Device) : Bool :=
  d.accountID == accountID && d.role == role && d.key == key

def registeredBy (x : ℕ × Event) (history : List (ℕ × Event)) : Option Device :=
  (storedDevice x.2).filter (registering (Pool.logOf x.1 history))

/-- The devices that were registered, the newest first. -/
def registrations : List (ℕ × Event) → List Device
  | [] => []
  | x :: history => (registeredBy x history).toList ++ registrations history

def Request.registers : Request → Bool
  | .registerDevice _ _ | .completePairing _ => true
  | _ => false

def ofRegistration : Step → Bool
  | .start r => r.registers
  | _ => true

def countedDevices (accountID : String) : Event → Option ℕ
  | ⟨.store (.countDevicesByAccount id),.ok n⟩ => if id=accountID then some n else none
  | _ => none

def missedDevice (accountID : String) (role : Role) (key : Bytes) : Event → Option Unit
  | ⟨.store (.findDeviceByAccountRoleKey id role' key'),.error e⟩ =>
    if id=accountID ∧ role'=role ∧ key'=key ∧ Err.is .notFound e then some () else none
  | _ => none

/-- The count of the request stands: no device of the account was registered since. -/
def countStands (accountID : String) (i : ℕ) (history : List (ℕ × Event)) : Option ℕ :=
  standing (countedDevices accountID)
    (fun x h => (registeredBy x h).any fun d => d.accountID == accountID) i history

/-- The lookup of the request stands: no such device was stored since. -/
def lookupStands (accountID : String) (role : Role) (key : Bytes) (i : ℕ)
    (history : List (ℕ × Event)) : Option Unit :=
  standing (missedDevice accountID role key)
    (fun x _ => (storedDevice x.2).any (under accountID role key)) i history

/-- A device of the account is registered by a request whose count, and whose lookup
of a device with a key, still stand. -/
def relies (accountID : String) (st : Requests) : Step → Bool
  | .call i _ =>
    match nextCall st i with
    | some (.store (.upsertDevice d)) =>
      d.accountID != accountID || !registering (Pool.logOf i st.history) d ||
        ((countStands accountID i st.history).isSome &&
          (d.key == [] || (lookupStands accountID d.role d.key i st.history).isSome))
    | _ => true
  | _ => true

/-- The key of a device of the account is not replaced by another. -/
def keepsKey (accountID : String) (st : Requests) : Step → Bool
  | .call i _ =>
    match nextCall st i with
    | some (.store (.upsertDevice d)) =>
      (st.world.store.devices.get d.id).all fun e =>
        e.accountID != accountID || e.key == [] || e.key == d.key
    | _ => true
  | _ => true

theorem handle_registers {srv : Service} (r : Request) (hr : r.registers=true) :
    Makes (Registers srv.deviceCap) [] (handle srv r) := by
  cases r with
  | registerDevice authorization req =>
    have h : Makes (fun l op => Calm (fun _ => True) false srv false l op ∧
        Registers srv.deviceCap l op) [] (handleRegisterDevice srv authorization req) :=
      handleRegisterDevice_calm authorization req
    exact obeys_seq (obeys_weaken h fun _ _ _ hop => hop.2) fun _ _ _ _ => trivial
  | completePairing req =>
    rcases req with _ | req
    · exact trivial
    exact obeys_seq (obeys_weaken (handleCompletePairing_finishes (fun _ => True) false srv req)
      fun _ _ _ hop => hop.2.2) fun _ _ _ _ => trivial
  | _ => cases hr

variable {accountID : String} {d : Device} {role : Role} {key : Bytes}

theorem get_of_find {s : Store} (h : s.findDeviceByAccountRoleKey accountID role key = .ok d) :
    s.devices.get d.id=some d := by
  unfold Store.findDeviceByAccountRoleKey at h
  split at h
  · cases h
  · rw [Store.found_eq_ok] at h
    exact (Table.mem_list.1 (List.mem_of_head? h)).1

theorem not_under_of_find {s : Store} {e : Err} (hkey : key≠[])
    (h : s.findDeviceByAccountRoleKey accountID role key = .error e) (id : String) (d : Device)
    (hget : s.devices.get id=some d) : under accountID role key d=false := by
  unfold Store.findDeviceByAccountRoleKey at h
  rw [if_neg hkey] at h
  refine Bool.eq_false_iff.2 fun hunder => ?_
  have hmem:=Table.mem_list_of_get hget hunder
  obtain ⟨d',hhead⟩:=Option.isSome_iff_exists.1 (List.isSome_head?.2 (List.ne_nil_of_mem hmem))
  unfold under at hhead
  rw [hhead] at h
  cases h

theorem under_iff :
    under accountID role key d=true ↔ d.accountID=accountID ∧ d.role=role ∧ d.key=key := by
  simp [under,and_assoc]

variable {e : Event}

theorem eq_of_counted {n : ℕ} (h : countedDevices accountID e=some n) :
    e=⟨.store (.countDevicesByAccount accountID),.ok n⟩ := by
  unfold countedDevices at h
  split at h
  · split at h
    · next hid =>
      cases h
      rw [hid]
    · cases h
  · cases h

/- A call that stores a device reads none. -/

theorem heldBy_of_stored (h : storedDevice e=some d) : heldBy e=some d := by
  unfold storedDevice at h
  split at h
  · exact h
  · cases h

theorem not_counted_of_stored (h : storedDevice e=some d) : countedDevices accountID e=none := by
  unfold storedDevice at h
  split at h
  · rfl
  · cases h

theorem not_missed_of_stored (h : storedDevice e=some d) :
    missedDevice accountID role key e=none := by
  unfold storedDevice at h
  split at h
  · rfl
  · cases h

section Call
variable (a : Answer) (op : Op) (w : World)

theorem devices_perform :
    (storedDevice ⟨op,(Auth.perform a op w).1⟩=none ∧
        (Auth.perform a op w).2.store.devices=w.store.devices) ∨
      ∃ d,op = .store (.upsertDevice d) ∧
        storedDevice ⟨op,(Auth.perform a op w).1⟩=some d ∧
        (Auth.perform a op w).2.store=w.store.upsertDevice d := by
  by_cases hop : ∃ d,op = .store (.upsertDevice d)
  · obtain ⟨d,rfl⟩:=hop
    cases hf : a.fault with
    | true => exact .inl ⟨by simp [Auth.perform,hf,storedDevice],by simp [Auth.perform,hf]⟩
    | false =>
      refine .inr ⟨d,rfl,?_,?_⟩
      · simp [Auth.perform,hf,Store.exec,storedDevice]
      · simp [Auth.perform,hf,Store.exec]
  left
  constructor
  · unfold storedDevice
    split
    · next d u heq => exact absurd ⟨d,(Sigma.mk.inj heq).1⟩ hop
    · rfl
  rcases perform_writes a op w with hsame | ⟨sop,rfl,hwrites⟩
  · rw [hsame]
  generalize (Auth.perform a (.store sop) w).2.store=s' at hwrites
  cases hwrites with
  | device d key => exact absurd ⟨d,rfl⟩ hop
  | _ => rfl

variable {a op w}

theorem heldBy_perform {d : Device} (h : heldBy ⟨op,(Auth.perform a op w).1⟩=some d) :
    storedDevice ⟨op,(Auth.perform a op w).1⟩=some d ∨ w.store.devices.get d.id=some d := by
  unfold heldBy at h
  split at h
  · next id d' heq =>
    cases h
    obtain ⟨rfl,hr⟩:=Sigma.mk.inj heq
    have hexec:=(perform_ok (eq_of_heq hr)).1
    have hget : w.store.devices.get id=some d := by simpa [Store.exec] using hexec
    right
    rw [Table.key_of_get hget,hget]
  · next accountID role key d' heq =>
    cases h
    obtain ⟨rfl,hr⟩:=Sigma.mk.inj heq
    have hexec:=(perform_ok (eq_of_heq hr)).1
    exact .inr (get_of_find hexec)
  · next d' u heq =>
    cases h
    left
    rw [heq]
    rfl
  · cases h

theorem countedDevices_perform {accountID : String} {n : ℕ}
    (h : countedDevices accountID ⟨op,(Auth.perform a op w).1⟩=some n) :
    deviceCount w.store accountID=n := by
  obtain ⟨rfl,hr⟩:=Sigma.mk.inj (eq_of_counted h)
  cases (perform_ok (eq_of_heq hr)).1
  rfl

theorem missedDevice_perform {accountID : String} {role : Role} {key : Bytes} (hkey : key≠[])
    (h : missedDevice accountID role key ⟨op,(Auth.perform a op w).1⟩=some ()) (id : String)
    (d : Device) (hget : w.store.devices.get id=some d) : under accountID role key d=false := by
  unfold missedDevice at h
  split at h
  · next id' role' key' e heq =>
    obtain ⟨rfl,hr⟩:=Sigma.mk.inj heq
    split at h
    · next hsame =>
      obtain ⟨rfl,rfl,rfl,hmissing⟩:=hsame
      have herr:=eq_of_heq hr
      cases hf : a.fault with
      | true =>
        have hfault : Err.fault=e := by simpa [Auth.perform,hf] using herr
        subst hfault
        cases hmissing
      | false =>
        have hexec : w.store.findDeviceByAccountRoleKey id' role' key' = .error e := by
          simpa [Auth.perform,hf,Store.exec] using herr
        exact not_under_of_find hkey hexec id d hget
    · cases h
  · cases h

end Call

/-- What holds of the account's devices as long as requests rely on what stands. -/
structure CapKept (cap : ℕ) (accountID : String) (w : World) (history : List (ℕ × Event)) :
    Prop where
  /- a device a request holds is stored, with the same account and role -/
  held : ∀ x ∈ history, ∀ d, heldBy x.2 = some d →
    ∃ row, w.store.devices.get d.id = some row ∧ row.accountID=d.accountID ∧ row.role=d.role
  within : deviceCount w.store accountID ≤ cap
  counted : ∀ i n, countStands accountID i history = some n → deviceCount w.store accountID = n
  missed : ∀ role key i, key≠[] → lookupStands accountID role key i history = some () →
    ∀ id d, w.store.devices.get id = some d → under accountID role key d = false
  /- a device registered under a key still has it -/
  stored : ∀ d ∈ registrations history, ∀ role key, key≠[] → under accountID role key d = true →
    ∃ row, w.store.devices.get d.id = some row ∧ under accountID role key row = true
  once : ∀ role key, key≠[] → (registrations history).countP (under accountID role key) ≤ 1

section Kept
variable {cap : ℕ} {accountID : String} {w : World} {history : List (ℕ × Event)} {i : ℕ}
  {a : Answer} {op : Op}

theorem capKept_start (h : deviceCount w.store accountID≤cap) : CapKept cap accountID w [] where
  held x hx := by cases hx
  within := h
  counted i n hn := by cases hn
  missed role key i hkey hn := by cases hn
  stored d hd := by cases hd
  once role key hkey := Nat.zero_le 1

theorem CapKept.looked (h : CapKept cap accountID w history)
    (hnone : storedDevice ⟨op,(Auth.perform a op w).1⟩=none)
    (hsame : (Auth.perform a op w).2.store.devices=w.store.devices) :
    CapKept cap accountID (Auth.perform a op w).2
      ((i,⟨op,(Auth.perform a op w).1⟩)::history) := by
  have hcount : deviceCount (Auth.perform a op w).2.store accountID =
      deviceCount w.store accountID := by
    rw [deviceCount,hsame]
    rfl
  have hregs : registrations ((i,⟨op,(Auth.perform a op w).1⟩)::history) =
      registrations history := by
    simp [registrations,registeredBy,hnone]
  constructor
  · intro x hx d hd
    rw [hsame]
    rcases List.mem_cons.1 hx with rfl | hx
    · rcases heldBy_perform hd with hstored | hget
      · rw [hnone] at hstored
        cases hstored
      · exact ⟨d,hget,rfl,rfl⟩
    · exact h.held x hx d hd
  · rw [hcount]
    exact h.within
  · intro j n hn
    rw [hcount]
    rcases standing_cons hn with ⟨-,hread⟩ | ⟨-,hold⟩
    · exact countedDevices_perform hread
    · exact h.counted j n hold
  · intro role key j hkey hn id d hget
    rw [hsame] at hget
    rcases standing_cons hn with ⟨-,hread⟩ | ⟨-,hold⟩
    · exact missedDevice_perform hkey hread id d hget
    · exact h.missed role key j hkey hold id d hget
  · rw [hregs,hsame]
    exact h.stored
  · rw [hregs]
    exact h.once

section Stored
variable {d : Device} (h : CapKept cap accountID w history)
  (hd : storedDevice ⟨op,(Auth.perform a op w).1⟩ = some d)
  (hput : (Auth.perform a op w).2.store.devices = w.store.devices.put d)
include h hd hput

theorem CapKept.registered (hreg : registering (Pool.logOf i history) d=true)
    (hfree : w.store.devices.get d.id=none)
    (hroom : d.accountID=accountID → deviceCount w.store accountID<cap)
    (hmissing : d.accountID=accountID → d.key≠[] →
      ∀ id row,w.store.devices.get id=some row → under accountID d.role d.key row=false) :
    CapKept cap accountID (Auth.perform a op w).2
      ((i,⟨op,(Auth.perform a op w).1⟩)::history) := by
  have hby : registeredBy (i,⟨op,(Auth.perform a op w).1⟩) history=some d := by
    simp [registeredBy,hd,hreg]
  have hregs : registrations ((i,⟨op,(Auth.perform a op w).1⟩)::history) =
      d::registrations history := by
    simp [registrations,hby]
  have hnew : ∀ {P : Prop} (b : Device), w.store.devices.get d.id=some b → P := by
    intro P b hb
    rw [hfree] at hb
    cases hb
  constructor
  · intro x hx d' hd'
    rw [hput]
    rcases List.mem_cons.1 hx with rfl | hx
    · cases (heldBy_of_stored hd).symm.trans hd'
      exact ⟨d,Table.get_put_self _ _,rfl,rfl⟩
    · exact Table.exists_get_put (h.held x hx d' hd') fun b hb => hnew b hb
  · rw [deviceCount,hput]
    by_cases hacct : d.accountID=accountID
    · rw [Table.count_put_new hfree (by simpa using hacct)]
      exact hroom hacct
    · rw [Table.count_put_same (by simp [hacct,hfree])]
      exact h.within
  · intro j n hn
    rcases standing_cons hn with ⟨-,hread⟩ | ⟨hspoils,hold⟩
    · cases (not_counted_of_stored hd).symm.trans hread
    have hacct : d.accountID≠accountID := by simpa [hby] using hspoils
    rw [deviceCount,hput,Table.count_put_same (by simp [hacct,hfree])]
    exact h.counted j n hold
  · intro role key j hkey hn
    rw [hput]
    rcases standing_cons hn with ⟨-,hread⟩ | ⟨hspoils,hold⟩
    · cases (not_missed_of_stored hd).symm.trans hread
    · have hother : under accountID role key d=false := by simpa [hd] using hspoils
      exact Table.forall_get_put hother (h.missed role key j hkey hold)
  · intro d' hd' role key hkey hunder
    rw [hregs] at hd'
    rw [hput]
    rcases List.mem_cons.1 hd' with rfl | hd'
    · exact ⟨d',Table.get_put_self _ _,hunder⟩
    · exact Table.exists_get_put (h.stored d' hd' role key hkey hunder) fun b hb => hnew b hb
  · intro role key hkey
    rw [hregs,List.countP_cons]
    cases hunder : under accountID role key d with
    | false => exact h.once role key hkey
    | true =>
      -- a device registered before under this key would have been found
      have hnone : (registrations history).countP (under accountID role key)=0 := by
        refine List.countP_eq_zero.2 fun d' hd' hunder' => ?_
        obtain ⟨row,hrow,hrowUnder⟩:=h.stored d' hd' role key hkey hunder'
        obtain ⟨hacct,hrole,hkeyeq⟩:=under_iff.1 hunder
        have hmiss:=hmissing hacct (hkeyeq ▸ hkey) d'.id row hrow
        rw [hrole,hkeyeq,hrowUnder] at hmiss
        cases hmiss
      rw [hnone]
      exact Nat.le_refl 1

theorem CapKept.rekeyed (hreg : registering (Pool.logOf i history) d=false) {row : Device}
    (hrow : w.store.devices.get d.id=some row) (hacct : row.accountID=d.accountID)
    (hrole : row.role=d.role) (hkept : row.accountID=accountID → row.key=[] ∨ row.key=d.key) :
    CapKept cap accountID (Auth.perform a op w).2
      ((i,⟨op,(Auth.perform a op w).1⟩)::history) := by
  have hregs : registrations ((i,⟨op,(Auth.perform a op w).1⟩)::history) =
      registrations history := by
    simp [registrations,registeredBy,hd,hreg]
  have hcount : deviceCount (Auth.perform a op w).2.store accountID =
      deviceCount w.store accountID := by
    rw [deviceCount,hput]
    exact Table.count_put_same (by simp [hrow,hacct])
  constructor
  · intro x hx d' hd'
    rw [hput]
    rcases List.mem_cons.1 hx with rfl | hx
    · cases (heldBy_of_stored hd).symm.trans hd'
      exact ⟨d,Table.get_put_self _ _,rfl,rfl⟩
    refine Table.exists_get_put (h.held x hx d' hd') fun b hb hsame => ?_
    cases hrow.symm.trans hb
    exact ⟨hacct ▸ hsame.1,hrole ▸ hsame.2⟩
  · rw [hcount]
    exact h.within
  · intro j n hn
    rw [hcount]
    rcases standing_cons hn with ⟨-,hread⟩ | ⟨-,hold⟩
    · cases (not_counted_of_stored hd).symm.trans hread
    · exact h.counted j n hold
  · intro role key j hkey hn
    rw [hput]
    rcases standing_cons hn with ⟨-,hread⟩ | ⟨hspoils,hold⟩
    · cases (not_missed_of_stored hd).symm.trans hread
    · have hother : under accountID role key d=false := by simpa [hd] using hspoils
      exact Table.forall_get_put hother (h.missed role key j hkey hold)
  · intro d' hd' role key hkey hunder
    rw [hregs] at hd'
    rw [hput]
    refine Table.exists_get_put (h.stored d' hd' role key hkey hunder) fun b hb hb' => ?_
    cases hrow.symm.trans hb
    obtain ⟨hacct',hrole',hkey'⟩:=under_iff.1 hb'
    rcases hkept hacct' with hempty | hsame
    · exact absurd (hkey'.symm.trans hempty) hkey
    · exact under_iff.2 ⟨hacct ▸ hacct',hrole ▸ hrole',hsame ▸ hkey'⟩
  · rw [hregs]
    exact h.once

end Stored

theorem upsertDevice_devices {s : Store} {d : Device}
    (h : d.publicKey.isSome=true ∨ s.devices.get d.id=none) :
    (s.upsertDevice d).devices=s.devices.put d := by
  unfold Store.upsertDevice
  cases hkey : d.publicKey with
  | some pub => rfl
  | none =>
    rcases h with hsome | hnew
    · rw [hkey] at hsome
      cases hsome
    · rw [hnew]
      simp [← hkey]

theorem CapKept.called {st : Requests} (h : CapKept cap accountID st.world st.history)
    (hnext : nextCall st i=some op) (hok : Registers cap (Pool.logOf i st.history) op)
    (hfresh : freshDevice st (.call i a)=true) (hrelies : relies accountID st (.call i a)=true)
    (hkeeps : keepsKey accountID st (.call i a)=true) :
    CapKept cap accountID (Auth.perform a op st.world).2
      ((i,⟨op,(Auth.perform a op st.world).1⟩)::st.history) := by
  rcases devices_perform a op st.world with ⟨hnone,hsame⟩ | ⟨d,rfl,hd,hstore⟩
  · exact h.looked hnone hsame
  simp only [freshDevice,relies,keepsKey,hnext] at hfresh hrelies hkeeps
  cases hreg : registering (Pool.logOf i st.history) d with
  | true =>
    have hlog:=Bool.and_eq_true_iff.1 hreg
    have hfree : st.world.store.devices.get d.id=none := by
      rw [hlog.1,hlog.2] at hfresh
      simpa using hfresh
    have hput:=(congrArg Store.devices hstore).trans (upsertDevice_devices (.inr hfree))
    have hstands : d.accountID=accountID →
        (countStands accountID i st.history).isSome=true ∧
          (d.key=[] ∨ (lookupStands accountID d.role d.key i st.history).isSome=true) := by
      intro hacct
      simpa [hacct,hreg] using hrelies
    refine h.registered hd hput hreg hfree ?_ ?_
    · intro hacct
      obtain ⟨n,hn⟩:=Option.isSome_iff_exists.1 (hstands hacct).1
      obtain ⟨e,he,hread⟩:=read_of_standing hn
      rw [h.counted i n hn]
      have hroom : ∀ m,Saw (Pool.logOf i st.history) (.countDevicesByAccount d.accountID)
          (.ok m) → m<cap := by
        have hif : if registering (Pool.logOf i st.history) d then _ else _ := hok
        rwa [if_pos hreg] at hif
      apply hroom
      rw [hacct]
      have hmem:=Pool.mem_logOf.2 he
      rwa [eq_of_counted hread] at hmem
    · intro hacct hkey
      obtain ⟨u,hu⟩:=Option.isSome_iff_exists.1 ((hstands hacct).2.resolve_left hkey)
      exact h.missed d.role d.key i hkey hu
  | false =>
    have hheld : ∃ e pub,Holds (Pool.logOf i st.history) e ∧
        d = { e with publicKey := some pub } := by
      have hif : if registering (Pool.logOf i st.history) d then _ else _ := hok
      rwa [if_neg (by rw [hreg]; exact Bool.false_ne_true)] at hif
    obtain ⟨e,pub,⟨x,hx,hxe⟩,rfl⟩:=hheld
    obtain ⟨row,hrow,hacct,hrole⟩:=h.held (i,x) (Pool.mem_logOf.1 hx) e hxe
    have hput:=(congrArg Store.devices hstore).trans (upsertDevice_devices (.inl rfl))
    refine h.rekeyed hd hput hreg hrow hacct hrole fun heq => ?_
    rw [show st.world.store.devices.get ({ e with publicKey := some pub } : Device).id=some row
      from hrow] at hkeeps
    simpa [heq] using hkeeps

end Kept

/-- Registrations and completions of any accounts, started, run and stopped in any
order: where a device is registered only while its request's count and lookup
stand, drawn ids are new and no key of the account's devices is replaced, the
account keeps within the cap and registers no key twice. -/
theorem devices_within_cap (srv : Service) (accountID : String) (w : World)
    (hw : deviceCount w.store accountID ≤ srv.deviceCap) (steps : List Step)
    (hkind : ∀ x ∈ steps, ofRegistration x = true)
    (hsteps : Machine.Guarded (interleave srv)
      (fun st x => (freshDevice st x && relies accountID st x && keepsKey accountID st x) = true)
      (Pool.start w) steps) :
    deviceCount (Machine.run (interleave srv) (Pool.start w) steps).world.store accountID ≤
        srv.deviceCap ∧
      ∀ role key, key≠[] →
        (registrations (Machine.run (interleave srv) (Pool.start w) steps).history).countP
          (under accountID role key) ≤ 1 := by
  have hguard := Machine.guarded_and (interleave srv) _ _ (Pool.start w) steps hsteps
    (Machine.guarded_of_forall (interleave srv) (fun _ x => ofRegistration x = true)
      (Pool.start w) steps fun x hx _ => hkind x hx)
  have hledger : Pool.Ledger (Registers srv.deviceCap) (fun _ => True)
      (CapKept srv.deviceCap accountID) (Machine.run (interleave srv) (Pool.start w) steps) := by
    refine ledger_run _ _ ?_ ?_ (Pool.ledger_start (capKept_start hw)) hguard
    · intro st r hr
      exact handle_registers r hr.2
    intro st i a op h hx hnext hok
    obtain ⟨⟨hfresh,hrelies⟩,hkeeps⟩ :
        (freshDevice st (.call i a) = true ∧ relies accountID st (.call i a) = true) ∧
          keepsKey accountID st (.call i a) = true := by
      simpa only [Bool.and_eq_true] using hx.1
    exact h.called hnext hok hfresh hrelies hkeeps
  exact ⟨hledger.inv.within,hledger.inv.once⟩

/-! ## Samples

An account that may have one device, and phones that register with it. -/

def cappedService : Service := { sampleService with deviceCap := 1 }

def teamWorld : World :=
  next cappedService {} (.createAccount "Bearer root" (some "team"),drawing "s")

def phoneStarts (publicKey : String) : Step :=
  .start (.registerDevice "Bearer team.s" (some { role := "mobile", publicKey }))

def phonesCollide : List Step :=
  [phoneStarts "AQ==",phoneStarts "AQ=="] ++ calls 5 0 "d" ++ calls 10 1 "e" ++ calls 1 0 "d"

def phonesAfter (srv : Service) (w : World) (accountID : String) (key : Bytes)
    (steps : List Step) : ℕ × ℕ :=
  let st := Machine.run (interleave srv) (Pool.start w) steps
  (deviceCount st.world.store accountID,
    (registrations st.history).countP (under accountID .mobile key))

/- A phone registers, completes a pairing with another key, and registers again. -/
def phoneRekeyed : List Step :=
  let registers : Step :=
    .start (.registerDevice "Bearer acct_a.s" (some { role := "mobile", publicKey := "AQ==" }))
  [registers] ++ calls 10 0 "m" ++
    [.start (.completePairing (some
      { pairingToken := "pt_p", mobileDeviceID := "dev_m", mobilePublicKey := "AQ=" }))] ++
    calls 30 1 "p" ++ [registers] ++ calls 10 2 "n"

theorem phones_exceed_cap :
    phonesCollide.all ofRegistration = true ∧ deviceCount teamWorld.store "team" = 0 ∧
      phonesAfter cappedService teamWorld "team" [4] phonesCollide = (2,2) ∧
    phoneRekeyed.all ofRegistration = true ∧ deviceCount desktopWorld.store "acct_a" = 1 ∧
      phonesAfter sampleService desktopWorld "acct_a" [4] phoneRekeyed = (3,2) := by
  decide +kernel

def phonesQueue : List Step :=
  [phoneStarts "AQ==",phoneStarts "AQ="] ++ calls 10 0 "d" ++ calls 10 1 "e"

theorem devices_within_cap_in_turn :
    phonesAfter cappedService teamWorld "team" [4] phonesQueue = (1,1) ∧
      deviceCount (Machine.run (interleave cappedService) (Pool.start teamWorld)
        phonesQueue).world.store "team" ≤ 1 :=
  ⟨by decide +kernel,
    (devices_within_cap cappedService "team" teamWorld (by decide +kernel) phonesQueue
      (by decide +kernel) (by decide +kernel)).1⟩

end SecureGateway.Auth
