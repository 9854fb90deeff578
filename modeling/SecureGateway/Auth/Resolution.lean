import SecureGateway.Auth.Credentials
import SecureGateway.Auth.SingleUse
import SecureGateway.Lib.Triple

/-!
# Consumed pairing tokens

A completion consumes its token before it inserts the pairing, and the insertion may still
be refused; the token is then consumed for a pair that does not exist. Where nobody else
inserts a pairing of the license between the count and the insertion, a consumed token
always leads to a pairing with a phone.
-/

namespace SecureGateway.Auth
open Authstore Prog
open E2ee (Bytes)

def Housed (s : Store) (pairID : String) : Prop :=
  ∃ p d, s.pairings.get pairID = some p ∧ s.devices.get p.mobileDeviceID = some d

def Resolves (s : Store) : Prop :=
  ∀ id pt, s.pairingTokens.get id = some pt → pt.consumedAt≠0 → Housed s pt.resultPairID

def pairingStep : Step → Bool
  | .start (.completePairing _) | .start (.unpair _ _) | .start (.pollPairingToken _ _) => true
  | .start _ => false
  | _ => true

/- The id drawn for a new pair names no pairing when the pairing is inserted. -/
def freshPair (st : Requests) : Step → Bool
  | .call i _ =>
    match nextCall st i with
    | some (.store (.createPairingWithinCapacity p _)) =>
      (st.world.store.pairings.get p.pairID).isNone
    | _ => true
  | _ => true

def filled (licenseID : String) (e : Event) : Bool :=
  (inserted e).any (Store.activeOn licenseID)

/- Nobody has inserted an active pairing of the license since request `i` last
counted them. -/
def uncrowded (i : ℕ) (licenseID : String) : List (ℕ × Event) → Bool
  | [] => false
  | (j,e) :: history =>
    (i == j && (tallied licenseID e).isSome) || (!filled licenseID e && uncrowded i licenseID history)

/-- A pairing is inserted only where nobody has filled a slot of its license since
the request counted them. -/
def roomy (st : Requests) : Step → Bool
  | .call i _ =>
    match nextCall st i with
    | some (.store (.createPairingWithinCapacity p _)) => uncrowded i p.licenseID st.history
    | _ => true
  | _ => true

def Op.unpairs : Op → Bool
  | .store (.setPairingStatus _ status) => status == .revoked
  | .store (.revokePairCredential _ _) => true
  | .store op => op.reads
  | _ => true

def PairingCall (log : List Event) (op : Op) : Prop :=
  (∃ tokenID pub, Completing tokenID pub log op) ∨ op.unpairs=true

section Kept
variable {a : Answer} {op : Op} {w : World}

theorem device_kept {id : String} (h : ∃ d,w.store.devices.get id=some d) :
    ∃ d,(perform a op w).2.store.devices.get id=some d := by
  rcases perform_writes a op w with hsame | ⟨sop,rfl,hw⟩
  · rw [hsame]
    exact h
  generalize (perform a (.store sop) w).2.store=s' at hw
  cases hw with
  | device d publicKey =>
    by_cases hid : d.id=id
    · subst hid
      exact ⟨_,Table.get_put_self _ { d with publicKey := publicKey }⟩
    · obtain ⟨d',hd'⟩:=h
      exact ⟨d',(Table.get_put_ne _ { d with publicKey := publicKey } hid).trans hd'⟩
  | _ => exact h

theorem rewrote_perform {pairID mobileID : String}
    (h : rewrote ⟨op,(perform a op w).1⟩=some (pairID,mobileID)) :
    ∃ p,(perform a op w).2.store.pairings.get pairID=some p ∧ p.mobileDeviceID=mobileID := by
  unfold rewrote at h
  split at h
  · next p maxPairs u heq =>
    cases h
    obtain ⟨rfl,hr⟩:=Sigma.mk.inj heq
    obtain ⟨hexec,hstore⟩:=perform_ok (eq_of_heq hr)
    rw [hstore,Store.exec,Store.createPairingWithinCapacity_ok _ hexec]
    exact ⟨p,Table.get_put_self _ p,rfl⟩
  · next id mobile desktop u heq =>
    cases h
    obtain ⟨rfl,hr⟩:=Sigma.mk.inj heq
    obtain ⟨hexec,hstore⟩:=perform_ok (eq_of_heq hr)
    rw [hstore]
    simp only [Store.exec,Store.updatePairingDevices,Store.modifyPairing] at hexec ⊢
    cases hget : w.store.pairings.get pairID with
    | none => simp [hget] at hexec
    | some q =>
      obtain rfl : q.pairID=pairID := Table.key_of_get hget
      have hput:=w.store.pairings.get_put_self
        { q with mobileDeviceID := mobileID, desktopDeviceID := desktop }
      exact ⟨_,hput,rfl⟩
  · cases h

theorem pairing_kept {id : String} {p : Pairing} (h : w.store.pairings.get id=some p) :
    ∃ p',(perform a op w).2.store.pairings.get id=some p' ∧
      (p'.mobileDeviceID=p.mobileDeviceID ∨
        rewrote ⟨op,(perform a op w).1⟩=some (id,p'.mobileDeviceID)) := by
  by_cases hop : ∃ mobileID desktopID,op = .store (.updatePairingDevices id mobileID desktopID)
  · obtain ⟨mobileID,desktopID,rfl⟩:=hop
    cases hr : (perform a (.store (.updatePairingDevices id mobileID desktopID)) w).1 with
    | error e =>
      rw [perform_error hr]
      exact ⟨p,h,.inl rfl⟩
    | ok u =>
      have hrewrote : rewrote ⟨.store (.updatePairingDevices id mobileID desktopID),
          (perform a (.store (.updatePairingDevices id mobileID desktopID)) w).1⟩ =
            some (id,mobileID) := by
        rw [hr]
        rfl
      obtain ⟨q,hq,rfl⟩:=rewrote_perform hrewrote
      exact ⟨q,hq,.inr rfl⟩
  rcases perform_writes a op w with hsame | ⟨sop,rfl,hw⟩
  · rw [hsame]
    exact ⟨p,h,.inl rfl⟩
  generalize (perform a (.store sop) w).2.store=s' at hw
  have hput (q : Pairing) (hq : q.pairID=id → q.mobileDeviceID=p.mobileDeviceID) :
      ∃ p',(w.store.pairings.put q).get id=some p' ∧ (p'.mobileDeviceID=p.mobileDeviceID ∨
        rewrote ⟨.store sop,(perform a (.store sop) w).1⟩=some (id,p'.mobileDeviceID)) := by
    rw [Table.get_put]
    split
    · next hid => exact ⟨q,rfl,.inl (hq hid)⟩
    · exact ⟨p,h,.inl rfl⟩
  cases hw with
  | pairing q hnew =>
    refine hput q fun hid => ?_
    rw [hid,h] at hnew
    cases hnew
  | pairingWithin q maxPairs hnew hfree =>
    refine hput q fun hid => ?_
    rw [hid,h] at hnew
    cases hnew
  | pairingStatus pairID status q hold =>
    refine hput { q with status := status } fun hid => ?_
    have hkey : q.pairID=pairID := Table.key_of_get hold
    rw [← hkey,show q.pairID=id from hid,h,Option.some.injEq] at hold
    rw [hold]
  | pairingDevices pairID mobileID desktopID q hold =>
    refine hput { q with mobileDeviceID := mobileID, desktopDeviceID := desktopID } fun hid => ?_
    have hkey : pairID=id := (Table.key_of_get hold).symm.trans hid
    exact absurd ⟨mobileID,desktopID,by rw [hkey]⟩ hop
  | _ => exact ⟨p,h,.inl rfl⟩

theorem storedDevice_perform {d : Device} (h : storedDevice ⟨op,(perform a op w).1⟩=some d) :
    ∃ d',(perform a op w).2.store.devices.get d.id=some d' ∧
      d'.publicKey=d.publicKey.or ((w.store.devices.get d.id).bind Device.publicKey) := by
  unfold storedDevice at h
  split at h
  · next d' u heq =>
    cases h
    obtain ⟨rfl,hr⟩:=Sigma.mk.inj heq
    obtain ⟨-,hstore⟩:=perform_ok (eq_of_heq hr)
    rw [hstore]
    simp only [Store.exec,Store.upsertDevice]
    split
    · next hnone =>
      refine ⟨_,w.store.devices.get_put_self
        { d with publicKey := (w.store.devices.get d.id).bind Device.publicKey },?_⟩
      rw [Option.isNone_iff_eq_none.1 hnone,Option.none_or]
    · next hsome =>
      refine ⟨d,w.store.devices.get_put_self d,?_⟩
      cases hkey : d.publicKey with
      | none => simp [hkey] at hsome
      | some key => rfl
  · cases h

end Kept

section Call
variable {a : Answer} {op : Op} {w : World} {history : List (ℕ × Event)} {i : ℕ} {log : List Event}

theorem activePairCount_called (hok : PairingCall log op) {licenseID : String}
    (hfilled : filled licenseID ⟨op,(perform a op w).1⟩=false) :
    (perform a op w).2.store.activePairCount licenseID≤w.store.activePairCount licenseID := by
  by_cases hcreate : ∃ p n,op = .store (.createPairingWithinCapacity p n)
  · obtain ⟨p,n,rfl⟩:=hcreate
    cases hr : (perform a (.store (.createPairingWithinCapacity p n)) w).1 with
    | error e => rw [perform_error hr]
    | ok u =>
      obtain ⟨hexec,hstore⟩:=perform_ok hr
      rw [hr] at hfilled
      rw [hstore,Store.exec,Store.createPairingWithinCapacity_ok _ hexec]
      refine Table.count_put_le_same fun hon => ?_
      simp [filled,inserted,hon] at hfilled
  · rcases perform_writes a op w with hsame | ⟨sop,rfl,hw⟩
    · rw [hsame]
    generalize (perform a (.store sop) w).2.store=s' at hw
    cases hw with
    | pairing p hnew =>
      rcases hok with ⟨tokenID,pub,hok⟩ | hok
      · cases hok
      · cases hok
    | pairingWithin p maxPairs hnew hfree => exact absurd ⟨p,maxPairs,rfl⟩ hcreate
    | pairingStatus pairID status p hold =>
      have hstatus : status=.revoked := by
        rcases hok with ⟨tokenID,pub,hok⟩ | hok
        · cases hok
        · simpa [Op.unpairs] using hok
      refine Table.count_put_le_same fun hon => ?_
      simp [Store.activeOn,hstatus] at hon
    | pairingDevices pairID mobileID desktopID p hold =>
      refine Table.count_put_le_same fun hon => ?_
      exact ⟨p,Table.replaced hold rfl,hon⟩
    | _ => exact Nat.le_refl _

theorem tallied_perform {licenseID : String} {n : ℕ}
    (h : tallied licenseID ⟨op,(perform a op w).1⟩=some n) :
    n=w.store.activePairCount licenseID ∧ (perform a op w).2.store=w.store := by
  unfold tallied at h
  split at h
  · next id m heq =>
    obtain ⟨rfl,hr⟩:=Sigma.mk.inj heq
    have hexec:=(perform_ok (eq_of_heq hr)).1
    split at h
    · next hid =>
      subst hid
      cases hexec
      cases h
      exact ⟨rfl,perform_read a _ w rfl⟩
    · cases h
  · cases h

theorem keyed_of_rewrote {r : op.Rep} {pairID mobileID : String} (hok : PairingCall log op)
    (h : rewrote ⟨op,r⟩=some (pairID,mobileID)) : ∃ pub,Keyed pub log mobileID := by
  unfold rewrote at h
  split at h
  · next p maxPairs u heq =>
    cases h
    obtain ⟨rfl,-⟩:=Sigma.mk.inj heq
    rcases hok with ⟨tokenID,pub,hok⟩ | hok
    · exact ⟨pub,hok.2.1⟩
    · cases hok
  · next id mobile desktop u heq =>
    cases h
    obtain ⟨rfl,-⟩:=Sigma.mk.inj heq
    rcases hok with ⟨tokenID,pub,hok⟩ | hok
    · exact ⟨pub,hok.2.1⟩
    · cases hok
  · cases h

/-- What the requests have brought about, from the store `s₀` on. -/
structure Resolving (s₀ : Store) (w : World) (history : List (ℕ × Event)) : Prop where
  tokens : Tokens w history
  origin : ∀ id pt, w.store.pairingTokens.get id = some pt → pt.consumedAt≠0 →
    s₀.pairingTokens.get id = some pt ∨
      ∃ i e, (i,e) ∈ history ∧ spentBy e = some (id,pt.resultPairID)
  stored : ∀ i e d, (i,e) ∈ history → storedDevice e = some d →
    ∃ d', w.store.devices.get d.id = some d'
  listed : ∀ i p, Listed (Pool.logOf i history) p → ∃ p', w.store.pairings.get p.pairID = some p'
  written : ∀ i e pairID mobileID, (i,e) ∈ history → rewrote e = some (pairID,mobileID) →
    Housed w.store pairID
  kept : ∀ pairID, Housed s₀ pairID → Housed w.store pairID
  counted : ∀ i licenseID, uncrowded i licenseID history = true →
    ∃ n, tally licenseID (Pool.logOf i history) = some n ∧ w.store.activePairCount licenseID ≤ n
  smooth : ∀ i e, (i,e) ∈ history → refused e = false

theorem resolving_start (w : World) : Resolving w.store w [] where
  tokens := tokens_start w
  origin id pt hpt _ := .inl hpt
  stored i e d he := by cases he
  listed i p hp := by
    obtain ⟨licenseID,ps,hsaw,-⟩:=hp
    simp [Saw,Pool.logOf] at hsaw
  written i e pairID mobileID he := by cases he
  kept pairID h := h
  counted i licenseID h := by cases h
  smooth i e he := by cases he

variable {s₀ : Store}

theorem Resolving.origin_called (h : Resolving s₀ w history)
    (hok : PairingCall (Pool.logOf i history) op) (id : String) (pt : PairingToken)
    (hget : (perform a op w).2.store.pairingTokens.get id=some pt) (hc : pt.consumedAt≠0) :
    s₀.pairingTokens.get id=some pt ∨ ∃ j e,(j,e)∈(i,⟨op,(perform a op w).1⟩)::history ∧
      spentBy e=some (id,pt.resultPairID) := by
  rcases token_back hget with hbefore | hspent | ⟨t,rfl⟩
  · rcases h.origin id pt hbefore hc with hstart | ⟨j,e,he,hs⟩
    · exact .inl hstart
    · exact .inr ⟨j,e,List.mem_cons_of_mem _ he,hs⟩
  · exact .inr ⟨i,_,List.mem_cons_self,hspent⟩
  · rcases hok with ⟨tokenID,pub,hok⟩ | hok
    · cases hok
    · cases hok

theorem Resolving.stored_called (h : Resolving s₀ w history) (j : ℕ) (e : Event) (d : Device)
    (he : (j,e)∈(i,⟨op,(perform a op w).1⟩)::history) (hd : storedDevice e=some d) :
    ∃ d',(perform a op w).2.store.devices.get d.id=some d' := by
  rcases List.mem_cons.1 he with heq | he
  · cases heq
    obtain ⟨d',hd',-⟩:=storedDevice_perform hd
    exact ⟨d',hd'⟩
  · exact device_kept (h.stored j e d he hd)

theorem Resolving.keyed (h : Resolving s₀ w history) {pub : Bytes} {mobileID : String} {j : ℕ}
    (hk : Keyed pub (Pool.logOf j history) mobileID) : ∃ d,w.store.devices.get mobileID=some d := by
  obtain ⟨d,hsaw,rfl,-⟩:=hk
  exact h.stored j _ d (Pool.mem_logOf.1 hsaw) rfl

theorem Resolving.listed_called (h : Resolving s₀ w history) (j : ℕ) (p : Pairing)
    (hp : Listed (Pool.logOf j ((i,⟨op,(perform a op w).1⟩)::history)) p) :
    ∃ p',(perform a op w).2.store.pairings.get p.pairID=some p' := by
  have hbefore : ∃ p',w.store.pairings.get p.pairID=some p' := by
    obtain ⟨licenseID,ps,hsaw,hmem⟩:=hp
    rcases saw_called hsaw with ⟨-,rfl,hexec⟩ | hold
    · cases hexec
      exact ⟨p,(Table.mem_list.1 hmem).1⟩
    · exact h.listed j p ⟨licenseID,ps,hold,hmem⟩
  obtain ⟨p',hp'⟩:=hbefore
  obtain ⟨q,hq,-⟩:=pairing_kept hp'
  exact ⟨q,hq⟩

theorem Resolving.housed_called (h : Resolving s₀ w history)
    (hok : PairingCall (Pool.logOf i history) op) {pairID : String} (hh : Housed w.store pairID) :
    Housed (perform a op w).2.store pairID := by
  obtain ⟨p,d,hp,hd⟩:=hh
  have hkept : ∃ q,(perform a op w).2.store.pairings.get pairID=some q ∧ _ := pairing_kept hp
  obtain ⟨q,hq,hsame | hrewrote⟩:=hkept
  · obtain ⟨d',hd'⟩:=device_kept ⟨d,hd⟩
    exact ⟨q,d',hq,hsame ▸ hd'⟩
  obtain ⟨pub,hk⟩:=keyed_of_rewrote hok hrewrote
  obtain ⟨d',hd'⟩:=device_kept (h.keyed hk)
  exact ⟨q,d',hq,hd'⟩

theorem Resolving.written_called (h : Resolving s₀ w history)
    (hok : PairingCall (Pool.logOf i history) op) (j : ℕ) (e : Event) (pairID mobileID : String)
    (he : (j,e)∈(i,⟨op,(perform a op w).1⟩)::history)
    (hrewrote : rewrote e=some (pairID,mobileID)) : Housed (perform a op w).2.store pairID := by
  rcases List.mem_cons.1 he with heq | he
  · cases heq
    obtain ⟨q,hq,rfl⟩:=rewrote_perform hrewrote
    obtain ⟨pub,hk⟩:=keyed_of_rewrote hok hrewrote
    obtain ⟨d,hd⟩:=device_kept (h.keyed hk)
    exact ⟨q,d,hq,hd⟩
  · exact h.housed_called hok (h.written j e pairID mobileID he hrewrote)

theorem Resolving.counted_called (h : Resolving s₀ w history)
    (hok : PairingCall (Pool.logOf i history) op) (j : ℕ) (licenseID : String)
    (hu : uncrowded j licenseID ((i,⟨op,(perform a op w).1⟩)::history)=true) :
    ∃ n,tally licenseID (Pool.logOf j ((i,⟨op,(perform a op w).1⟩)::history))=some n ∧
      (perform a op w).2.store.activePairCount licenseID≤n := by
  simp only [uncrowded,Bool.or_eq_true,Bool.and_eq_true,beq_iff_eq,Bool.not_eq_true'] at hu
  rcases hu with ⟨rfl,hsome⟩ | ⟨hfilled,hu⟩
  · obtain ⟨n,hn⟩:=Option.isSome_iff_exists.1 hsome
    obtain ⟨rfl,hstore⟩:=tallied_perform hn
    refine ⟨_,?_,Nat.le_of_eq (by rw [hstore])⟩
    rw [Pool.logOf_cons_self]
    simp [tally,hn]
  obtain ⟨n,hn,hle⟩:=h.counted j licenseID hu
  have hcount:=(activePairCount_called hok hfilled).trans hle
  by_cases hij : i=j
  · subst hij
    rw [Pool.logOf_cons_self]
    cases ht : tallied licenseID ⟨op,(perform a op w).1⟩ with
    | none => exact ⟨n,by simp [tally,ht,hn],hcount⟩
    | some m =>
      obtain ⟨rfl,hstore⟩:=tallied_perform ht
      exact ⟨w.store.activePairCount licenseID,by simp [tally,ht],Nat.le_of_eq (by rw [hstore])⟩
  · rw [Pool.logOf_cons_ne hij]
    exact ⟨n,hn,hcount⟩

/- Without a failing call and without a race no write is refused. -/
theorem Resolving.smooth_called (h : Resolving s₀ w history)
    (hok : PairingCall (Pool.logOf i history) op) (hfault : a.fault=false)
    (hfresh : ∀ p n,op = .store (.createPairingWithinCapacity p n) →
      w.store.pairings.get p.pairID=none)
    (hroom : ∀ p n,op = .store (.createPairingWithinCapacity p n) →
      uncrowded i p.licenseID history=true) :
    refused ⟨op,(perform a op w).1⟩=false := by
  cases op with
  | store sop =>
    cases sop with
    | upsertDevice d => simp [perform,hfault,Store.exec,refused]
    | putPairCredential c => simp [perform,hfault,Store.exec,refused]
    | updatePairingDevices pairID mobileID desktopID =>
      rcases hok with ⟨tokenID,pub,hok⟩ | hok
      · obtain ⟨-,-,-,p,hlisted,rfl⟩:=hok
        obtain ⟨p',hp'⟩:=h.listed i p hlisted
        simp [perform,hfault,Store.exec,Store.updatePairingDevices,Store.modifyPairing,hp',
          refused]
      · cases hok
    | createPairingWithinCapacity p maxPairs =>
      rcases hok with ⟨tokenID,pub,hok⟩ | hok
      · obtain ⟨-,-,-,-,n,hn,hlt⟩:=hok
        obtain ⟨m,hm,hle⟩:=h.counted i p.licenseID (hroom p maxPairs rfl)
        rw [hn,Option.some.injEq] at hm
        have hfree : ¬ maxPairs≤w.store.activePairCount p.licenseID := by omega
        simp [perform,hfault,Store.exec,Store.createPairingWithinCapacity,
          hfresh p maxPairs rfl,hfree,refused]
      · cases hok
    | _ => rfl
  | _ => rfl

end Call

theorem unpairs_of_unpairing {log : List Event} {op : Op} (h : Unpairing log op) :
    op.unpairs=true := by
  cases op with
  | store sop =>
    cases sop with
    | setPairingStatus pairID status =>
      obtain ⟨rfl,-⟩:=h
      rfl
    | revokePairCredential pairID t => rfl
    | _ => exact h
  | _ => rfl

theorem handleUnpair_unpairing (srv : Service) (authorization : String) (req : Option String) :
    Makes Unpairing [] (handleUnpair srv authorization req) := by
  have h : Makes (fun l op => Serves (fun _ => True) false srv false l op ∧ Unpairing l op) []
      (handleUnpair srv authorization req) := handleUnpair_serves authorization req
  exact obeys_weaken h fun _ _ _ hop => hop.2

theorem handle_unpairs (srv : Service) {r : Request} (hr : pairingStep (.start r)=true)
    (hnot : ∀ req,r ≠ .completePairing (some req)) :
    Makes (fun _ op => op.unpairs=true) [] (handle srv r) := by
  have hignore {α : Type} {p : Handler α} (h : Makes Unpairing [] p) :
      Makes (fun _ op => op.unpairs=true) [] (ignore p) :=
    obeys_weaken (obeys_seq h fun _ _ _ _ => trivial) fun _ _ _ hop => unpairs_of_unpairing hop
  cases r with
  | completePairing req =>
    rcases req with _ | req
    · exact hignore (trivial)
    · exact absurd rfl (hnot req)
  | pollPairingToken authorization token =>
    exact hignore (obeys_weaken (handlePollPairingToken_polls authorization token)
      fun _ _ _ hop => unpairing_of_polls hop)
  | unpair authorization pairID => exact hignore (handleUnpair_unpairing srv authorization pairID)
  | _ => cases hr

theorem handle_pairingCall (srv : Service) {r : Request} (hr : pairingStep (.start r)=true) :
    Makes PairingCall [] (handle srv r) := by
  by_cases hcompletes : ∃ req,r = .completePairing (some req)
  · obtain ⟨req,rfl⟩:=hcompletes
    exact obeys_weaken (handle_completing srv req) fun _ _ _ hop => .inl ⟨_,_,hop⟩
  · have hunpairs:=handle_unpairs srv hr fun req heq => hcompletes ⟨req,heq⟩
    exact obeys_weaken hunpairs fun _ _ _ hop => .inr hop

def resolvingStep (st : Requests) (x : Step) : Bool :=
  pairingStep x && faultless x && dated st x && freshPair st x

theorem resolving_called {s₀ : Store} (st : Requests) (i : ℕ) (a : Answer) (op : Op)
    (h : Resolving s₀ st.world st.history)
    (hguard : (resolvingStep st (.call i a) && roomy st (.call i a))=true)
    (hnext : nextCall st i=some op) (hok : PairingCall (Pool.logOf i st.history) op) :
    Resolving s₀ (perform a op st.world).2
      ((i,⟨op,(perform a op st.world).1⟩)::st.history) := by
  simp only [resolvingStep,faultless,Bool.and_eq_true,Bool.not_eq_true'] at hguard
  obtain ⟨⟨⟨⟨-,hfault⟩,hdated⟩,hfresh⟩,hroomy⟩:=hguard
  have hsmooth : refused ⟨op,(perform a op st.world).1⟩=false := by
    refine h.smooth_called hok hfault ?_ ?_
    · rintro p n rfl
      simpa [freshPair,hnext] using hfresh
    · rintro p n rfl
      simpa [roomy,hnext] using hroomy
  refine ⟨tokens_called st i a op h.tokens hdated hnext,h.origin_called hok,h.stored_called,
    h.listed_called,h.written_called hok,fun pairID hp => h.housed_called hok (h.kept pairID hp),
    h.counted_called hok,fun j e he => ?_⟩
  rcases List.mem_cons.1 he with heq | he
  · cases heq
    exact hsmooth
  · exact h.smooth j e he

theorem resolving_run {srv : Service} {w : World} {steps : List Step}
    (hsteps : Machine.Guarded (interleave srv)
      (fun st x => (resolvingStep st x && roomy st x)=true) (Pool.start w) steps) :
    Pool.Ledger PairingCall (fun _ => True) (Resolving w.store)
      (Machine.run (interleave srv) (Pool.start w) steps) := by
  refine ledger_run (Resolving w.store) _ (fun st r hr => ?_)
    (fun st i a op => resolving_called st i a op) (Pool.ledger_start (resolving_start w)) hsteps
  simp only [resolvingStep,Bool.and_eq_true] at hr
  exact handle_pairingCall srv hr.1.1.1.1

def NonePairing (steps : List Step) (st : Requests) : Prop :=
  ∀ (i : ℕ) (req : Option CompletePairingReq) (t : Thread Op Op.Rep),
    (requests steps)[i]? = some (.completePairing req) → st.threads[i]? = some t →
    t.finished = true

section Run
variable {srv : Service} {w : World} {steps : List Step}

theorem pairingStep_of_requests {st : Requests}
    (hsteps : Machine.Guarded (interleave srv)
      (fun st x => (resolvingStep st x && roomy st x)=true) st steps) (r : Request)
    (hr : r∈requests steps) : pairingStep (.start r)=true := by
  induction steps generalizing st with
  | nil => cases hr
  | cons x steps ih =>
    cases x with
    | start r' =>
      rcases List.mem_cons.1 hr with rfl | hr
      · have hstart:=hsteps.1
        simp only [resolvingStep,Bool.and_eq_true] at hstart
        exact hstart.1.1.1.1
      · exact ih hsteps.2 hr
    | call i a => exact ih hsteps.2 hr
    | crash i => exact ih hsteps.2 hr

theorem answered_of_finished {i : ℕ} {req : CompletePairingReq} {t : Thread Op Op.Rep}
    (hr : (requests steps)[i]? = some (.completePairing (some req)))
    (ht : (Machine.run (interleave srv) (Pool.start w) steps).threads[i]? = some t)
    (hfinished : t.finished=true) (halive : t.rest≠none) :
    ∃ res,Returns (handleCompletePairing srv (some req)) t.log.reverse res := by
  have hdone : t.returned=true := by
    obtain ⟨log,_ | ⟨_ | ⟨op,k⟩⟩⟩:=t
    · exact absurd rfl halive
    · rfl
    · simp [Thread.finished,Thread.next?] at hfinished
  exact returns_of_bind_pure (returns_of_returned hr ht hdone)

theorem completed_of_returns {i : ℕ} {req : CompletePairingReq} {t : Thread Op Op.Rep}
    {res : Except Reject CompletePairingResp}
    (hrun : Pool.Ledger PairingCall (fun _ => True) (Resolving w.store)
      (Machine.run (interleave srv) (Pool.start w) steps))
    (ht : (Machine.run (interleave srv) (Pool.start w) steps).threads[i]? = some t)
    (hret : Returns (handleCompletePairing srv (some req)) t.log.reverse res) :
    match res with
    | .ok resp => (∃ e∈t.log,rewrote e=some (resp.pairID,resp.mobileDeviceID)) ∧
        ∀ e∈t.log,∀ x,spentBy e=some x → x.2=resp.pairID
    | .error _ => Never spentBy t.log := by
  have hdone:=hret.obeys (handleCompletePairing_once srv req)
  simp only [List.reverse_reverse,List.append_nil] at hdone
  rcases res with rej | resp
  · rcases hdone.1 with hnever | ⟨e,he,hrefused⟩
    · exact hnever
    rw [hrun.recorded.log_eq ht] at he
    rw [hrun.inv.smooth i e (Pool.mem_logOf.1 he)] at hrefused
    cases hrefused
  · obtain ⟨⟨pt,t',-,hspent⟩,-,hwrote,-⟩:=hdone.1
    refine ⟨hwrote,fun e he x hx => ?_⟩
    rw [hdone.2 e he _ hspent x _ hx rfl]

theorem housed_of_spent
    (hsteps : Machine.Guarded (interleave srv)
      (fun st x => (resolvingStep st x && roomy st x)=true) (Pool.start w) steps)
    (hnone : NonePairing steps (Machine.run (interleave srv) (Pool.start w) steps)) {i : ℕ}
    {e : Event} {id pairID : String}
    (he : (i,e)∈(Machine.run (interleave srv) (Pool.start w) steps).history)
    (hs : spentBy e=some (id,pairID)) :
    Housed (Machine.run (interleave srv) (Pool.start w) steps).world.store pairID := by
  have hrun:=resolving_run hsteps
  have halive:=unkilled_run hsteps fun st i hcrash => by
    simp [resolvingStep,faultless] at hcrash
  have hf:=follows_run srv (Pool.start w) [] (Pool.follows_start w) steps
  -- the request that consumed the token
  have hmem : e∈Pool.logOf i (Machine.run (interleave srv) (Pool.start w) steps).history :=
    Pool.mem_logOf.2 he
  obtain ⟨t,ht⟩ : ∃ t,(Machine.run (interleave srv) (Pool.start w) steps).threads[i]? =
      some t := by
    cases ht : (Machine.run (interleave srv) (Pool.start w) steps).threads[i]? with
    | none =>
      rw [hrun.recorded.log_new (List.getElem?_eq_none_iff.1 ht)] at hmem
      cases hmem
    | some t => exact ⟨t,rfl⟩
  rw [← hrun.recorded.log_eq ht] at hmem
  have hlt : i<(requests steps).length := by
    have hlength:=hf.length
    simp only [List.nil_append,List.length_map] at hlength
    rw [← hlength]
    exact (List.getElem?_eq_some_iff.1 ht).1
  have hr : (requests steps)[i]? = some (requests steps)[i] := List.getElem?_eq_getElem hlt
  by_cases hcompletes : ∃ req,(requests steps)[i] = .completePairing (some req)
  · obtain ⟨req,hreq⟩:=hcompletes
    rw [hreq] at hr
    obtain ⟨res,hret⟩:=answered_of_finished hr ht (hnone i _ t hr ht) (halive i t ht)
    have hdone:=completed_of_returns hrun ht hret
    rcases res with rej | resp
    · rw [hdone e hmem] at hs
      cases hs
    obtain ⟨⟨e',he',hrewrote⟩,hpair⟩:=hdone
    obtain rfl : pairID=resp.pairID := hpair e hmem _ hs
    rw [hrun.recorded.log_eq ht] at he'
    exact hrun.inv.written i e' _ _ (Pool.mem_logOf.1 he') hrewrote
  · -- an unpairing or a poll consumes nothing
    have hstart:=pairingStep_of_requests hsteps _ (List.getElem_mem hlt)
    have hobeys:=handle_unpairs srv hstart fun req heq => hcompletes ⟨req,heq⟩
    obtain ⟨q,hq⟩:=Option.ne_none_iff_exists'.1 (halive i t ht)
    have hp : ([]++(requests steps).map (handle srv))[i]? =
        some (handle srv (requests steps)[i]) := by simp [hr]
    have hleads:=hf.leads i t _ q ht hp hq
    obtain ⟨log,hop⟩:=hleads.called hobeys e (List.mem_reverse.2 hmem)
    unfold spentBy at hs
    split at hs
    · cases hop
    · cases hs

end Run

def Steady (s : Store) (x : World × List Answer) : Prop :=
  x.1.store = s ∧ ∀ a ∈ x.2, a.fault=false

def ReportsPhone (pairID : String) (res : Except Reject PollPairingResp) : Prop :=
  ∃ key, res = .ok (.completed pairID key)

section Poll
variable {s : Store} {x : World × List Answer}

theorem Steady.next {op : Op} (h : Steady s x) (hop : op.polls=true) :
    Steady s (answer op x).2 := by
  refine ⟨?_,fun a ha => h.2 a (List.mem_of_mem_tail ha)⟩
  cases op with
  | store sop =>
    have hreads : sop.reads=true := by cases sop <;> first | rfl | cases hop
    exact (perform_read _ sop x.1 (Store.exec_reads _ _ hreads)).trans h.1
  | _ => exact h.1

theorem Steady.store {op : StoreOp} (h : Steady s x) :
    (answer (.store op) x).1=(s.exec ⟨x.1.clock,(x.2.headD {}).ties⟩ op).1 := by
  have hfault : (x.2.headD {}).fault=false := by
    cases hx : x.2 with
    | nil => rfl
    | cons a as => exact h.2 a (by simp [hx])
  simp only [answer,perform,hfault,h.1]
  rfl

theorem Steady.read {op : StoreOp} {r : op.Res} (hop : (Op.store op).polls=true)
    (hr : ∀ m,(s.exec m op).1=r) (x : World × List Answer) (hx : Steady s x) :
    (answer (.store op) x).1=r ∧ Steady s (answer (.store op) x).2 :=
  ⟨hx.store.trans (hr _),hx.next hop⟩

theorem pollConsumed_housed (srv : Service) {pt : PairingToken} (h : Housed s pt.resultPairID) :
    Triple answer (Steady s) (pollConsumed srv pt)
      (fun res _ => ReportsPhone pt.resultPairID res) := by
  obtain ⟨p,d,hp,hd⟩:=h
  have hpairing (m : Moment) : (s.exec m (.getPairing pt.resultPairID)).1 = .ok p := by
    simp [Store.exec,Store.found,hp]
  have hdevice (m : Moment) : (s.exec m (.getDevice p.mobileDeviceID)).1 = .ok d := by
    simp [Store.exec,Store.found,hd]
  refine triple_call (Steady.read rfl hpairing) (triple_call (Steady.read rfl hdevice) ?_)
  exact triple_pure fun _ _ => ⟨_,rfl⟩

theorem handlePollPairingToken_housed (srv : Service) {authorization text : String}
    {as : List Answer} {w : World} {pt : PairingToken} (hcalm : ∀ a∈as,a.fault=false)
    (htext : text ≠ "") (hpt : w.store.pairingTokens.get (srv.hashSecret text)=some pt)
    (hconsumed : pt.consumedAt≠0)
    (hauth : (serve (authenticateAccount srv authorization) as w).1=some pt.accountID)
    (hhoused : Housed w.store pt.resultPairID) :
    ReportsPhone pt.resultPairID
      (serve (handlePollPairingToken srv authorization (some text)) as w).1 := by
  -- authentication leaves the store as it is
  have hchecks : Makes Checks [] (authenticateAccount srv authorization) :=
    authenticateAccount_checks authorization
  obtain ⟨hx,-⟩:=run_obeys answer Checks (fun _ x => Steady w.store x)
    (fun _ _ _ hx hop => hx.next (Op.polls_of_checks hop)) _ _ [] (w,as) hchecks ⟨rfl,hcalm⟩
  have htoken (m : Moment) : (w.store.exec m (.getPairingToken (srv.hashSecret text))).1 = .ok pt := by
    simp [Store.exec,Store.found,hpt]
  unfold serve at hauth ⊢
  unfold handlePollPairingToken
  rw [run_bind,hauth]
  simp only [Option.getD_some,if_neg htext]
  suffices h : Triple answer (Steady w.store) _
      (fun res _ => ReportsPhone pt.resultPairID res) from h _ hx
  refine triple_call (Steady.read rfl htoken) ?_
  simp only [ne_eq,not_true_eq_false,if_false,hconsumed,not_false_eq_true,if_true]
  exact pollConsumed_housed srv hhoused

end Poll

/-- Completions, unpairings and polls in any order, where each pairing is inserted
before anyone else has filled a slot of the license counted for it: whenever no
completion is in flight, every consumed token leads to a pairing with a phone, a
poll of it reports that phone, and no refused completion has consumed its token. -/
theorem consumed_token_resolves (srv : Service) (w : World) (hw : Resolves w.store)
    (steps : List Step)
    (hsteps : Machine.Guarded (interleave srv)
      (fun st x => (resolvingStep st x && roomy st x) = true) (Pool.start w) steps) :
    let st := Machine.run (interleave srv) (Pool.start w) steps
    NonePairing steps st →
    Resolves st.world.store ∧
      (∀ authorization text as pt, (∀ a ∈ as, a.fault=false) → text ≠ "" →
        st.world.store.pairingTokens.get (srv.hashSecret text) = some pt → pt.consumedAt≠0 →
        (serve (authenticateAccount srv authorization) as st.world).1 = some pt.accountID →
        ReportsPhone pt.resultPairID
          (serve (handlePollPairingToken srv authorization (some text)) as st.world).1) ∧
      ∀ i req rej, (requests steps)[i]? = some (.completePairing (some req)) →
        Answered srv st i req (.error rej) → Never spentBy (Pool.logOf i st.history) := by
  intro st hnone
  have hrun := resolving_run hsteps
  have hresolves : Resolves st.world.store := by
    intro id pt hget hconsumed
    rcases hrun.inv.origin id pt hget hconsumed with hold | ⟨i,e,he,hs⟩
    · exact hrun.inv.kept _ (hw id pt hold hconsumed)
    · exact housed_of_spent hsteps hnone he hs
  refine ⟨hresolves,fun authorization text as pt hcalm htext hpt hconsumed hauth => ?_,
    fun i req rej hr hanswered => ?_⟩
  · exact handlePollPairingToken_housed srv hcalm htext hpt hconsumed hauth
      (hresolves _ pt hpt hconsumed)
  obtain ⟨t,ht,hret⟩ := hanswered
  rw [← hrun.recorded.log_eq ht]
  exact completed_of_returns hrun ht hret

theorem resolves_desktopWorld : Resolves desktopWorld.store := by
  intro id pt hget hconsumed
  have hunspent : desktopWorld.store.pairingTokens.list (fun pt => pt.consumedAt != 0) = [] := by
    decide +kernel
  have hmem:=Table.mem_list_of_get (p := fun pt => pt.consumedAt != 0) hget (by simpa using hconsumed)
  rw [hunspent] at hmem
  cases hmem

theorem nonePairing_of_finished {steps : List Step} {st : Requests}
    (h : st.threads.all Thread.finished=true) : NonePairing steps st :=
  fun _ _ _ _ ht => List.all_eq_true.1 h _ (List.mem_of_getElem? ht)

def phonesOneByOne : List Step := phonesStart ++ calls 30 0 "m" ++ calls 30 1 "n"

theorem consumed_token_resolves_oneByOne :
    Resolves (Machine.run (interleave sampleService) (Pool.start desktopWorld)
      phonesOneByOne).world.store :=
  (consumed_token_resolves sampleService desktopWorld resolves_desktopWorld phonesOneByOne
    (by decide +kernel) (nonePairing_of_finished (by decide +kernel))).1

/- The second phone takes the last slot when the first has passed the check of the
capacity. -/
def phonesOvertake : List Step :=
  phonesStart ++ calls 16 0 "m" ++ calls 30 1 "n" ++ calls 30 0 "m"

theorem consumed_token_unresolved :
    let st := Machine.run (interleave sampleService) (Pool.start desktopWorld) phonesOvertake
    Machine.Guarded (interleave sampleService) (fun st x => resolvingStep st x = true)
      (Pool.start desktopWorld) phonesOvertake ∧
    Resolves desktopWorld.store ∧ NonePairing phonesOvertake st ∧
    (st.world.store.pairingTokens.get "#pt_p").any (fun pt => pt.consumedAt != 0 &&
      (st.world.store.pairings.get pt.resultPairID).isNone) = true ∧
    (serve (handlePollPairingToken sampleService "Bearer acct_a.s" (some "pt_p")) [] st.world).1 =
      .error ⟨500,"store_error"⟩ := by
  refine ⟨by decide +kernel,resolves_desktopWorld,nonePairing_of_finished (by decide +kernel),?_⟩
  decide +kernel

end SecureGateway.Auth
