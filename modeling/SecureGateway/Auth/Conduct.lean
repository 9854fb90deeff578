import SecureGateway.Auth.Checks

/-!
# How requests rotate tokens and pair devices

`Conducts` is a second discipline, for the calls that write refresh tokens, pairings and
pair credentials. A program is walked once for both (`Serves`), and for most requests also
for what they never do: revoke a pairing or write a license or a mirror (`Calm`).
-/

namespace SecureGateway.Auth
open Authstore Prog

def consumedBy : Event → Option String
  | ⟨.store (.consumeRefreshToken id _),.ok _⟩ => some id
  | _ => none

def storedBy : Event → Option RefreshToken
  | ⟨.store (.putRefreshToken r),.ok _⟩ => some r
  | _ => none

def drawnBy : Event → Option String
  | ⟨.newID tag,secret⟩ => if tag = "rt" then some secret else none
  | _ => none

def searched (licenseID : String) : Event → Option (List Pairing)
  | ⟨.store (.listActivePairingsByLicense id),.ok ps⟩ => if id=licenseID then some ps else none
  | _ => none

def inserted : Event → Option Pairing
  | ⟨.store (.createPairingWithinCapacity p _),.ok _⟩ => some p
  | _ => none

def rewrote : Event → Option (String × String)
  | ⟨.store (.createPairingWithinCapacity p _),.ok _⟩ => some (p.pairID,p.mobileDeviceID)
  | ⟨.store (.updatePairingDevices id mobileID _),.ok _⟩ => some (id,mobileID)
  | _ => none

def credentialed : Event → Option PairCredential
  | ⟨.store (.putPairCredential c),.ok _⟩ => some c
  | _ => none

/-- When the request last listed the license's active pairings, none was with
this desktop, and it has inserted none since. -/
def vacant (licenseID desktopID : String) : List Event → Bool
  | [] => false
  | e :: log =>
    match searched licenseID e with
    | some ps => ps.all fun p => p.desktopDeviceID != desktopID
    | none => (inserted e).isNone && vacant licenseID desktopID log

/-- The pairing whose phone the request has written without having stored a
credential for it since, with that phone. -/
def owes : List Event → Option (String × String)
  | [] => none
  | e :: log =>
    match rewrote e with
    | some x => some x
    | none => if (credentialed e).isSome then none else owes log

def Never {α : Type} (did : Event → Option α) (log : List Event) : Prop := ∀ e ∈ log, did e = none

variable {α : Type}

theorem Never.cons {did : Event → Option α} {log : List Event} {e : Event} (he : did e=none)
    (h : Never did log) : Never did (e::log) :=
  List.forall_mem_cons.2 ⟨he,h⟩

def Once {α : Type} (did : Event → Option α) (log : List Event) : Prop :=
  ∀ e ∈ log, ∀ e' ∈ log, ∀ x x', did e = some x → did e' = some x' → x=x'

theorem once_nil (did : Event → Option α) : Once did [] := by
  intro e he
  cases he

theorem Once.cons {did : Event → Option α} {log : List Event} {e : Event} (h : Once did log)
    (he : did e=none ∨ Never did log) : Once did (e::log) := by
  intro e₁ he₁ e₂ he₂ x x' hx hx'
  rcases List.mem_cons.1 he₁ with rfl | hold₁ <;> rcases List.mem_cons.1 he₂ with rfl | hold₂
  · rw [hx,Option.some.injEq] at hx'
    exact hx'
  · rcases he with hnone | hnever
    · rw [hnone] at hx
      cases hx
    · rw [hnever e₂ hold₂] at hx'
      cases hx'
  · rcases he with hnone | hnever
    · rw [hnone] at hx'
      cases hx'
    · rw [hnever e₁ hold₁] at hx
      cases hx
  · exact h e₁ hold₁ e₂ hold₂ x x' hx hx'

/- The refresh token is for the device of the one the request has consumed. -/
def Succeeds (log : List Event) (r : RefreshToken) : Prop :=
  ∀ id, (∃ e ∈ log, consumedBy e = some id) → ∃ hash rt dev,
    Saw log (.getRefreshToken hash) (.ok rt) ∧ rt.id=id ∧
    Saw log (.getDevice rt.deviceID) (.ok dev) ∧ r.deviceID=dev.id

/- The desktop was read, and no active pairing with it was found. -/
def Opens (log : List Event) (p : Pairing) : Prop :=
  ∃ desktopID dev, vacant p.licenseID desktopID log = true ∧
    Saw log (.getDevice desktopID) (.ok dev) ∧ p.desktopDeviceID=dev.id

/- The desktop was read, and the pairing was listed with it. -/
def Replaces (log : List Event) (pairID newDesktopID : String) : Prop :=
  ∃ licenseID ps p dev, Saw log (.listActivePairingsByLicense licenseID) (.ok ps) ∧ p ∈ ps ∧
    p.pairID = pairID ∧ Saw log (.getDevice p.desktopDeviceID) (.ok dev) ∧ newDesktopID=dev.id

/-- What a request has done before a call; `pairs` says whether it completes a
pairing. -/
def Conducts (srv : Service) (pairs : Bool) (log : List Event) : Op → Prop
  | .store (.createPairing _) => False
  | .store (.createPairingWithinCapacity p _) => pairs = true ∧ Opens log p ∧ owes log = none
  | .store (.setPairingStatus _ status) => status = .revoked
  | .store (.updatePairingDevices pairID _ desktopID) =>
    pairs = true ∧ Replaces log pairID desktopID ∧ owes log = none
  | .store (.putPairCredential c) =>
    owes log = some (c.pairID,c.mobileDeviceID) ∧ c.revokedAt=0
  | .store (.revokePairCredential pairID _) =>
    Saw log (.setPairingStatus pairID .revoked) (.ok ())
  | .store (.getRefreshToken _) => log = []
  | .store (.consumeRefreshToken id consumedAt) =>
    (∃ hash rt, Saw log (.getRefreshToken hash) (.ok rt) ∧ rt.id=id) ∧
      (⟨.now,consumedAt⟩ : Event) ∈ log ∧ Never consumedBy log ∧ Never storedBy log
  | .newID tag => tag = "rt" → Never drawnBy log
  | .store (.putRefreshToken r) =>
    (∃ secret, (⟨.newID "rt",secret⟩ : Event) ∈ log ∧ r.id = srv.hashSecret secret) ∧
      r.revokedAt = 0 ∧ Never storedBy log ∧ Succeeds log r
  | .store (.revokeRefreshTokensByDevice _ revokedAt) => (⟨.now,revokedAt⟩ : Event) ∈ log
  | _ => True

/- The calls of requests that revoke nothing. -/
def bland : Op → Bool
  | .store (.createLicense _) | .store (.createPairing _) | .store (.setLicenseStatus _ _)
  | .store (.setPairingStatus _ _) | .store (.upsertSubscription _) => false
  | _ => true

abbrev Bland : List Event → Op → Prop := fun _ op => bland op = true

section
variable (given : Stripe.Subscription → Prop) (billing : Bool) (srv : Service) (pairs : Bool)

abbrev Serves (log : List Event) (op : Op) : Prop :=
  Permitted given billing log op ∧ Conducts srv pairs log op

abbrev Calm (log : List Event) (op : Op) : Prop :=
  Serves given billing srv pairs log op ∧ bland op = true

end

/- The calls that no discipline of a request puts a condition on. -/
def Op.free : Op → Bool
  | .store (.getPairingToken _) | .store (.getRefreshToken _) | .store (.countDevicesByAccount _)
  | .store (.listActivePairingsByLicense _) => false
  | .store op => op.reads
  | .newID tag => tag != "rt" && tag != "sub" && tag != "dev"
  | .now | .publishRevocation _ => true
  | _ => false

abbrev Free : List Event → Op → Prop := fun _ op => op.free = true

variable {given : Stripe.Subscription → Prop} {b : Bool} {srv : Service} {pairs : Bool}
  {log : List Event} {op : Op}

theorem bland_of_free (h : op.free=true) : bland op=true := by
  cases op with
  | store sop => cases sop <;> first | rfl | cases h
  | _ => rfl

theorem calm_of_free (h : op.free=true) : Calm given b srv pairs log op := by
  refine ⟨?_,bland_of_free h⟩
  cases op with
  | store sop => cases sop <;> first | exact ⟨trivial,trivial⟩ | cases h
  | newID tag =>
    simp only [Op.free,Bool.and_eq_true,bne_iff_ne] at h
    exact ⟨permitted_newID _ h.1.2,fun htag => absurd htag h.1.1⟩
  | now => exact ⟨trivial,trivial⟩
  | publishRevocation ev => exact ⟨trivial,trivial⟩
  | _ => cases h

theorem free_of_checks (h : op.checks=true) : op.free=true := by
  cases op with
  | store sop => cases sop <;> first | rfl | cases h
  | _ => first | rfl | cases h

theorem obeys_checks {post : α → List Event → Prop} {p : Handler α} (h : Obeys Checks post log p) :
    Obeys (Calm given b srv pairs) post log p :=
  obeys_weaken h fun _ _ _ hop => calm_of_free (free_of_checks hop)

theorem obeys_free {post : α → List Event → Prop} {p : Handler α} (h : Obeys Free post log p) :
    Obeys (Calm given b srv pairs) post log p :=
  obeys_weaken h fun _ _ _ hop => calm_of_free hop

theorem publishRevocation_free (ev : RevocationEvent) :
    Makes Free log (publishRevocation srv ev) :=
  obeys_ite (fun _ => obeys_step rfl fun _ => trivial) fun _ => trivial

/- The result of a capacity check, with the two calls it made. -/
def Gauged (lic : License) (log : List Event) (res : Except Err (Bool × ℕ)) (l : List Event) : Prop :=
  ∀ free maxPairs, res = .ok (free,maxPairs) → ∃ sub n,
    l = ⟨.store (.activePairCount lic.id),.ok n⟩ ::
      ⟨.store (.getSubscription lic.subscriptionID),.ok sub⟩ :: log ∧
    maxPairs = sub.maxPairs ∧ (free = true → n<sub.maxPairs)

theorem capacityAvailable_free (lic : License) :
    Obeys Free (Gauged lic log) log (capacityAvailable lic) := by
  refine obeys_stored rfl (fun sub => ?_) fun _ => obeys_pure fun _ _ h => by cases h
  refine obeys_stored rfl (fun n => ?_) fun _ => obeys_pure fun _ _ h => by cases h
  refine obeys_pure fun free maxPairs h => ⟨sub,n,rfl,?_⟩
  cases h
  exact ⟨rfl,of_decide_eq_true⟩

end SecureGateway.Auth
