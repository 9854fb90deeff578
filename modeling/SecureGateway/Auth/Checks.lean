import SecureGateway.Auth.Discipline

/-!
# What a request checks before it acts

Authentication, the validity of a license and the lookup of a device only read single
records and the clock, and so does a poll. Every discipline that allows these reads allows
these programs.
-/

namespace SecureGateway.Auth
open Authstore Prog

def Op.checks : Op → Bool
  | .store (.getAccount _) | .store (.getPairCredential _) | .store (.getSubscription _)
  | .store (.getLicense _) | .store (.getDevice _) | .store (.getPairing _) | .now => true
  | _ => false

abbrev Checks : List Event → Op → Prop := fun _ op => op.checks = true

def Op.polls : Op → Bool
  | .store (.getPairingToken _) => true
  | op => op.checks

abbrev Polls : List Event → Op → Prop := fun _ op => op.polls = true

theorem Op.polls_of_checks {op : Op} (h : op.checks=true) : op.polls=true := by
  cases op with
  | store sop => cases sop <;> first | rfl | exact h
  | _ => exact h

variable {srv : Service} {log : List Event}

variable (authorization : String)

theorem authenticateAccount_checks : Makes Checks log (authenticateAccount srv authorization) := by
  unfold authenticateAccount
  dsimp only
  split
  · exact trivial
  refine obeys_store rfl fun acct => ?_
  refine obeys_unless fun _ => ?_
  exact obeys_unless fun _ => trivial

theorem authenticatePair_checks : Makes Checks log (authenticatePair srv authorization) := by
  unfold authenticatePair
  dsimp only
  split
  · exact trivial
  refine obeys_store rfl fun cred => ?_
  refine obeys_unless fun _ => obeys_step rfl fun t => ?_
  refine obeys_unless fun _ => ?_
  exact obeys_unless fun _ => trivial

theorem authenticateAccountOrPair_checks :
    Makes Checks log (authenticateAccountOrPair srv authorization) := by
  refine obeys_seq (authenticateAccount_checks authorization) fun r l _ _ => ?_
  cases r with
  | some accountID => exact trivial
  | none =>
    refine obeys_seq (authenticatePair_checks authorization) fun r l _ _ => ?_
    cases r <;> exact trivial

theorem licenseIssuable_checks (lic : License) :
    Obeys Checks (fun res l => res.1=lic ∧ (res.2=true → Honoured srv.billingEnabled l lic)) log
      (licenseIssuable srv lic) := by
  refine obeys_ite (fun _ => obeys_pure ⟨rfl,by simp⟩) fun hactive => ?_
  have hactive : lic.status=.active := not_not.1 hactive
  refine obeys_ite (fun hopen => ?_) fun _ => obeys_step rfl fun r => ?_
  · exact obeys_pure ⟨rfl,fun _ => ⟨hactive,fun h => by simp [h] at hopen⟩⟩
  rcases r with e | sub
  · exact obeys_pure ⟨rfl,by simp⟩
  refine obeys_step rfl fun t => obeys_pure ⟨rfl,fun hok => ⟨hactive,fun _ => ?_⟩⟩
  exact ⟨sub,t,(saw_head _ _ _).tail,List.mem_cons_self,hok⟩

theorem pairingIssuable_checks (pairing : Pairing) :
    Obeys Checks (fun res l => ∀ lic,res=some lic →
        Saw l (.getLicense pairing.licenseID) (.ok lic) ∧ Honoured srv.billingEnabled l lic) log
      (pairingIssuable srv pairing) := by
  refine obeys_stored rfl (fun lic => ?_) fun _ => obeys_pure (by simp)
  refine obeys_seq (licenseIssuable_checks lic) fun res l ⟨hlic,hok⟩ hl =>
    obeys_pure fun lic' heq => ?_
  obtain ⟨res1,res2⟩:=res
  cases res2 with
  | false => cases heq
  | true =>
    obtain rfl : res1=lic := hlic
    cases heq
    exact ⟨Saw.mono (saw_head _ _ _) hl,hok rfl⟩

theorem deviceForRole_checks (deviceID accountID : String) (role : Role) :
    Makes Checks log (deviceForRole deviceID accountID role) := by
  exact obeys_store rfl fun _ => trivial

theorem handlePollPairingToken_polls (req : Option String) :
    Makes Polls log (handlePollPairingToken srv authorization req) := by
  have hauth : Makes Polls log (authenticateAccount srv authorization) :=
    obeys_weaken (authenticateAccount_checks authorization) fun _ _ _ hop => Op.polls_of_checks hop
  refine obeys_some hauth fun accountID l _ _ => ?_
  refine obeys_unless fun _ => obeys_store rfl fun pt => ?_
  refine obeys_unless fun _ => obeys_ite (fun _ => ?_) fun _ => ?_
  · refine obeys_store rfl fun pairing => ?_
    exact obeys_store rfl fun _ => trivial
  · exact obeys_step rfl fun t => trivial

end SecureGateway.Auth
