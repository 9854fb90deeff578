import SecureGateway.Auth.Completion
import SecureGateway.Billing.Dispatch

/-!
# Every request keeps the disciplines

One lemma for each program of the auth service, along the program's own text, for all
disciplines that it keeps; `handle_obeys` and `handle_conducts` collect them.
-/

namespace SecureGateway.Auth
open Authstore Prog

variable (p : Processor)

def Request.carries (r : Request) (sub : Stripe.Subscription) : Prop :=
  ∃ ev signed, r = .webhook (some ev) signed ∧ Carries ev sub

def Request.isBilling : Request → Bool
  | .webhook _ _ | .retryFailed _ | .reconcile => true
  | _ => false

section Billing
open Billing
variable {given : Stripe.Subscription → Prop} {b : Bool} {log : List Event}

theorem permitted_of_acts {c : Cause} {op : Op} (h : Acts c log op)
    (hc : ∀ sub status,c.mirrors log sub status → Heard given log sub) :
    Permitted given b log op := by
  cases op with
  | store sop =>
    cases sop with
    | upsertSubscription m =>
      rcases h with ⟨sub,hsub,hid,hmax⟩ | ⟨id,m₀,hsaw,hid,hmax,-⟩
      · exact .inl ⟨sub,hc sub _ hsub,hid,hmax⟩
      · exact .inr (.inl ⟨id,m₀,hsaw,hid,hmax⟩)
    | createLicense l =>
      obtain ⟨m,n,hm,hid,hcount,hlt⟩:=h
      exact .inl ⟨m,n,hm.2,hid,hid ▸ hcount,hlt⟩
    | setPairingStatus pairID status => exact h
    | createPairingToken | createPairingWithinCapacity | createPairing | putRefreshToken
    | insertWebhookEventIfAbsent => exact absurd h id
    | _ => trivial
  | newID tag =>
    obtain rfl : tag = "acct" := h
    exact permitted_newID _ (by decide)
  | mint => exact absurd h id
  | _ => trivial

theorem dispatch_obeys (ev : Stripe.Event) (hev : ∀ sub,Carries ev sub → Heard given log sub) :
    Makes (Permitted given b) log (dispatch p ev) := by
  refine obeys_weaken (dispatch_acts p ev) fun l op hl hop => permitted_of_acts hop ?_
  rintro sub status (⟨he,-⟩ | ⟨he,-⟩ | ⟨he,-⟩ | ⟨cs,id,-,hmem,-⟩)
  · exact (hev sub (.inl he)).mono hl
  · exact (hev sub (.inr (.inl he))).mono hl
  · exact (hev sub (.inr (.inr he))).mono hl
  · exact .inr (.inl ⟨id,hmem⟩)

theorem permitted_of_books {op : Op} (h : books op=true) : Permitted given b log op := by
  unfold books at h
  split at h
  · trivial
  · trivial
  · trivial
  · trivial
  · trivial
  · cases h

theorem handle_billing_obeys {s : Service} (r : Request) (hr : r.isBilling=true)
    (hgiven : ∀ sub,r.carries sub → given sub) : Makes (Permitted given b) [] (handle s r) := by
  cases r with
  | webhook payload signed =>
    have hcarried (ev : Stripe.Event) (sub : Stripe.Subscription) (hp : payload=some ev)
        (hc : Carries ev sub) : given sub := hgiven sub ⟨ev,signed,by rw [hp],hc⟩
    refine obeys_seq (handleWebhook_lift (fun _ _ => permitted_of_books) payload signed ?_
      fun l ev hp => dispatch_obeys s.proc ev fun sub hc => .inl (hcarried ev sub hp hc))
      fun _ _ _ _ => trivial
    rintro l e rfl
    exact hcarried
  | retryFailed limit =>
    refine obeys_seq (retryFailed_lift (fun _ _ => permitted_of_books) limit
      fun l events hsaw e he ev hp => dispatch_obeys s.proc ev fun sub hc => ?_) fun _ _ _ _ => trivial
    exact .inr (.inr (.inr ⟨_,_,events,e,ev,hsaw,he,hp,hc⟩))
  | reconcile =>
    refine obeys_seq (reconcile_lift (fun _ _ => permitted_of_books)
      fun l subs hsubs sub hsub => ?_) fun _ _ _ _ => trivial
    refine obeys_weaken (reconcileOne_acts s.proc sub) fun l' op hl hop => permitted_of_acts hop ?_
    rintro _ _ ⟨rfl,-⟩
    exact .inr (.inr (.inl ⟨subs,hl.subset hsubs,hsub⟩))
  | _ => cases hr

end Billing

section Service
variable {given : Stripe.Subscription → Prop} {b : Bool} {s : Service} {pairs : Bool}
  {log : List Event} {op : Op}

/- The calls that a token request makes before it mints. -/
def Op.inspects : Op → Bool
  | .store (.getRefreshToken _) => true
  | op => op.checks

theorem inspects_of_checks (h : op.checks=true) : op.inspects=true := by
  cases op with
  | store sop => cases sop <;> first | rfl | exact h
  | _ => exact h

theorem quiet_of_inspects (h : op.inspects=true) : op.quiet=true := by
  cases op with
  | store sop => cases sop <;> first | rfl | cases h
  | _ => rfl

theorem never_of_inspects (h : Only Op.inspects log) :
    Never consumedBy log ∧ Never storedBy log ∧ Never drawnBy log := by
  refine ⟨fun e he => ?_,fun e he => ?_,fun e he => ?_⟩ <;> have hop:=h e he
  · unfold consumedBy
    split
    · cases hop
    · rfl
  · unfold storedBy
    split
    · cases hop
    · rfl
  · unfold drawnBy
    split
    · cases hop
    · rfl

theorem obeys_inspects {α : Type} {post : α → List Event → Prop} {p : Handler α}
    (h : Obeys Checks post log p) (hlog : Only Op.inspects log) :
    Obeys (Calm given b s pairs) (fun a l => post a l ∧ Only Op.inspects l) log p :=
  obeys_checks (obeys_only h (fun _ _ => inspects_of_checks) hlog)

theorem Honoured.of_billing {lic : License} (h : Honoured s.billingEnabled log lic)
    (hb : b=true → s.billingEnabled=true) : Honoured b log lic :=
  ⟨h.1,fun hbill => h.2 (hb hbill)⟩

theorem Honoured.mono {l : List Event} {lic : License} (h : Honoured b log lic) (hl : log <:+ l) :
    Honoured b l lic := by
  refine ⟨h.1,fun hbill => ?_⟩
  obtain ⟨sub,t,hsub,hnow,hok⟩:=h.2 hbill
  exact ⟨sub,t,hsub.mono hl,hl.subset hnow,hok⟩

theorem issueTokenPair_calm (accountID : String) (pairing : Pairing) (dev : Device)
    (lic : License) (h : Authorizes b log accountID pairing dev lic) (hstored : Never storedBy log)
    (hdrawn : Never drawnBy log)
    (hconsumed : ∀ id,(∃ e∈log,consumedBy e=some id) → ∃ hash rt,
      Saw log (.getRefreshToken hash) (.ok rt) ∧ rt.id=id ∧
      Saw log (.getDevice rt.deviceID) (.ok dev)) :
    Makes (Calm given b s pairs) log (issueTokenPair s accountID pairing dev lic) := by
  refine obeys_step ⟨⟨⟨pairing,dev,lic,h,rfl,rfl,rfl,rfl⟩,trivial⟩,rfl⟩ fun r => ?_
  rcases r with e | jwt
  · exact trivial
  refine obeys_step ⟨⟨permitted_newID _ (by decide),fun _ => hdrawn.cons rfl⟩,rfl⟩ fun secret =>
    obeys_step (calm_of_free rfl) fun t => obeys_store ⟨⟨?_,?_⟩,rfl⟩ fun _ => trivial
  · refine ⟨pairing,h.backed.mono ?_,rfl⟩
    exact ((List.suffix_cons _ _).trans (List.suffix_cons _ _)).trans (List.suffix_cons _ _)
  · refine ⟨⟨secret,by simp,rfl⟩,rfl,((hstored.cons rfl).cons rfl).cons rfl,?_⟩
    rintro id ⟨e,he,hid⟩
    simp only [List.mem_cons] at he
    rcases he with rfl | rfl | rfl | he
    · cases hid
    · cases hid
    · cases hid
    · obtain ⟨hash,rt,hrt,heq,hdev⟩:=hconsumed id ⟨e,he,hid⟩
      exact ⟨hash,rt,dev,hrt.tail.tail.tail,heq,hdev.tail.tail.tail,rfl⟩

theorem handleIssueToken_calm (hb : b=true → s.billingEnabled=true)
    (authorization : String) (req : Option TokenReq) :
    Makes (Calm given b s pairs) [] (handleIssueToken s authorization req) := by
  refine obeys_seq (obeys_inspects (authenticateAccountOrPair_checks authorization) only_nil)
    fun r l ⟨_,hl⟩ _ => ?_
  rcases r with _ | ⟨accountID,cred⟩
  · exact trivial
  rcases req with _ | req
  · exact trivial
  refine obeys_unless fun _ => ?_
  refine obeys_unless fun _ => obeys_store (calm_of_free rfl) fun pairing => ?_
  refine obeys_unless fun hp => obeys_store (calm_of_free rfl) fun dev => ?_
  refine obeys_unless fun hdev => ?_
  refine obeys_unless fun hmember => ?_
  refine obeys_some (obeys_inspects (pairingIssuable_checks pairing) (.cons rfl (.cons rfl hl)))
    fun lic l' ⟨hlic,hinspects⟩ hl' => ?_
  obtain ⟨hconsumed,hstored,hdrawn⟩:=never_of_inspects hinspects
  refine issueTokenPair_calm accountID pairing dev lic ?_ hstored hdrawn ?_
  · exact {
      quiet := hinspects.mono fun _ => quiet_of_inspects
      backed := ⟨_,(Saw.tail (saw_head _ _ _)).mono hl',.inl (not_not.1 (not_or.1 hp).1)⟩
      active := not_not.1 (not_or.1 hp).2
      device := ⟨_,Saw.mono (saw_head _ _ _) hl'⟩
      account := not_not.1 hdev
      member := by simpa using hmember
      license := (hlic lic rfl).1
      honoured := (hlic lic rfl).2.of_billing hb }
  · rintro id ⟨e,he,hid⟩
    cases (hconsumed e he).symm.trans hid

theorem revokeChain_calm (rt : RefreshToken) : Makes (Calm given b s pairs) log (revokeChain s rt) :=
  obeys_step (calm_of_free rfl) fun _ => obeys_step ⟨⟨trivial,List.mem_cons_self⟩,rfl⟩ fun _ =>
    obeys_free (publishRevocation_free _)

theorem revokeAndReject_calm {α : Type} (rt : RefreshToken) (code : String) :
    Makes (Calm given b s pairs) log (revokeAndReject rt code : Handler (Except Reject α)) :=
  obeys_step ⟨⟨trivial,trivial⟩,rfl⟩ fun _ => trivial

theorem handleRefreshToken_calm (hb : b=true → s.billingEnabled=true) (req : Option String) :
    Makes (Calm given b s pairs) [] (handleRefreshToken s req) := by
  refine obeys_unless fun _ => obeys_store ⟨⟨trivial,rfl⟩,rfl⟩ fun rt => ?_
  refine obeys_step (calm_of_free rfl) fun t => obeys_ite (fun _ => ?_) fun _ =>
    obeys_step (calm_of_free rfl) fun r => ?_
  · refine obeys_ite (fun _ => ?_) fun _ => trivial
    exact obeys_seq (revokeChain_calm rt) fun _ _ _ _ => trivial
  rcases r with e | pairing
  · exact revokeAndReject_calm rt _
  refine obeys_ite (fun _ => revokeAndReject_calm rt _) fun hp =>
    obeys_store (calm_of_free rfl) fun dev => ?_
  refine obeys_unless fun hdev => ?_
  refine obeys_ite (fun _ => revokeAndReject_calm rt _) fun hmember => ?_
  refine obeys_seq (obeys_inspects (pairingIssuable_checks pairing)
    (.cons rfl (.cons rfl (.cons rfl (.cons rfl only_nil))))) fun r l ⟨hlic,hinspects⟩ hl => ?_
  rcases r with _ | lic
  · exact revokeAndReject_calm rt _
  obtain ⟨hsaw,hhonoured⟩:=hlic lic rfl
  obtain ⟨hconsumed,hstored,hdrawn⟩:=never_of_inspects hinspects
  have hrt : Saw l (.getRefreshToken (s.hashSecret (req.getD ""))) (.ok rt) :=
    (saw_head _ _ _).tail.tail.tail.mono hl
  have hdevice : Saw l (.getDevice rt.deviceID) (.ok dev) := Saw.mono (saw_head _ _ _) hl
  refine obeys_step (calm_of_free rfl) fun t' => obeys_store ⟨⟨trivial,?_⟩,rfl⟩ fun u => ?_
  · exact ⟨⟨_,rt,hrt.tail,rfl⟩,List.mem_cons_self,hconsumed.cons rfl,hstored.cons rfl⟩
  refine issueTokenPair_calm rt.accountID pairing dev lic ?_ ((hstored.cons rfl).cons rfl)
    ((hdrawn.cons rfl).cons rfl) ?_
  · have hquiet : Quiet l := hinspects.mono fun _ => quiet_of_inspects
    exact {
      quiet := .cons rfl (.cons rfl hquiet)
      backed := ⟨_,((Saw.tail (saw_head _ _ _)).mono hl).tail.tail,
        .inr ⟨_,rt,hrt.tail.tail,rfl,rfl⟩⟩
      active := not_not.1 hp
      device := ⟨_,hdevice.tail.tail⟩
      account := not_not.1 hdev
      member := by simpa using hmember
      license := hsaw.tail.tail
      honoured := (hhonoured.of_billing hb).mono
        ((List.suffix_cons _ _).trans (List.suffix_cons _ _)) }
  · rintro id ⟨e,he,hid⟩
    simp only [List.mem_cons] at he
    rcases he with rfl | rfl | he
    · cases hid
      exact ⟨_,rt,hrt.tail.tail,rfl,hdevice.tail.tail⟩
    · cases hid
    · cases (hconsumed e he).symm.trans hid

theorem provisionOpenLicense_serves (hopen : s.billingEnabled=false)
    (hb : b=true → s.billingEnabled=true) (accountID : String) :
    Makes (Serves given b s pairs) log (provisionOpenLicense s accountID) := by
  refine obeys_store (calm_of_free rfl).1 fun existing => ?_
  dsimp only
  split
  · exact trivial
  refine obeys_step (calm_of_free rfl).1 fun t => obeys_step ⟨fun _ => ?_,by simp [Conducts]⟩
    fun subID => obeys_store ⟨.inr (.inr List.mem_cons_self),trivial⟩ fun u => ?_
  · cases b with
    | true => simp [hb rfl] at hopen
    | false => rfl
  exact obeys_step ⟨trivial,trivial⟩ fun licID => obeys_store ⟨.inr (by simp),trivial⟩ fun _ => trivial

theorem handleCreateAccount_serves (hb : b=true → s.billingEnabled=true)
    (authorization : String) (req : Option String) :
    Makes (Serves given b s pairs) log (handleCreateAccount s authorization req) := by
  refine obeys_unless fun _ => ?_
  refine obeys_unless fun _ => obeys_step (calm_of_free rfl).1 fun id =>
    obeys_step (calm_of_free rfl).1 fun t => obeys_store ⟨trivial,trivial⟩ fun u => ?_
  refine obeys_unless fun hopen => ?_
  exact obeys_ok (provisionOpenLicense_serves (by simpa using hopen) hb _) fun _ _ _ _ => trivial

theorem handleRegisterDevice_calm (authorization : String) (req : Option DeviceReq) :
    Makes (fun l op => Calm given b s pairs l op ∧ Registers s.deviceCap l op) []
      (handleRegisterDevice s authorization req) := by
  have hidles (op : Op) (h : op.checks=true) : op.idles=true := idles_of_free (free_of_checks h)
  refine obeys_some (obeys_weaken (obeys_only (authenticateAccount_checks authorization)
    (fun _ => hidles) only_nil) fun l op _ hop => ⟨calm_of_free (free_of_checks hop),?_⟩)
    fun accountID l ⟨_,hl⟩ _ => ?_
  · unfold Registers
    split
    · cases hop
    · trivial
  rcases req with _ | req
  · exact trivial
  dsimp only
  split
  · exact trivial
  split
  · exact trivial
  refine obeys_seq (obeys_weaken (registerOrFindDevice_enrols _ _ _ hl) fun _ _ _ hop =>
    ⟨calm_of_enrols hop,registers_of_enrols hop⟩) fun r l _ _ => ?_
  rcases r with e | dev
  · exact obeys_unless fun _ => trivial
  · exact trivial

theorem handleCreatePairingToken_calm (authorization : String) (req : Option PairingTokenReq) :
    Makes (Calm given b s pairs) log (handleCreatePairingToken s authorization req) := by
  refine obeys_some (obeys_checks (authenticateAccount_checks authorization)) fun accountID l _ _ => ?_
  rcases req with _ | req
  · exact trivial
  refine obeys_unless fun _ => obeys_store (calm_of_free rfl) fun lic => ?_
  refine obeys_unless fun hacct => ?_
  refine obeys_seq (obeys_checks (licenseIssuable_checks lic)) fun valid l₁ _ hl₁ => ?_
  refine obeys_unless fun _ => ?_
  refine obeys_some (obeys_checks (deviceForRole_checks _ _ _)) fun dev l₂ _ hl₂ => ?_
  have hfind (l : List Event) : Makes (Calm given b s pairs) l
      (activePairingForDesktop lic.id dev.id) := by
    exact obeys_store ⟨⟨trivial,trivial⟩,rfl⟩ fun _ => trivial
  refine obeys_ok (hfind _) fun existing l₃ _ hl₃ => ?_
  have hslot : Makes (Calm given b s pairs) l₃ (slotFree lic existing) := by
    rcases existing with _ | p
    · exact obeys_ok (obeys_free (capacityAvailable_free lic)) fun _ _ _ _ => trivial
    · exact trivial
  refine obeys_seq hslot fun r l₄ _ hl₄ => ?_
  rcases r with e | _ | _
  · exact trivial
  · exact trivial
  have hkey : Makes (Calm given b s pairs) l₄ (storeDesktopKey s dev req.desktopPublicKey) := by
    refine obeys_unless fun _ => ?_
    split
    · exact trivial
    · exact obeys_store ⟨⟨trivial,trivial⟩,rfl⟩ fun _ => trivial
  refine obeys_ok hkey fun dev' l₅ _ hl₅ => ?_
  refine obeys_unless fun _ => obeys_step (calm_of_free rfl) fun secret =>
    obeys_step (calm_of_free rfl) fun t => obeys_store ⟨⟨?_,trivial⟩,rfl⟩ fun _ => trivial
  have hlic:=(saw_head l (.getLicense req.licenseID) (.ok lic)).mono
    (((hl₁.trans hl₂).trans hl₃).trans (hl₄.trans hl₅))
  exact ⟨_,lic,hlic.tail.tail,rfl,(not_not.1 hacct).symm⟩

def restatused : Event → Option String
  | ⟨.store (.setPairingStatus pairID _),.ok _⟩ => some pairID
  | _ => none

/- What an unpairing has done before a call: it revokes one pairing, and then the
credential of that one. -/
def Unpairing (log : List Event) : Op → Prop
  | .store (.setPairingStatus _ status) => status = .revoked ∧ Never restatused log
  | .store (.revokePairCredential pairID _) =>
    Saw log (.setPairingStatus pairID .revoked) (.ok ())
  | .store op => op.reads = true
  | _ => True

theorem unpairing_of_polls (h : op.polls=true) : Unpairing log op := by
  cases op with
  | store sop => cases sop <;> first | rfl | cases h
  | _ => trivial

theorem handleUnpair_serves (authorization : String) (req : Option String) :
    Makes (fun l op => Serves given b s pairs l op ∧ Unpairing l op) []
      (handleUnpair s authorization req) := by
  refine obeys_seq (obeys_weaken (obeys_only (authenticateAccountOrPair_checks authorization)
    (fun _ _ hop => hop) only_nil) fun l op _ hop => ⟨(calm_of_free (free_of_checks hop)).1,
      unpairing_of_polls (Op.polls_of_checks hop)⟩) fun r l ⟨_,hl⟩ _ => ?_
  have hnever : Never restatused l := by
    intro e he
    have hop:=hl e he
    unfold restatused
    split
    · cases hop
    · rfl
  rcases r with _ | ⟨accountID,cred⟩
  · exact trivial
  refine obeys_unless fun _ => ?_
  refine obeys_unless fun _ => obeys_store ⟨⟨trivial,trivial⟩,rfl⟩ fun p => ?_
  refine obeys_unless fun _ => obeys_store ⟨⟨rfl,rfl⟩,rfl,hnever.cons rfl⟩ fun u => ?_
  refine obeys_step ⟨⟨trivial,trivial⟩,trivial⟩ fun t =>
    obeys_step ⟨⟨trivial,(saw_head _ _ _).tail⟩,(saw_head _ _ _).tail⟩ fun _ => ?_
  refine obeys_seq (obeys_weaken (publishRevocation_free _) fun _ op _ hop =>
    ⟨(calm_of_free hop).1,?_⟩) fun _ _ _ _ => trivial
  cases op with
  | store sop => cases sop <;> first | rfl | cases hop
  | _ => trivial

theorem calm_of_polls (h : op.polls=true) : Calm given b s pairs log op := by
  cases op with
  | store sop => cases sop <;> first | exact ⟨⟨trivial,trivial⟩,rfl⟩ | cases h
  | now => exact calm_of_free rfl
  | _ => cases h

/-! ## All requests -/

section Billing
open Billing

theorem conducts_of_bills {op : Op} (h : bills op=true) : Conducts s pairs log op := by
  cases op with
  | store sop =>
    cases sop with
    | setPairingStatus pairID status => exact eq_of_beq h
    | _ => trivial
  | newID tag =>
    obtain rfl : tag = "acct" := eq_of_beq h
    exact fun htag => absurd htag (by decide)
  | _ => trivial

theorem handle_billing_conducts (r : Request) (hr : r.isBilling=true) :
    Makes (Conducts s pairs) [] (handle s r) := by
  have hbills {α : Type} {p : Handler α} (h : Makes (fun _ op => bills op=true) [] p) :
      Makes (Conducts s pairs) [] (ignore p) :=
    obeys_seq (obeys_weaken h fun _ _ _ => conducts_of_bills) fun _ _ _ _ => trivial
  cases r with
  | webhook payload signed => exact hbills (handleWebhook_bills s payload signed)
  | retryFailed limit => exact hbills (retryFailed_bills _ limit)
  | reconcile => exact hbills (reconcile_bills _)
  | _ => cases hr

end Billing

theorem owes_of_conducts {op : Op} (r : op.Rep) (h : Conducts s false log op)
    (howes : owes log=none) : owes (⟨op,r⟩::log)=none := by
  cases op with
  | store sop =>
    cases sop with
    | createPairingWithinCapacity p maxPairs => exact absurd h.1 (by decide)
    | updatePairingDevices pairID mobileID desktopID => exact absurd h.1 (by decide)
    | putPairCredential c =>
      have howed:=h.1
      rw [howes] at howed
      cases howed
    | _ => exact howes
  | _ => exact howes

theorem conducts_settled {q : List Event → Op → Prop} {p : Handler α}
    (h : Makes (fun l op => q l op ∧ Conducts s false l op) [] p) :
    Obeys (fun l op => q l op ∧ Conducts s true l op) (fun _ l => Settled l) [] p := by
  have howes : Obeys _ (fun _ l => True ∧ owes l=none) [] p :=
    obeys_log (fun l op r hl hop => owes_of_conducts r hop.2 hl) h rfl
  refine obeys_weaken (obeys_mono howes fun _ _ hl => .inl hl.2) fun l op _ hop => ⟨hop.1,?_⟩
  have hconducts:=hop.2
  cases op with
  | store sop =>
    cases sop with
    | createPairingWithinCapacity p maxPairs => exact absurd hconducts.1 (by decide)
    | updatePairingDevices pairID mobileID desktopID => exact absurd hconducts.1 (by decide)
    | _ => exact hconducts
  | _ => exact hconducts

theorem handle_serves (hb : b=true → s.billingEnabled=true) (r : Request)
    (hr : r.isBilling=false) :
    Obeys (Serves given b s true) (fun _ l => Settled l) [] (handle s r) := by
  have hserves {α : Type} {p : Handler α} (h : Makes (Serves given b s false) [] p) :
      Obeys (Serves given b s true) (fun _ l => Settled l) [] (ignore p) :=
    conducts_settled (obeys_seq h fun _ _ _ _ => trivial)
  have hcalm {α : Type} {p : Handler α} (h : Makes (Calm given b s false) [] p) :
      Obeys (Serves given b s true) (fun _ l => Settled l) [] (ignore p) :=
    hserves (obeys_weaken h fun _ _ _ hop => hop.1)
  cases r with
  | createAccount authorization accountID => exact hserves (handleCreateAccount_serves hb _ _)
  | registerDevice authorization req =>
    exact hcalm (obeys_weaken (handleRegisterDevice_calm _ _) fun _ _ _ hop => hop.1)
  | createPairingToken authorization req => exact hcalm (handleCreatePairingToken_calm _ _)
  | completePairing req =>
    rcases req with _ | req
    · exact obeys_pure (.inl rfl)
    refine obeys_seq (obeys_weaken (handleCompletePairing_finishes given b s req) ?_)
      fun _ _ hl _ => obeys_pure hl.2
    exact fun _ _ _ hop => hop.1.1
  | pollPairingToken authorization token =>
    exact hcalm (obeys_weaken (handlePollPairingToken_polls _ _) fun _ _ _ => calm_of_polls)
  | unpair authorization pairID =>
    exact hserves (obeys_weaken (handleUnpair_serves _ _) fun _ _ _ hop => hop.1)
  | issueToken authorization req => exact hcalm (handleIssueToken_calm hb _ _)
  | refreshToken token => exact hcalm (handleRefreshToken_calm hb _)
  | _ => cases hr

theorem handle_obeys (hb : b=true → s.billingEnabled=true) (r : Request)
    (hgiven : ∀ sub,r.carries sub → given sub) : Makes (Permitted given b) [] (handle s r) := by
  cases hr : r.isBilling with
  | true => exact handle_billing_obeys r hr hgiven
  | false =>
    exact obeys_weaken (obeys_mono (handle_serves hb r hr) fun _ _ _ => trivial) fun _ _ _ hop => hop.1

theorem handle_conducts (s : Service) (r : Request) :
    Obeys (Conducts s true) (fun _ l => Settled l) [] (handle s r) := by
  cases hr : r.isBilling with
  | true =>
    have h : Makes (fun l op => True ∧ Conducts s false l op) [] (handle s r) :=
      obeys_weaken (handle_billing_conducts r hr) fun _ _ _ hop => ⟨trivial,hop⟩
    exact obeys_weaken (conducts_settled h) fun _ _ _ hop => hop.2
  | false =>
    have h : Obeys (Serves (fun _ => True) false s true) _ [] (handle s r) :=
      handle_serves (by simp) r hr
    exact obeys_weaken h fun _ _ _ hop => hop.2

end Service
end SecureGateway.Auth
