import SecureGateway.Auth.Checkout
import SecureGateway.Billing.Dispatch

/-!
# The life of a checkout claim

The row of a nonce may be deleted once it has expired and created again, so a request may
read one row and consume the next. The lifetimes of a nonce are numbered by the claims
created for it so far. Every call moves a row in one of six ways (`RowMoves`).
-/

namespace SecureGateway.Auth
open Authstore Prog

def bornBy : Event → Option CheckoutClaim
  | ⟨.store (.createCheckoutClaim c),.ok _⟩ => some c
  | _ => none

def takenBy : Event → Option CheckoutClaim
  | ⟨.store (.consumeCheckoutClaim _ _),.ok c⟩ => some c
  | _ => none

/- The call binds ids to a pending claim, if there is one. -/
def marks : Event → Bool
  | ⟨.store (.markCheckoutClaimReady _ _ _ _ _),_⟩ => true
  | _ => false

def births (nonce : String) : List (ℕ × Event) → ℕ
  | [] => 0
  | x :: older => if (bornBy x.2).any (·.nonce == nonce) then births nonce older + 1
    else births nonce older

/- Who consumed a claim of the nonce, with the lifetime it was in and what it was. -/
def takings (nonce : String) : List (ℕ × Event) → List (ℕ × ℕ × CheckoutClaim)
  | [] => []
  | x :: older =>
    match (takenBy x.2).filter (·.nonce == nonce) with
    | some c => (births nonce older,x.1,c) :: takings nonce older
    | none => takings nonce older

def claimIDs (c : CheckoutClaim) : String × String × String :=
  (c.accountID,c.licenseID,c.subscriptionID)

def statusRank : ClaimStatus → ℕ
  | .pending => 0
  | .ready => 1
  | .consumed => 2

/-- A row of the same lifetime at a later time: the status has only moved forward,
and what is bound stays bound. -/
structure Later (c c' : CheckoutClaim) : Prop where
  forward : statusRank c.status ≤ statusRank c'.status
  bound : c.status≠.pending → claimIDs c' = claimIDs c

theorem Later.refl (c : CheckoutClaim) : Later c c := ⟨le_rfl,fun _ => rfl⟩

variable {c : CheckoutClaim}

theorem Later.trans {c' c'' : CheckoutClaim} (h : Later c c') (h' : Later c' c'') :
    Later c c'' where
  forward := h.forward.trans h'.forward
  bound hc := by
    have hc' : c'.status≠.pending := by
      intro hpending
      have hle:=h.forward
      rw [hpending] at hle
      cases hs : c.status with
      | pending => exact hc hs
      | ready => simp [hs,statusRank] at hle
      | consumed => simp [hs,statusRank] at hle
    exact (h'.bound hc').trans (h.bound hc)

/-- What a call can do to the row of a nonce. -/
inductive RowMoves (nonce : String) (e : Event) :
    Option CheckoutClaim → Option CheckoutClaim → Prop
  | born (c : CheckoutClaim) (hc : c.nonce=nonce) (hborn : bornBy e = some c)
      (htaken : ∀ d, takenBy e = some d → d.nonce≠nonce) : RowMoves nonce e none (some c)
  | taken (c c' : CheckoutClaim) (hready : c.status=.ready) (hc' : c'.status=.consumed)
      (hids : claimIDs c' = claimIDs c) (hnonce : c'.nonce=nonce)
      (hborn : ∀ d, bornBy e = some d → d.nonce≠nonce) (htaken : takenBy e = some c') :
      RowMoves nonce e (some c) (some c')
  | moved (c c' : CheckoutClaim) (hlater : Later c c')
      (hstep : statusRank c'.status ≤ statusRank c.status + 1)
      (hmark : c.status=.pending → c'.status≠.pending → marks e = true)
      (hborn : ∀ d, bornBy e = some d → d.nonce≠nonce)
      (htaken : ∀ d, takenBy e = some d → d.nonce≠nonce) : RowMoves nonce e (some c) (some c')
  | gone (row : Option CheckoutClaim) (hborn : ∀ d, bornBy e = some d → d.nonce≠nonce)
      (htaken : ∀ d, takenBy e = some d → d.nonce≠nonce) : RowMoves nonce e row none

theorem RowMoves.stays {nonce : String} {e : Event} (row : Option CheckoutClaim)
    (hborn : ∀ d,bornBy e=some d → d.nonce≠nonce)
    (htaken : ∀ d,takenBy e=some d → d.nonce≠nonce) : RowMoves nonce e row row := by
  cases row with
  | none => exact .gone none hborn htaken
  | some c => exact .moved c c (Later.refl c) (Nat.le_succ _) (fun h h' => absurd h h') hborn htaken

section Call
variable {nonce : String} {a : Answer} {w : World} {s : Store}

theorem row_create (c : CheckoutClaim) (hok : (s.createCheckoutClaim c).1 = .ok ()) :
    RowMoves nonce ⟨.store (.createCheckoutClaim c),.ok ()⟩ (s.checkoutClaims.get nonce)
      ((s.createCheckoutClaim c).2.checkoutClaims.get nonce) := by
  unfold Store.createCheckoutClaim at hok ⊢
  cases hrow : s.checkoutClaims.get c.nonce with
  | some old => simp [hrow] at hok
  | none =>
    by_cases hc : c.nonce=nonce
    · subst hc
      simp only [hrow,Table.get_put_self]
      exact .born c rfl rfl fun d hd => by cases hd
    · simp only [Table.get_put_ne _ c hc]
      refine .stays _ (fun d hd => ?_) fun d hd => by cases hd
      cases hd
      exact hc

theorem row_put {e : Event} {c' : CheckoutClaim} (hrow : s.checkoutClaims.get c.nonce=some c)
    (hkey : c'.nonce=c.nonce) (hhere : c.nonce=nonce → RowMoves nonce e (some c) (some c'))
    (hborn : bornBy e=none) (htaken : ∀ d,takenBy e=some d → d.nonce=c.nonce) :
    RowMoves nonce e (s.checkoutClaims.get nonce) ((s.checkoutClaims.put c').get nonce) := by
  by_cases hc : c.nonce=nonce
  · subst hc
    rw [hrow,← hkey,Table.get_put_self,hkey]
    exact hhere rfl
  · rw [Table.get_put_ne _ c' (hkey ▸ hc)]
    refine .stays _ (fun d hd => ?_) fun d hd heq => hc ((htaken d hd).symm.trans heq)
    rw [hborn] at hd
    cases hd

theorem row_ready (n accountID licenseID subscriptionID sessionID : String) :
    RowMoves nonce
      ⟨.store (.markCheckoutClaimReady n accountID licenseID subscriptionID sessionID),.ok ()⟩
      (s.checkoutClaims.get nonce)
      ((s.markCheckoutClaimReady n accountID licenseID subscriptionID
        sessionID).checkoutClaims.get nonce) := by
  unfold Store.markCheckoutClaimReady
  split
  · next c hrow =>
    obtain rfl : c.nonce=n := Table.key_of_get hrow
    split
    · exact .stays _ (fun d hd => by cases hd) fun d hd => by cases hd
    next hpending =>
    have hpending : c.status=.pending := not_not.1 hpending
    refine row_put hrow rfl (fun _ => ?_) rfl fun d hd => by cases hd
    refine .moved _ _ ⟨?_,fun hne => absurd hpending hne⟩ ?_ (fun _ _ => rfl)
      (fun d hd => by cases hd) fun d hd => by cases hd
    · simp [hpending,statusRank]
    · simp [statusRank]
  · exact .stays _ (fun d hd => by cases hd) fun d hd => by cases hd

theorem row_code (n hash : String) (hok : (s.setCheckoutClaimCode n hash).1 = .ok ()) :
    RowMoves nonce ⟨.store (.setCheckoutClaimCode n hash),.ok ()⟩ (s.checkoutClaims.get nonce)
      ((s.setCheckoutClaimCode n hash).2.checkoutClaims.get nonce) := by
  unfold Store.setCheckoutClaimCode at hok ⊢
  cases hrow : s.checkoutClaims.get n with
  | none => simp [hrow] at hok
  | some c =>
    obtain rfl : c.nonce=n := Table.key_of_get hrow
    by_cases hready : c.status=.ready
    · simp only [if_neg (not_not.2 hready)]
      refine row_put hrow rfl (fun _ => ?_) rfl fun d hd => by cases hd
      exact .moved _ _ ⟨le_rfl,fun _ => rfl⟩ (Nat.le_succ _) (fun h h' => absurd h h')
        (fun d hd => by cases hd) fun d hd => by cases hd
    · simp [hrow,hready] at hok

theorem consume_ok {n : String} {t : Time} {c' : CheckoutClaim}
    (hok : (s.consumeCheckoutClaim n t).1 = .ok c') :
    ∃ c,s.checkoutClaims.get n=some c ∧ c.status=.ready ∧
      c' = { c with status := .consumed, consumedAt := t } ∧
      (s.consumeCheckoutClaim n t).2.checkoutClaims=s.checkoutClaims.put c' := by
  unfold Store.consumeCheckoutClaim at hok ⊢
  cases hrow : s.checkoutClaims.get n with
  | none => simp [hrow] at hok
  | some c =>
    cases hs : c.status with
    | consumed => simp [hrow,hs] at hok
    | pending => simp [hrow,hs] at hok
    | ready =>
      simp only [hrow,hs,Except.ok.injEq] at hok
      exact ⟨c,rfl,hs,hok.symm,by simp only [hs,hok]⟩

theorem row_consume (n : String) (t : Time) (c' : CheckoutClaim)
    (hok : (s.consumeCheckoutClaim n t).1 = .ok c') :
    RowMoves nonce ⟨.store (.consumeCheckoutClaim n t),.ok c'⟩ (s.checkoutClaims.get nonce)
      ((s.consumeCheckoutClaim n t).2.checkoutClaims.get nonce) := by
  obtain ⟨c,hrow,hs,rfl,heq⟩:=consume_ok hok
  obtain rfl : c.nonce=n := Table.key_of_get hrow
  rw [heq]
  refine row_put hrow rfl
    (fun hc => .taken _ _ hs rfl rfl hc (fun d hd => by cases hd) rfl) rfl fun d hd => ?_
  cases hd
  rfl

theorem row_sweep (before : Time) (r : (Op.store (.deleteExpiredCheckoutClaims before)).Rep) :
    RowMoves nonce ⟨.store (.deleteExpiredCheckoutClaims before),r⟩ (s.checkoutClaims.get nonce)
      ((s.checkoutClaims.eraseRows fun c => decide (c.expiresAt<before)).get nonce) := by
  rw [Table.get_eraseRows]
  cases hrow : s.checkoutClaims.get nonce with
  | none => exact .stays _ (fun d hd => by cases hd) fun d hd => by cases hd
  | some c =>
    by_cases hexpired : c.expiresAt<before
    · simp only [Option.filter_some,hexpired,decide_true,Bool.not_true]
      exact .gone _ (fun d hd => by cases hd) fun d hd => by cases hd
    · simp only [Option.filter_some,hexpired,decide_false,Bool.not_false,if_true]
      exact .stays _ (fun d hd => by cases hd) fun d hd => by cases hd

theorem row_perform (nonce : String) (a : Answer) (op : Op) (w : World) :
    RowMoves nonce ⟨op,(perform a op w).1⟩ (w.store.checkoutClaims.get nonce)
      ((perform a op w).2.store.checkoutClaims.get nonce) := by
  have hnone {op : Op} {r : op.Rep} (hb : bornBy ⟨op,r⟩=none) (ht : takenBy ⟨op,r⟩=none)
      (row : Option CheckoutClaim) : RowMoves nonce ⟨op,r⟩ row row :=
    .stays row (fun d hd => by rw [hb] at hd; cases hd) fun d hd => by rw [ht] at hd; cases hd
  cases op with
  | store sop =>
    cases hr : (perform a (.store sop) w).1 with
    | error e =>
      rw [perform_error hr]
      cases sop <;> exact hnone rfl rfl _
    | ok x =>
      obtain ⟨hexec,hstore⟩:=perform_ok hr
      have hframe:=(perform_frame a sop w).2.2.2
      cases sop with
      | createCheckoutClaim c =>
        rw [hstore]
        exact row_create c hexec
      | markCheckoutClaimReady n accountID licenseID subscriptionID sessionID =>
        rw [hstore]
        exact row_ready n accountID licenseID subscriptionID sessionID
      | setCheckoutClaimCode n hash =>
        rw [hstore]
        exact row_code n hash hexec
      | consumeCheckoutClaim n t =>
        rw [hstore]
        exact row_consume n t x hexec
      | deleteExpiredCheckoutClaims before =>
        rw [hstore]
        exact row_sweep before _
      | _ =>
        rw [hframe rfl]
        exact hnone rfl rfl _
  | _ => exact hnone rfl rfl _

end Call

section Counting
variable {nonce : String} {i : ℕ} {e : Event} {history : List (ℕ × Event)}

theorem births_born (hborn : bornBy e=some c) (hc : c.nonce=nonce) :
    births nonce ((i,e)::history)=births nonce history+1 := by
  simp [births,hborn,hc]

theorem births_same (hborn : ∀ d,bornBy e=some d → d.nonce≠nonce) :
    births nonce ((i,e)::history)=births nonce history := by
  cases hb : bornBy e with
  | none => simp [births,hb]
  | some d => simp [births,hb,hborn d hb]

theorem takings_taken (htaken : takenBy e=some c) (hc : c.nonce=nonce) :
    takings nonce ((i,e)::history)=(births nonce history,i,c)::takings nonce history := by
  have hfilter : (some c).filter (·.nonce == nonce)=some c := by simp [Option.filter,hc]
  simp only [takings,htaken,hfilter]

theorem takings_same (htaken : ∀ d,takenBy e=some d → d.nonce≠nonce) :
    takings nonce ((i,e)::history)=takings nonce history := by
  cases ht : takenBy e with
  | none => simp [takings,ht]
  | some d =>
    have hfilter : (some d).filter (·.nonce == nonce)=none := by simp [Option.filter,htaken d ht]
    simp only [takings,ht,hfilter]

theorem takings_le (nonce : String) (history : List (ℕ × Event)) :
    ∀ x∈takings nonce history,x.1≤births nonce history := by
  induction history with
  | nil => simp [takings]
  | cons y older ih =>
    intro x hx
    have hgrows : births nonce older≤births nonce (y::older) := by
      simp only [births]
      split <;> omega
    simp only [takings] at hx
    split at hx
    · rcases List.mem_cons.1 hx with rfl | hx
      · exact hgrows
      · exact (ih x hx).trans hgrows
    · exact (ih x hx).trans hgrows

end Counting

/-- What the row of a nonce has gone through. -/
structure Lived (nonce : String) (w : World) (history : List (ℕ × Event)) : Prop where
  /- the claim that was consumed in this lifetime is the row -/
  consumed : ∀ i c, (births nonce history,i,c) ∈ takings nonce history →
    ∀ row, w.store.checkoutClaims.get nonce = some row →
      row.status = .consumed ∧ claimIDs row = claimIDs c
  /- no lifetime has two consumers -/
  once : ∀ life i j c d, (life,i,c) ∈ takings nonce history →
    (life,j,d) ∈ takings nonce history → i=j ∧ c=d

theorem lived_start (nonce : String) (w : World) : Lived nonce w [] where
  consumed i c h := by cases h
  once life i j c d h := by cases h

section Steps
variable {nonce : String} {w : World} {history : List (ℕ × Event)} {i : ℕ} {a : Answer} {op : Op}

theorem lived_called (h : Lived nonce w history) :
    Lived nonce (perform a op w).2 ((i,⟨op,(perform a op w).1⟩)::history) := by
  have hmoves:=row_perform nonce a op w
  generalize hrow : w.store.checkoutClaims.get nonce=row at hmoves
  generalize hrow' : (perform a op w).2.store.checkoutClaims.get nonce=row' at hmoves
  generalize (⟨op,(perform a op w).1⟩ : Event)=e at hmoves ⊢
  cases hmoves with
  | born c hc hborn htaken =>
    refine ⟨fun j d hd => ?_,fun life => ?_⟩
    · -- a new lifetime, in which nothing was consumed yet
      rw [births_born hborn hc,takings_same htaken] at hd
      have hle:=takings_le nonce history _ hd
      have hpast : births nonce history+1≤births nonce history := hle
      omega
    · rw [takings_same htaken]
      exact h.once life
  | taken c c' hready hc' hids hnonce hborn htaken =>
    -- the row was ready, so nobody has consumed it in this lifetime
    have hfirst (j : ℕ) (d : CheckoutClaim) :
        (births nonce history,j,d)∉takings nonce history := by
      intro hd
      have hconsumed:=(h.consumed j d hd c hrow).1
      rw [hready] at hconsumed
      cases hconsumed
    refine ⟨fun j d hd r hr => ?_,fun life j k d d' hd hd' => ?_⟩
    · rw [births_same hborn,takings_taken htaken hnonce] at hd
      rcases List.mem_cons.1 hd with heq | hold
      · cases heq
        rw [hrow',Option.some.injEq] at hr
        subst hr
        exact ⟨hc',rfl⟩
      · exact absurd hold (hfirst j d)
    · rw [takings_taken htaken hnonce] at hd hd'
      rcases List.mem_cons.1 hd with heq | hold <;> rcases List.mem_cons.1 hd' with heq' | hold'
      · cases heq
        cases heq'
        exact ⟨rfl,rfl⟩
      · cases heq
        exact absurd hold' (hfirst k d')
      · cases heq'
        exact absurd hold (hfirst j d)
      · exact h.once life j k d d' hold hold'
  | moved c c' hlater hstep hmark hborn htaken =>
    refine ⟨fun j d hd r hr => ?_,fun life => ?_⟩
    · rw [births_same hborn,takings_same htaken] at hd
      rw [hrow',Option.some.injEq] at hr
      subst hr
      obtain ⟨hconsumed,hids⟩:=h.consumed j d hd c hrow
      have hne : c.status≠.pending := by
        rw [hconsumed]
        intro heq
        cases heq
      have hle:=hlater.forward
      rw [hconsumed] at hle
      refine ⟨?_,(hlater.bound hne).trans hids⟩
      cases hs : c'.status with
      | consumed => rfl
      | pending => simp [hs,statusRank] at hle
      | ready => simp [hs,statusRank] at hle
    · rw [takings_same htaken]
      exact h.once life
  | gone row hborn htaken =>
    refine ⟨fun j d hd r hr => ?_,fun life => ?_⟩
    · rw [hrow'] at hr
      cases hr
    · rw [takings_same htaken]
      exact h.once life

/-- What has become of the row `c₀` of the nonce since it was in its `life`-th
lifetime. -/
structure Since (nonce : String) (life : ℕ) (c₀ : CheckoutClaim) (w : World)
    (history : List (ℕ × Event)) : Prop where
  begun : life ≤ births nonce history
  row : births nonce history = life → ∀ c, w.store.checkoutClaims.get nonce = some c → Later c₀ c
  consumed : c₀.status≠.pending → ∀ j c, (life,j,c) ∈ takings nonce history →
    claimIDs c = claimIDs c₀

theorem since_start {c₀ : CheckoutClaim} (hrow : w.store.checkoutClaims.get nonce=some c₀)
    (h : Lived nonce w history) : Since nonce (births nonce history) c₀ w history where
  begun := le_rfl
  row _ c hc := by
    rw [hrow,Option.some.injEq] at hc
    exact hc ▸ Later.refl c₀
  consumed _ j c hc := (h.consumed j c hc c₀ hrow).2.symm

theorem since_called {life : ℕ} {c₀ : CheckoutClaim} (h : Since nonce life c₀ w history) :
    Since nonce life c₀ (perform a op w).2 ((i,⟨op,(perform a op w).1⟩)::history) := by
  have hmoves:=row_perform nonce a op w
  generalize hrow : w.store.checkoutClaims.get nonce=row at hmoves
  generalize hrow' : (perform a op w).2.store.checkoutClaims.get nonce=row' at hmoves
  generalize (⟨op,(perform a op w).1⟩ : Event)=e at hmoves ⊢
  have hbegun:=h.begun
  cases hmoves with
  | born c hc hborn htaken =>
    have hnext : births nonce ((i,e)::history)=births nonce history+1 := births_born hborn hc
    refine ⟨by omega,fun hlife => by omega,fun hne j d hd => ?_⟩
    rw [takings_same htaken] at hd
    exact h.consumed hne j d hd
  | taken c c' hready hc' hids hnonce hborn htaken =>
    have hsame : births nonce ((i,e)::history)=births nonce history := births_same hborn
    have hlater : Later c c' := by
      refine ⟨?_,fun _ => hids⟩
      simp [hready,hc',statusRank]
    refine ⟨by omega,fun hlife d hd => ?_,fun hne j d hd => ?_⟩
    · rw [hrow',Option.some.injEq] at hd
      exact hd ▸ (h.row (hsame ▸ hlife) c hrow).trans hlater
    rw [takings_taken htaken hnonce] at hd
    rcases List.mem_cons.1 hd with heq | hold
    · obtain ⟨hlife,-,rfl⟩ : life=births nonce history ∧ j=i ∧ d=c' := by simpa using heq
      exact hids.trans ((h.row hlife.symm c hrow).bound hne)
    · exact h.consumed hne j d hold
  | moved c c' hlater hstep hmark hborn htaken =>
    have hsame : births nonce ((i,e)::history)=births nonce history := births_same hborn
    refine ⟨by omega,fun hlife d hd => ?_,fun hne j d hd => ?_⟩
    · rw [hrow',Option.some.injEq] at hd
      exact hd ▸ (h.row (hsame ▸ hlife) c hrow).trans hlater
    · rw [takings_same htaken] at hd
      exact h.consumed hne j d hd
  | gone row hborn htaken =>
    have hsame : births nonce ((i,e)::history)=births nonce history := births_same hborn
    refine ⟨by omega,fun _ d hd => ?_,fun hne j d hd => ?_⟩
    · rw [hrow'] at hd
      cases hd
    · rw [takings_same htaken] at hd
      exact h.consumed hne j d hd

end Steps

def bearsPending : Op → Bool
  | .store (.createCheckoutClaim c) => c.status == .pending
  | _ => true

abbrev BearsPending : List Event → Op → Prop := fun _ op => bearsPending op = true

theorem pending_of_bornBy {op : Op} {r : op.Rep} (hop : bearsPending op=true)
    (hborn : bornBy ⟨op,r⟩=some c) : c.status=.pending := by
  unfold bornBy at hborn
  split at hborn
  · next heq =>
    cases heq
    cases hborn
    exact eq_of_beq hop
  · cases hborn

theorem bearsPending_of_bills {op : Op} (h : Billing.bills op=true) : bearsPending op=true := by
  cases op with
  | store sop => cases sop <;> first | rfl | cases h
  | _ => rfl

section Requests
variable {srv : CheckoutService} {log : List Event}

theorem provisionOpenLicense_bearsPending (s : Service) (accountID : String) :
    Makes BearsPending log (provisionOpenLicense s accountID) := by
  refine obeys_store rfl fun existing => ?_
  dsimp only
  split
  · exact trivial
  refine obeys_step rfl fun t => obeys_step rfl fun subID => obeys_store rfl fun u => ?_
  refine obeys_step rfl fun licID => obeys_step rfl fun r => ?_
  rcases r with e | u <;> exact trivial

theorem startCheckoutOpen_bearsPending (req : Option StartCheckoutReq) :
    Makes BearsPending log (startCheckoutOpen srv req) := by
  unfold startCheckoutOpen
  split
  · exact trivial
  refine obeys_step rfl fun t => obeys_step rfl fun accountID => obeys_store rfl fun u => ?_
  refine obeys_seq (provisionOpenLicense_bearsPending _ _) fun r l _ _ => ?_
  rcases r with e | ⟨licID,subID⟩
  · exact trivial
  refine obeys_store rfl fun u => ?_
  refine obeys_store rfl fun u => ?_
  refine obeys_step rfl fun claimCode => obeys_step rfl fun r => ?_
  rcases r with e | u <;> exact trivial

theorem handleStartCheckout_bearsPending (stripe : CheckoutSessionParams → SessionReply)
    (req : Option StartCheckoutReq) :
    Makes BearsPending log (handleStartCheckout srv stripe req) := by
  refine obeys_ite (fun _ => startCheckoutOpen_bearsPending req) fun _ => ?_
  refine obeys_unless fun _ => ?_
  split
  · exact trivial
  split
  · exact trivial
  · exact trivial
  · refine obeys_step rfl fun t => obeys_step rfl fun r => ?_
    rcases r with e | u <;> exact trivial

theorem handleCheckoutReturn_bearsPending (nonce sessionID : String) :
    Makes BearsPending log (handleCheckoutReturn srv nonce sessionID) := by
  refine obeys_store rfl fun claim => ?_
  refine obeys_unless fun _ => ?_
  refine obeys_unless fun _ => obeys_step rfl fun t => ?_
  refine obeys_unless fun _ => ?_
  refine obeys_unless fun _ => ?_
  refine obeys_step rfl fun claimCode => obeys_step rfl fun r => ?_
  rcases r with e | u <;> exact trivial

def consumedClaims (log : List Event) : List CheckoutClaim := log.filterMap takenBy

/- An answer 200 carries the ids of the one claim that the request consumed. -/
def HandsOut (res : Except Reject ClaimAnswer) (log : List Event) : Prop :=
  ∀ resp, res = .ok (.claimed resp) → ∃ c, consumedClaims log = [c] ∧
    claimIDs c = (resp.accountID,resp.licenseID,resp.subscriptionID)

theorem handsOut_error (e : Reject) (log : List Event) : HandsOut (.error e) log := by
  intro resp h
  cases h

theorem handOut_handsOut (c : CheckoutClaim) (hlog : consumedClaims log = [c]) :
    Obeys BearsPending HandsOut log (handOut srv c) := by
  refine obeys_step rfl fun id =>
    obeys_stored rfl (fun u => ?_) fun _ => obeys_pure (handsOut_error _ _)
  refine obeys_pure fun resp h => ⟨c,hlog,?_⟩
  cases h
  rfl

theorem findClaim_consumes (req : ClaimReq) (hlog : consumedClaims log = []) :
    Obeys BearsPending (fun _ l => consumedClaims l = []) log (findClaim srv req) := by
  unfold findClaim
  split
  · exact ⟨rfl,fun r => hlog⟩
  · exact ⟨rfl,fun r => hlog⟩

theorem handleClaimAccount_handsOut (req : Option ClaimReq) :
    Obeys BearsPending HandsOut [] (handleClaimAccount srv req) := by
  cases req with
  | none => exact obeys_pure (handsOut_error _ _)
  | some req =>
    refine obeys_ite (fun _ => obeys_pure (handsOut_error _ _)) fun _ => ?_
    refine obeys_seq (findClaim_consumes req rfl) fun r l hl _ => ?_
    rcases r with e | claim
    · exact obeys_pure (handsOut_error _ _)
    refine obeys_ite (fun _ => obeys_pure (handsOut_error _ _)) fun _ => obeys_step rfl fun t => ?_
    refine obeys_ite (fun _ => obeys_pure (handsOut_error _ _)) fun _ => ?_
    refine obeys_ite (fun _ => obeys_pure fun resp h => by cases h) fun _ => ?_
    refine obeys_step rfl fun consumedAt => obeys_step rfl fun r => ?_
    rcases r with e | consumed
    · exact obeys_ite (fun _ => obeys_pure (handsOut_error _ _)) fun _ =>
        obeys_pure (handsOut_error _ _)
    refine handOut_handsOut consumed ?_
    show consumed::consumedClaims l = [consumed]
    rw [hl]

theorem handleCheckout_bearsPending (x : CheckoutActivity) :
    Makes BearsPending [] (handleCheckout srv x) := by
  have hignore {α : Type} {post : α → List Event → Prop} {p : Handler α}
      (h : Obeys BearsPending post [] p) : Makes BearsPending [] (ignore p) :=
    obeys_seq h fun _ _ _ _ => trivial
  cases x with
  | startCheckout stripe req => exact hignore (handleStartCheckout_bearsPending stripe req)
  | checkoutReturn nonce sessionID =>
    exact hignore (handleCheckoutReturn_bearsPending nonce sessionID)
  | claimAccount req => exact hignore (handleClaimAccount_handsOut req)
  | webhook payload signed =>
    have hpending : Makes BearsPending [] (handleWebhook _ payload signed) :=
      obeys_weaken (Billing.handleWebhook_bills srv.toService payload signed) fun _ _ _ =>
        bearsPending_of_bills
    exact hignore hpending
  | retryFailed limit =>
    have hpending : Makes BearsPending [] (Billing.retryFailed _ limit) :=
      obeys_weaken (Billing.retryFailed_bills srv.proc limit) fun _ _ _ => bearsPending_of_bills
    exact hignore hpending
  | sweepClaims => exact obeys_step rfl fun t => obeys_step rfl fun r => trivial

end Requests

abbrev CheckoutAct := Pool.Act CheckoutActivity Answer

def checkouts (srv : CheckoutService) (w : World) (xs : List CheckoutAct) : Pool Op Op.Rep World :=
  Machine.run (Pool.act perform (handleCheckout srv)) (Pool.start w) xs

/- The `i`-th request asked for an account and was answered 200. -/
def Granted (srv : CheckoutService) (xs : List CheckoutAct) (st : Pool Op Op.Rep World) (i : ℕ)
    (resp : ClaimResp) : Prop :=
  ∃ req t, (Pool.started xs)[i]? = some (.claimAccount req) ∧ st.threads[i]? = some t ∧
    Returns (handleClaimAccount srv req) t.log.reverse (.ok (.claimed resp))

theorem takings_by (nonce : String) (i : ℕ) (history : List (ℕ × Event)) :
    ((takings nonce history).filter (·.2.1 == i)).map (·.2.2) =
      (consumedClaims (Pool.logOf i history)).filter (·.nonce == nonce) := by
  induction history with
  | nil => rfl
  | cons x older ih =>
    obtain ⟨j,e⟩:=x
    cases ht : takenBy e with
    | none =>
      have hsame : takings nonce ((j,e)::older)=takings nonce older :=
        takings_same fun d hd => by rw [ht] at hd; cases hd
      rw [hsame,ih]
      by_cases hij : j=i
      · subst hij
        simp [consumedClaims,ht]
      · rw [Pool.logOf_cons_ne hij]
    | some c =>
      by_cases hc : c.nonce=nonce
      · rw [takings_taken ht hc]
        by_cases hij : j=i
        · subst hij
          simpa [consumedClaims,ht,hc] using ih
        · simpa [hij,Pool.logOf_cons_ne hij] using ih
      have hsame : takings nonce ((j,e)::older)=takings nonce older := by
        refine takings_same fun d hd => ?_
        rw [ht,Option.some.injEq] at hd
        exact hd ▸ hc
      rw [hsame,ih]
      by_cases hij : j=i
      · subst hij
        simp [consumedClaims,ht,hc]
      · rw [Pool.logOf_cons_ne hij]

theorem takings_single {i : ℕ} {history : List (ℕ × Event)}
    (h : consumedClaims (Pool.logOf i history) = [c]) :
    ∃ life,∀ nonce x,x∈takings nonce history ∧ x.2.1=i ↔ nonce=c.nonce ∧ x=(life,i,c) := by
  have hby:=takings_by c.nonce i history
  rw [h,List.filter_cons_of_pos (by simp),List.filter_nil,List.map_eq_singleton_iff] at hby
  obtain ⟨⟨life,j,d⟩,hfilter,hd⟩:=hby
  obtain ⟨hmem,hj⟩ : (life,j,d)∈takings c.nonce history ∧ (j == i)=true := by
    rw [← List.mem_filter (p := fun x : ℕ × ℕ × CheckoutClaim => x.2.1 == i),hfilter]
    exact List.mem_singleton.2 rfl
  obtain rfl : j=i := eq_of_beq hj
  obtain rfl : d=c := hd
  refine ⟨life,fun nonce x => ⟨fun ⟨hx,hi⟩ => ?_,fun ⟨hn,hx⟩ => ?_⟩⟩
  · have hin : x∈(takings nonce history).filter (·.2.1 == j) :=
      List.mem_filter.2 ⟨hx,beq_iff_eq.2 hi⟩
    have hnonce : x.2.2∈(consumedClaims (Pool.logOf j history)).filter (·.nonce == nonce) := by
      rw [← takings_by]
      exact List.mem_map_of_mem hin
    rw [h,List.mem_filter,List.mem_singleton] at hnonce
    obtain ⟨hxd,hn⟩:=hnonce
    obtain rfl : nonce=d.nonce := (hxd ▸ eq_of_beq hn).symm
    rw [hfilter,List.mem_singleton] at hin
    exact ⟨rfl,hin⟩
  · subst hn
    subst hx
    exact ⟨hmem,rfl⟩

section Run
variable {srv : CheckoutService} {w : World} {nonce : String}

def Orderly (w : World) (history : List (ℕ × Event)) : Prop :=
  (∀ nonce, Lived nonce w history) ∧ ∀ x ∈ history, bearsPending x.2.1 = true

theorem orderly_run (xs : List CheckoutAct) :
    Pool.Ledger BearsPending (fun _ => True) Orderly (checkouts srv w xs) := by
  refine Pool.ledger_acts perform (handleCheckout srv) handleCheckout_bearsPending ?_
    (Pool.ledger_start ⟨fun nonce => lived_start nonce w,fun x hx => by cases hx⟩) xs
  rintro w history i a op ⟨hlived,hbears⟩ hok
  refine ⟨fun nonce => lived_called (hlived nonce),fun x hx => ?_⟩
  rcases List.mem_cons.1 hx with rfl | hx
  · exact hok
  · exact hbears x hx

theorem since_run {xs : List CheckoutAct}
    (hc : (checkouts srv w xs).world.store.checkoutClaims.get nonce=some c)
    (ys : List CheckoutAct) :
    Since nonce (births nonce (checkouts srv w xs).history) c (checkouts srv w (xs++ys)).world
      (checkouts srv w (xs++ys)).history := by
  have hxs : Pool.Ledger BearsPending (fun _ => True) Orderly (checkouts srv w xs) := orderly_run xs
  have hstart : Pool.Ledger BearsPending (fun _ => True)
      (Since nonce (births nonce (checkouts srv w xs).history) c) (checkouts srv w xs) :=
    ⟨hxs.disciplined,hxs.recorded,since_start hc (hxs.inv.1 nonce)⟩
  unfold checkouts
  rw [Machine.run_append]
  exact (Pool.ledger_acts perform (handleCheckout srv) handleCheckout_bearsPending
    (fun w history i a op hsince _ => since_called hsince) hstart ys).inv

theorem rank_step {st : Pool Op Op.Rep World} {c' : CheckoutClaim} (x : CheckoutAct)
    (hc : st.world.store.checkoutClaims.get nonce=some c)
    (hc' : (Pool.act perform (handleCheckout srv) st x).world.store.checkoutClaims.get nonce =
      some c') : statusRank c'.status ≤ statusRank c.status+1 := by
  have hstays (h : st.world.store.checkoutClaims.get nonce=some c') :
      statusRank c'.status ≤ statusRank c.status+1 := by
    rw [hc,Option.some.injEq] at h
    rw [h]
    exact Nat.le_succ _
  have hm:=Pool.next_moves perform st (x.step (handleCheckout srv))
  unfold Pool.act at hc'
  generalize Pool.next perform st (x.step (handleCheckout srv))=st' at hm hc'
  generalize x.step (handleCheckout srv)=step at hm
  cases hm with
  | spawned p => exact hstays hc'
  | killed i t ht => exact hstays hc'
  | stays => exact hstays hc'
  | called i a log op k ht =>
    have hmoves:=row_perform nonce a op st.world
    rw [hc] at hmoves
    change (perform a op st.world).2.store.checkoutClaims.get nonce=some c' at hc'
    rw [hc'] at hmoves
    cases hmoves with
    | taken _ _ hready hconsumed => simp [hready,hconsumed,statusRank]
    | moved _ _ _ hstep => exact hstep

theorem consumed_of_granted {xs : List CheckoutAct} {i : ℕ} {resp : ClaimResp}
    (h : Granted srv xs (checkouts srv w xs) i resp) :
    ∃ c,consumedClaims (Pool.logOf i (checkouts srv w xs).history) = [c] ∧
      claimIDs c=(resp.accountID,resp.licenseID,resp.subscriptionID) := by
  obtain ⟨req,t,-,ht,hret⟩:=h
  have hrun : Pool.Ledger BearsPending (fun _ => True) Orderly (checkouts srv w xs) :=
    orderly_run xs
  have hdone:=hret.obeys (handleClaimAccount_handsOut req)
  rw [List.reverse_reverse,List.append_nil,hrun.recorded.log_eq ht] at hdone
  exact hdone resp rfl

end Run

/-- All checkout requests, webhooks, retries and sweeps in any order, with failing
calls and crashes. In one lifetime of a claim its status only moves forward, one
stage at a time from pending, and what is bound when it becomes ready stays. A
request that is answered 200 consumed one claim, which no other request consumed in
that lifetime, and it is answered with the ids that were bound. -/
theorem checkout_claim_lifecycle (srv : CheckoutService) (w : World) (xs ys : List CheckoutAct) :
    let st := checkouts srv w xs
    let st' := checkouts srv w (xs ++ ys)
    (∀ x ∈ st'.history, ∀ c, bornBy x.2 = some c → c.status=.pending) ∧
      (∀ nonce c c', births nonce st.history = births nonce st'.history →
        st.world.store.checkoutClaims.get nonce = some c →
        st'.world.store.checkoutClaims.get nonce = some c' →
        Later c c' ∧ (ys.length=1 → statusRank c'.status ≤ statusRank c.status + 1)) ∧
      ∀ i resp, Granted srv (xs ++ ys) st' i resp → ∃ nonce life,
        (∃ c, ∀ nonce' x, x ∈ takings nonce' st'.history ∧ x.2.1=i ↔
          nonce' = nonce ∧ x = (life,i,c)) ∧
        (∀ j c, (life,j,c) ∈ takings nonce st'.history →
          j = i ∧ claimIDs c = (resp.accountID,resp.licenseID,resp.subscriptionID)) ∧
        ∀ c, births nonce st.history = life →
          st.world.store.checkoutClaims.get nonce = some c → c.status≠.pending →
          claimIDs c = (resp.accountID,resp.licenseID,resp.subscriptionID) := by
  intro st st'
  have hrun : Pool.Ledger BearsPending (fun _ => True) Orderly st' := orderly_run (xs ++ ys)
  refine ⟨fun x hx c hborn => ?_,fun nonce c c' hlife hc hc' => ⟨?_,fun hone => ?_⟩,
    fun i resp hgranted => ?_⟩
  · obtain ⟨i,op,r⟩ := x
    exact pending_of_bornBy (hrun.inv.2 _ hx) hborn
  · exact (since_run hc ys).row hlife.symm c' hc'
  · obtain ⟨y,rfl⟩ := List.length_eq_one_iff.1 hone
    have hstep : st' = Pool.act perform (handleCheckout srv) st y := by
      show checkouts srv w (xs ++ [y]) = _
      unfold checkouts
      rw [Machine.run_append]
      rfl
    rw [hstep] at hc'
    exact rank_step y hc hc'
  · obtain ⟨c,hconsumed,hids⟩ := consumed_of_granted hgranted
    obtain ⟨life,hsingle⟩ := takings_single hconsumed
    obtain ⟨hmem,-⟩ := (hsingle c.nonce (life,i,c)).2 ⟨rfl,rfl⟩
    refine ⟨c.nonce,life,⟨c,hsingle⟩,fun j d hd => ?_,fun row hlife hrow hbound => ?_⟩
    · obtain ⟨hj,rfl⟩ := (hrun.inv.1 c.nonce).once life j i d c hd hmem
      exact ⟨hj,hids⟩
    have hsince := since_run hrow ys
    rw [hlife] at hsince
    exact (hsince.consumed hbound i c hmem).symm.trans hids

end SecureGateway.Auth
