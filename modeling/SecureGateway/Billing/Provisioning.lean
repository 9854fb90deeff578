import SecureGateway.Auth.Interleaving

/-!
# Licenses provisioned by concurrent handlers

`ensureLicenses` lists the licenses and creates the missing ones in calls of their own, so two
handlers may each provision the full number. Where a handler creates a license only while no
other has created one since it counted, the number stays within the largest `MaxPairs` the
mirror ever had.
-/

namespace SecureGateway.Billing
open Authstore Auth

def licenseCount (s : Store) (subID : String) : ℕ :=
  s.licenses.count fun l => l.subscriptionID == subID

def mirroredBy (subID : String) : Event → ℕ
  | ⟨.store (.upsertSubscription m),.ok _⟩ => if m.id=subID then m.maxPairs else 0
  | _ => 0

/-- The largest `MaxPairs` ever mirrored for the subscription. -/
def largestMirrored (subID : String) : List (ℕ × Event) → ℕ
  | [] => 0
  | x :: history => max (mirroredBy subID x.2) (largestMirrored subID history)

/-- Since request `i` last listed the licenses of the subscription, no other
request has created one. -/
def aloneSince (i : ℕ) (subID : String) : List (ℕ × Event) → Bool
  | [] => true
  | (j,e) :: history =>
    if j=i then (listed subID e).isSome || aloneSince i subID history
    else !created subID e && aloneSince i subID history

/-- A step that creates a license of the subscription is taken by a request
whose count of them is still right. -/
def undisturbed (subID : String) (st : Requests) : Auth.Step → Bool
  | .call i _ =>
    match nextCall st i with
    | some (.store (.createLicense l)) =>
      l.subscriptionID != subID || aloneSince i subID st.history
    | _ => true
  | _ => true

def ofBilling : Auth.Step → Bool
  | .start r => r.isBilling
  | _ => true

theorem eq_createLicense_of_created {subID : String} {op : Op} {r : op.Rep}
    (h : created subID ⟨op,r⟩=true) :
    ∃ l,op = .store (.createLicense l) ∧ l.subscriptionID=subID := by
  unfold created at h
  split at h
  · next l _ heq =>
    obtain ⟨rfl,-⟩:=Sigma.mk.inj heq
    exact ⟨l,rfl,by simpa using h⟩
  · cases h

theorem licenseCount_create (a : Answer) (l : License) (w : World) (subID : String) :
    licenseCount (perform a (.store (.createLicense l)) w).2.store subID =
      licenseCount w.store subID +
        if created subID ⟨_,(perform a (.store (.createLicense l)) w).1⟩ then 1 else 0 := by
  cases hf : a.fault with
  | true => simp [perform,hf,created]
  | false =>
    cases hget : w.store.licenses.get l.id with
    | some l' => simp [perform,hf,Store.exec,Store.createLicense,hget,created]
    | none =>
      simp only [perform,hf,Store.exec,Store.createLicense,hget,created,licenseCount,
        Bool.false_eq_true,if_false]
      by_cases hsub : l.subscriptionID=subID
      · simp [hsub,Table.count_put_new hget]
      · simp [hsub,Table.count_put_same,hget]

theorem licenseCount_perform (a : Answer) (op : Op) (w : World) (subID : String) :
    licenseCount (perform a op w).2.store subID =
      licenseCount w.store subID+if created subID ⟨op,(perform a op w).1⟩ then 1 else 0 := by
  by_cases hop : ∃ l,op = .store (.createLicense l)
  · obtain ⟨l,rfl⟩:=hop
    exact licenseCount_create a l w subID
  have hnot : created subID ⟨op,(perform a op w).1⟩=false := by
    refine Bool.eq_false_iff.2 fun hcreated => hop ?_
    obtain ⟨l,hl,-⟩:=eq_createLicense_of_created hcreated
    exact ⟨l,hl⟩
  rw [hnot]
  rcases perform_writes a op w with hsame | ⟨sop,rfl,hw⟩
  · rw [hsame]; rfl
  generalize (perform a (.store sop) w).2.store=s' at hw
  cases hw with
  | license l hnew => exact absurd ⟨l,rfl⟩ hop
  | licenseStatus id status l hold =>
    refine Table.count_put_same ?_
    simp [Table.replaced hold rfl]
  | _ => rfl

theorem licenseCount_listed {a : Answer} {op : Op} {w : World} {subID : String} {n : ℕ}
    (h : listed subID ⟨op,(perform a op w).1⟩=some n) :
    licenseCount (perform a op w).2.store subID=n := by
  unfold listed at h
  split at h
  · next id ls heq =>
    obtain ⟨rfl,hr⟩:=Sigma.mk.inj heq
    split at h
    · next hid =>
      subst hid
      cases h
      have hexec:=(perform_ok (eq_of_heq hr)).1
      rw [perform_read a _ w rfl]
      cases hexec
      rfl
    · cases h
  · cases h

theorem mirroredBy_le_largestMirrored {subID : String} {x : ℕ × Event} {history : List (ℕ × Event)}
    (h : x∈history) : mirroredBy subID x.2≤largestMirrored subID history := by
  induction history with
  | nil => cases h
  | cons y history ih =>
    rcases List.mem_cons.1 h with rfl | h
    · exact Nat.le_max_left _ _
    · exact (ih h).trans (Nat.le_max_right _ _)

structure Provisioned (subID : String) (st : Requests) : Prop where
  disciplined : Pool.Disciplined (Permitted (fun _ => True) true) (fun _ => True) st
  logged : Pool.Logged st
  /- no handler of Stripe's events opens a subscription of its own -/
  noOpen : ∀ x ∈ st.history, x.2.1 ≠ .newID "sub"
  /- a request's count is right as long as it was alone -/
  counts : ∀ i t n, st.threads[i]? = some t → counted subID t.log = some n →
    aloneSince i subID st.history = true → licenseCount st.world.store subID = n
  bound : licenseCount st.world.store subID ≤ largestMirrored subID st.history

variable {srv : Service} {subID : String}

theorem provisioned_start (w : World) (hw : w.store={}) : Provisioned subID (Pool.start w) where
  disciplined := Pool.disciplined_start _ _ w
  logged := Pool.logged_start w
  noOpen := by simp [Pool.start]
  counts := by simp [Pool.start]
  bound := by simp [Pool.start,licenseCount,hw,Table.count]

variable {log : List Event} {st : Requests}

theorem Provisioned.room (h : Provisioned subID st) {i : ℕ} {l : License}
    {k : (Op.store (.createLicense l)).Rep → Handler Unit}
    (ht : st.threads[i]? = some ⟨log,some (.call (.store (.createLicense l)) k)⟩)
    (hsub : l.subscriptionID=subID) (halone : aloneSince i subID st.history=true) :
    licenseCount st.world.store subID<largestMirrored subID st.history := by
  rcases h.disciplined.permits ht with ⟨m,n,hsaw,hid,hcount,hlt⟩ | hopen
  · rw [hsub] at hid hcount
    rw [h.counts i _ n ht hcount halone]
    refine hlt.trans_le ?_
    have hle : mirroredBy subID ⟨.store (.upsertSubscription m),.ok ()⟩ ≤
        largestMirrored subID st.history := mirroredBy_le_largestMirrored (h.logged i _ _ ht hsaw)
    simpa [mirroredBy,hid] using hle
  · exact absurd rfl (h.noOpen _ (h.logged i _ _ ht hopen))

theorem counted_perform {a : Answer} {op : Op} {w : World} {n : ℕ}
    (hcount : counted subID (⟨op,(perform a op w).1⟩::log)=some n)
    (hold : listed subID ⟨op,(perform a op w).1⟩=none →
      ∀ n,counted subID log=some n → licenseCount w.store subID=n) :
    licenseCount (perform a op w).2.store subID=n := by
  unfold counted at hcount
  split at hcount
  · next m hlisted =>
    cases hcount
    exact licenseCount_listed hlisted
  · next hnot =>
    obtain ⟨m,hm,rfl⟩:=Option.map_eq_some_iff.1 hcount
    rw [licenseCount_perform,hold hnot m hm]

theorem Provisioned.counts_called (h : Provisioned subID st) {i : ℕ} (a : Answer) {op : Op}
    {k : op.Rep → Handler Unit} (hi : st.threads[i]? = some ⟨log,some (.call op k)⟩) (j : ℕ)
    (t : Thread Op Op.Rep) (n : ℕ) (hj : (Pool.called perform st i log op k a).threads[j]? = some t)
    (hcount : counted subID t.log=some n)
    (halone : aloneSince j subID (Pool.called perform st i log op k a).history=true) :
    licenseCount (perform a op st.world).2.store subID=n := by
  simp only [Pool.called,aloneSince] at halone
  rcases Pool.of_mem_set hj with ⟨rfl,rfl⟩ | ⟨hne,hold⟩
  · rw [if_pos rfl,Bool.or_eq_true] at halone
    refine counted_perform hcount fun hnot m hm => ?_
    rw [hnot] at halone
    exact h.counts j _ m hi hm (by simpa using halone)
  · rw [if_neg (Ne.symm hne),Bool.and_eq_true,Bool.not_eq_true'] at halone
    rw [licenseCount_perform,halone.1]
    exact h.counts j t n hold hcount halone.2

theorem Provisioned.bound_called (h : Provisioned subID st) {i : ℕ} (a : Answer) {op : Op}
    {k : op.Rep → Handler Unit} (hi : st.threads[i]? = some ⟨log,some (.call op k)⟩)
    (hguard : undisturbed subID st (.call i a)=true) :
    licenseCount (perform a op st.world).2.store subID ≤
      largestMirrored subID ((i,⟨op,(perform a op st.world).1⟩)::st.history) := by
  refine le_trans ?_ (Nat.le_max_right _ _)
  rw [licenseCount_perform]
  split
  · next hcreated =>
    obtain ⟨l,rfl,hsub⟩:=eq_createLicense_of_created hcreated
    refine h.room hi hsub ?_
    simpa [undisturbed,nextCall_eq hi,hsub] using hguard
  · exact h.bound

theorem Provisioned.interleave (h : Provisioned subID st) (x : Auth.Step)
    (hbilling : ofBilling x=true) (hguard : undisturbed subID st x=true) :
    Provisioned subID (interleave srv st x) := by
  have hd : Pool.Disciplined (Permitted (fun _ => True) true) (fun _ => True)
      (Auth.interleave srv st x) := by
    refine disciplined_interleave st x h.disciplined fun r hr => ?_
    subst hr
    exact handle_billing_obeys r hbilling fun _ _ => trivial
  have hl : Pool.Logged (Auth.interleave srv st x) := Pool.logged_next perform st _ h.logged
  have hm : Pool.Moves perform st (x.pool srv) (Auth.interleave srv st x) :=
    Pool.next_moves perform st _
  generalize Auth.interleave srv st x=st' at hd hl hm
  cases x with
  | start r =>
    cases hm with
    | spawned =>
      refine ⟨hd,hl,h.noOpen,fun i t n ht hcount halone => ?_,h.bound⟩
      rcases Pool.of_mem_append ht with ⟨-,rfl⟩ | hold
      · cases hcount
      · exact h.counts i t n hold hcount halone
    | stays => exact h
  | call i a =>
    cases hm with
    | called _ _ log op k hi =>
      refine ⟨hd,hl,fun x hx => ?_,h.counts_called a hi,h.bound_called a hi hguard⟩
      rcases List.mem_cons.1 hx with rfl | hx
      · rintro rfl
        exact absurd (h.disciplined.permits hi rfl) (by decide)
      · exact h.noOpen x hx
    | stays => exact h
  | crash i =>
    cases hm with
    | killed _ t hi =>
      refine ⟨hd,hl,h.noOpen,fun j t' n ht hcount halone => ?_,h.bound⟩
      rcases Pool.of_mem_set ht with ⟨rfl,rfl⟩ | ⟨-,hold⟩
      · exact h.counts j t n hi hcount halone
      · exact h.counts j t' n hold hcount halone
    | stays => exact h

/-- The handlers of Stripe's events and the background workers, started, run and
stopped in any order, where a handler creates a license of the subscription
only while its count is undisturbed: there are never more licenses than the
largest `MaxPairs` mirrored. -/
theorem licenses_within_largest_mirror (srv : Service) (subID : String) (w : World)
    (hempty : w.store={}) (steps : List Auth.Step)
    (hsteps : Machine.Guarded (interleave srv)
      (fun st x => (ofBilling x && undisturbed subID st x) = true) (Pool.start w) steps) :
    licenseCount (Machine.run (interleave srv) (Pool.start w) steps).world.store subID ≤
      largestMirrored subID (Machine.run (interleave srv) (Pool.start w) steps).history := by
  refine (Machine.guarded_invariant (interleave srv) _ (Provisioned subID) ?_ _ steps
    (provisioned_start w hempty) hsteps).bound
  intro st x h hx
  rw [Bool.and_eq_true] at hx
  exact h.interleave x hx.1 hx.2

/- The second handler lists the licenses before the first one creates its own. -/
def racingHandlers : List Auth.Step :=
  [.start sampleCreated,.start sampleUpdated] ++ calls 10 0 "a" ++ calls 7 1 "b" ++
    calls 3 0 "a" ++ calls 3 1 "b"

theorem racing_handlers_overprovision :
    racingHandlers.all ofBilling = true ∧
      ¬ licenseCount (Machine.run (interleave sampleService) (Pool.start {})
          racingHandlers).world.store "sub_1" ≤
        largestMirrored "sub_1" (Machine.run (interleave sampleService) (Pool.start {})
          racingHandlers).history := by
  decide +kernel

def handlersInTurn : List Auth.Step :=
  [.start sampleCreated,.start sampleUpdated] ++ calls 30 0 "a" ++ calls 30 1 "b"

theorem licenses_within_largest_mirror_in_turn :
    licenseCount (Machine.run (interleave sampleService) (Pool.start {})
        handlersInTurn).world.store "sub_1" = 1 ∧
      licenseCount (Machine.run (interleave sampleService) (Pool.start {})
          handlersInTurn).world.store "sub_1" ≤
        largestMirrored "sub_1" (Machine.run (interleave sampleService) (Pool.start {})
          handlersInTurn).history :=
  ⟨by decide +kernel,licenses_within_largest_mirror sampleService "sub_1" {} rfl handlersInTurn
    (by decide +kernel)⟩

end SecureGateway.Billing
