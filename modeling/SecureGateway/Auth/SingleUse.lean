import SecureGateway.Auth.Interleaving

/-!
# Pairing tokens are used once

`ConsumePairingToken` succeeds once for each token, and a completion writes a pairing, a
credential or the key of an existing device only after that. No token is consumed at the
zero time, which the store reads as "not consumed", and a device id drawn for a new phone
names no device yet.
-/

namespace SecureGateway.Auth
open Authstore Prog

def Op.dated : Op → Bool
  | .store (.consumePairingToken _ _ consumedAt) => consumedAt != 0
  | _ => true

def dated (st : Requests) : Step → Bool
  | .call i _ => (nextCall st i).all Op.dated
  | _ => true

/- The id that a request has drawn for a device, and under which it has stored none
yet, names no device when the request registers it. -/
def freshDevice (st : Requests) : Step → Bool
  | .call i _ =>
    match nextCall st i with
    | some (.store (.upsertDevice d)) =>
      !((Pool.logOf i st.history).any (drewDevice d.id) &&
          (Pool.logOf i st.history).all fun e => (storedDevice e).isNone) ||
        (st.world.store.devices.get d.id).isNone
    | _ => true
  | _ => true

section Call
variable {a : Answer} {op : Op} {w : World} {history : List (ℕ × Event)} {i : ℕ}

theorem consumed_kept {id : String} {pt : PairingToken} (h : w.store.pairingTokens.get id=some pt)
    (hc : pt.consumedAt≠0) : (perform a op w).2.store.pairingTokens.get id=some pt := by
  rcases perform_writes a op w with hsame | ⟨sop,rfl,hw⟩
  · rw [hsame,h]
  generalize (perform a (.store sop) w).2.store=s' at hw
  cases hw with
  | pairingToken t hnew =>
    have hne : t.id≠id := by
      rintro rfl
      rw [hnew] at h
      cases h
    exact (Table.get_put_ne _ _ hne).trans h
  | consumed id' resultPairID consumedAt t hold hpending =>
    have hne : t.id≠id := by
      rintro rfl
      rw [Table.key_of_get hold,hold,Option.some.injEq] at h
      exact hc (h ▸ hpending)
    exact (Table.get_put_ne _ { t with consumedAt := consumedAt, resultPairID := resultPairID }
      hne).trans h
  | _ => exact h

theorem spentBy_perform {id pairID : String}
    (h : spentBy ⟨op,(perform a op w).1⟩=some (id,pairID)) :
    ∃ t pt,op = .store (.consumePairingToken id pairID t) ∧
      w.store.pairingTokens.get id=some pt ∧ pt.consumedAt=0 ∧
      (perform a op w).2.store.pairingTokens.get id =
        some { pt with consumedAt := t, resultPairID := pairID } := by
  unfold spentBy at h
  split at h
  · next id' pairID' t u heq =>
    cases h
    obtain ⟨rfl,hr⟩:=Sigma.mk.inj heq
    obtain ⟨hexec,hstore⟩:=perform_ok (eq_of_heq hr)
    simp only [Store.exec,Store.consumePairingToken] at hexec hstore
    cases hget : w.store.pairingTokens.get id with
    | none => simp [hget] at hexec
    | some pt =>
      by_cases hpending : pt.consumedAt=0
      · obtain rfl : pt.id=id := Table.key_of_get hget
        refine ⟨t,pt,rfl,rfl,hpending,?_⟩
        rw [hstore]
        simp only [hget,hpending,ne_eq,not_true_eq_false,if_false]
        exact w.store.pairingTokens.get_put_self { pt with consumedAt := t, resultPairID := pairID }
      · simp [hget,hpending] at hexec
  · cases h

theorem token_back {id : String} {pt : PairingToken}
    (h : (perform a op w).2.store.pairingTokens.get id=some pt) :
    w.store.pairingTokens.get id=some pt ∨
      spentBy ⟨op,(perform a op w).1⟩=some (id,pt.resultPairID) ∨
      ∃ t,op = .store (.createPairingToken t) := by
  by_cases hconsume : ∃ id' pairID t,op = .store (.consumePairingToken id' pairID t)
  · obtain ⟨id',pairID,t,rfl⟩:=hconsume
    cases hr : (perform a (.store (.consumePairingToken id' pairID t)) w).1 with
    | error e =>
      rw [perform_error hr] at h
      exact .inl h
    | ok u =>
      obtain ⟨hexec,hstore⟩:=perform_ok hr
      rw [hstore] at h
      simp only [Store.exec,Store.consumePairingToken] at h hexec
      cases hget : w.store.pairingTokens.get id' with
      | none => simp [hget] at hexec
      | some pt' =>
        by_cases hpending : pt'.consumedAt=0
        · simp only [hget,hpending,ne_eq,not_true_eq_false,if_false] at h
          rw [Table.get_put] at h
          split at h
          · next hid =>
            cases h
            have hkey : id'=id := (Table.key_of_get hget).symm.trans hid
            exact .inr (.inl (by rw [← hkey]; rfl))
          · exact .inl h
        · simp [hget,hpending] at hexec
  · rcases perform_writes a op w with hsame | ⟨sop,rfl,hw⟩
    · rw [hsame] at h
      exact .inl h
    generalize (perform a (.store sop) w).2.store=s' at hw h
    cases hw with
    | pairingToken t hnew => exact .inr (.inr ⟨t,rfl⟩)
    | consumed id' pairID t pt' hold hpending => exact absurd ⟨id',pairID,t,rfl⟩ hconsume
    | _ => exact .inl h

/-- What the store holds of the tokens that requests have consumed. -/
structure Tokens (w : World) (history : List (ℕ × Event)) : Prop where
  recorded : ∀ i e id pairID, (i,e) ∈ history → spentBy e = some (id,pairID) →
    ∃ pt, w.store.pairingTokens.get id = some pt ∧ pt.consumedAt≠0 ∧ pt.resultPairID=pairID
  once : ∀ i j e e' id pairID pairID', (i,e) ∈ history → (j,e') ∈ history →
    spentBy e = some (id,pairID) → spentBy e' = some (id,pairID') → i=j
  read : ∀ i hash pt, Saw (Pool.logOf i history) (.getPairingToken hash) (.ok pt) → pt.id=hash

theorem tokens_start (w : World) : Tokens w [] where
  recorded i e id pairID he := by cases he
  once i j e e' id pairID pairID' he := by cases he
  read i hash pt hsaw := by simp [Saw,Pool.logOf] at hsaw

theorem Tokens.recorded_called (h : Tokens w history)
    (hdated : ∀ id pairID t,op = .store (.consumePairingToken id pairID t) → t≠0) (j : ℕ)
    (e : Event) (id pairID : String) (he : (j,e)∈(i,⟨op,(perform a op w).1⟩)::history)
    (hs : spentBy e=some (id,pairID)) :
    ∃ pt,(perform a op w).2.store.pairingTokens.get id=some pt ∧ pt.consumedAt≠0 ∧
      pt.resultPairID=pairID := by
  rcases List.mem_cons.1 he with heq | he
  · cases heq
    obtain ⟨t,pt,hop,-,-,hget⟩:=spentBy_perform hs
    exact ⟨_,hget,hdated id pairID t hop,rfl⟩
  · obtain ⟨pt,hget,hc,hr⟩:=h.recorded j e id pairID he hs
    exact ⟨pt,consumed_kept hget hc,hc,hr⟩

theorem Tokens.not_spent_again (h : Tokens w history) {j : ℕ} {e : Event}
    {id pairID pairID' : String} (he : (j,e)∈history) (hs : spentBy e=some (id,pairID)) :
    spentBy ⟨op,(perform a op w).1⟩≠some (id,pairID') := by
  intro hagain
  obtain ⟨t,pt,-,hget,hpending,-⟩:=spentBy_perform hagain
  obtain ⟨pt',hget',hc,-⟩:=h.recorded j e id pairID he hs
  rw [hget,Option.some.injEq] at hget'
  exact hc (hget' ▸ hpending)

theorem Tokens.once_called (h : Tokens w history) (j k : ℕ) (e e' : Event)
    (id pairID pairID' : String) (he : (j,e)∈(i,⟨op,(perform a op w).1⟩)::history)
    (he' : (k,e')∈(i,⟨op,(perform a op w).1⟩)::history)
    (hs : spentBy e=some (id,pairID)) (hs' : spentBy e'=some (id,pairID')) : j=k := by
  rcases List.mem_cons.1 he with heq | he <;> rcases List.mem_cons.1 he' with heq' | he'
  · cases heq
    cases heq'
    rfl
  · cases heq
    exact absurd hs (h.not_spent_again he' hs')
  · cases heq'
    exact absurd hs' (h.not_spent_again he hs)
  · exact h.once j k e e' id pairID pairID' he he' hs hs'

theorem Tokens.read_called (h : Tokens w history) (j : ℕ) (hash : String) (pt : PairingToken)
    (hsaw : Saw (Pool.logOf j ((i,⟨op,(perform a op w).1⟩)::history)) (.getPairingToken hash)
      (.ok pt)) : pt.id=hash := by
  rcases saw_called hsaw with ⟨-,rfl,hexec⟩ | hold
  · have hget : w.store.pairingTokens.get hash=some pt := by simpa [Store.exec] using hexec
    exact Table.key_of_get hget
  · exact h.read j hash pt hold

end Call

theorem tokens_called (st : Requests) (i : ℕ) (a : Answer) (op : Op)
    (h : Tokens st.world st.history) (hguard : dated st (.call i a)=true)
    (hnext : nextCall st i=some op) :
    Tokens (perform a op st.world).2 ((i,⟨op,(perform a op st.world).1⟩)::st.history) := by
  refine ⟨h.recorded_called ?_,h.once_called,h.read_called⟩
  rintro id pairID t rfl
  simpa [dated,hnext,Op.dated] using hguard

def Presents (srv : Service) (steps : List Step) (tokenID : String) (i : ℕ)
    (req : CompletePairingReq) : Prop :=
  (requests steps)[i]? = some (.completePairing (some req)) ∧
    srv.hashSecret req.pairingToken = tokenID

def Answered (srv : Service) (st : Requests) (i : ℕ) (req : CompletePairingReq)
    (res : Except Reject CompletePairingResp) : Prop :=
  ∃ t, st.threads[i]? = some t ∧ Returns (handleCompletePairing srv (some req)) t.log.reverse res

/- The call writes a pairing, a credential or an existing device, whether or not
it changes the key of the device. -/
def pairsPhone (s : Store) : Op → Bool
  | .store (.createPairingWithinCapacity _ _) | .store (.updatePairingDevices _ _ _)
  | .store (.putPairCredential _) => true
  | .store (.upsertDevice d) => (s.devices.get d.id).isSome
  | _ => false

def Pairs (srv : Service) (w : World) (steps : List Step) (i : ℕ) : Prop :=
  ∃ pre a post op, steps = pre ++ .call i a :: post ∧
    nextCall (Machine.run (interleave srv) (Pool.start w) pre) i = some op ∧
    pairsPhone (Machine.run (interleave srv) (Pool.start w) pre).world.store op = true

theorem tokens_run {srv : Service} {w : World} {steps : List Step}
    (hsteps : Machine.Guarded (interleave srv)
      (fun st x => (dated st x && freshDevice st x)=true) (Pool.start w) steps) :
    Pool.Ledger (fun _ _ => True) (fun _ => True) Tokens
      (Machine.run (interleave srv) (Pool.start w) steps) := by
  refine ledger_run Tokens _ (fun _ r _ => obeys_any [] (handle srv r)) ?_
    (Pool.ledger_start (tokens_start w)) hsteps
  intro st i a op h hguard hnext _
  simp only [Bool.and_eq_true] at hguard
  exact tokens_called st i a op h hguard.1 hnext

section Run
variable {srv : Service} {w : World} {steps : List Step} {i : ℕ} {req : CompletePairingReq}
  {tokenID : String}

theorem completing_next {op : Op} (hr : (requests steps)[i]? = some (.completePairing (some req)))
    (hrec : Pool.Recorded (Machine.run (interleave srv) (Pool.start w) steps))
    (hnext : nextCall (Machine.run (interleave srv) (Pool.start w) steps) i=some op) :
    Completing (srv.hashSecret req.pairingToken) (req.key srv)
      (Pool.logOf i (Machine.run (interleave srv) (Pool.start w) steps).history) op := by
  unfold nextCall at hnext
  obtain ⟨⟨log,rest⟩,ht,hop⟩:=Option.bind_eq_some_iff.1 hnext
  have hlog:=hrec.log_eq ht
  unfold Thread.next? at hop
  split at hop
  · next op' k hrest =>
    obtain rfl : op'=op := by simpa using hop
    obtain rfl : rest=some (.call op' k) := hrest
    have hhere:=obeys_rest hr ht (handle_completing srv req)
    rw [← hlog]
    exact hhere.1
  · cases hop

theorem spent_history {history : List (ℕ × Event)} {pairID : String} (h : Tokens w history)
    (hs : Spent tokenID (Pool.logOf i history) pairID) :
    ∃ e,(i,e)∈history ∧ spentBy e=some (tokenID,pairID) := by
  obtain ⟨pt,t,hpt,hspent⟩:=hs
  have hid:=h.read i tokenID pt hpt
  refine ⟨_,Pool.mem_logOf.1 hspent,?_⟩
  rw [← hid]
  rfl

theorem spent_of_pairsPhone {st : Requests} {a : Answer} {op : Op} {pub : E2ee.Bytes}
    (hnext : nextCall st i=some op) (hguard : freshDevice st (.call i a)=true)
    (hok : Completing tokenID pub (Pool.logOf i st.history) op)
    (hpairs : pairsPhone st.world.store op=true) :
    ∃ pairID,Spent tokenID (Pool.logOf i st.history) pairID := by
  cases op with
  | store sop =>
    cases sop with
    | createPairingWithinCapacity p maxPairs => exact ⟨_,hok.1⟩
    | updatePairingDevices pairID mobileID desktopID => exact ⟨_,hok.1⟩
    | putPairCredential c => exact ⟨_,hok⟩
    | upsertDevice d =>
      rcases hok.2 with ⟨hdrawn,hstored⟩ | hspent
      · -- the request registers the phone, so there is no such device yet
        have hreg : registering (Pool.logOf i st.history) d=true :=
          registering_iff.2 ⟨hdrawn,hstored⟩
        unfold registering at hreg
        simp only [pairsPhone] at hpairs
        simp only [freshDevice,hnext,hreg,Bool.not_true,Bool.false_or,
          Option.isNone_iff_eq_none] at hguard
        rw [hguard] at hpairs
        cases hpairs
      · exact hspent
    | _ => cases hpairs
  | _ => cases hpairs

theorem spent_of_pairs (hpresents : Presents srv steps tokenID i req)
    (hsteps : Machine.Guarded (interleave srv)
      (fun st x => (dated st x && freshDevice st x)=true) (Pool.start w) steps)
    (hpairs : Pairs srv w steps i) :
    ∃ e pairID,(i,e)∈(Machine.run (interleave srv) (Pool.start w) steps).history ∧
      spentBy e=some (tokenID,pairID) := by
  obtain ⟨pre,a,post,op,rfl,hnext,hpairs⟩:=hpairs
  obtain ⟨hr,rfl⟩:=hpresents
  obtain ⟨hpre,hhere,-⟩:=(Machine.guarded_append ..).1 hsteps
  have hrun:=tokens_run hpre
  have ht : ∃ t,(Machine.run (interleave srv) (Pool.start w) pre).threads[i]? = some t := by
    unfold nextCall at hnext
    obtain ⟨t,ht,-⟩:=Option.bind_eq_some_iff.1 hnext
    exact ⟨t,ht⟩
  obtain ⟨t,ht⟩:=ht
  have hok:=completing_next (requests_of_append hr ht) hrun.recorded hnext
  simp only [Bool.and_eq_true] at hhere
  obtain ⟨pairID,hspent⟩:=spent_of_pairsPhone hnext hhere.2 hok hpairs
  obtain ⟨e,he,hs⟩:=spent_history hrun.inv hspent
  refine ⟨e,pairID,?_,hs⟩
  rw [Machine.run_append]
  exact (history_run srv _ _).subset he

theorem spent_of_answered {resp : CompletePairingResp} (hpresents : Presents srv steps tokenID i req)
    (hrun : Pool.Recorded (Machine.run (interleave srv) (Pool.start w) steps))
    (htokens : Tokens (Machine.run (interleave srv) (Pool.start w) steps).world
      (Machine.run (interleave srv) (Pool.start w) steps).history)
    (h : Answered srv (Machine.run (interleave srv) (Pool.start w) steps) i req (.ok resp)) :
    ∃ e,(i,e)∈(Machine.run (interleave srv) (Pool.start w) steps).history ∧
      spentBy e=some (tokenID,resp.pairID) := by
  obtain ⟨t,ht,hret⟩:=h
  obtain ⟨-,rfl⟩:=hpresents
  have hdone:=hret.obeys (handleCompletePairing_completing srv req)
  simp only [List.reverse_reverse,List.append_nil] at hdone
  rw [hrun.log_eq ht] at hdone
  exact spent_history htokens hdone.1

end Run

/-- All requests in any order, with failing calls and crashes: of the completions
that present one token, at most one is answered with a pair or makes a call that
pairs a phone, and the pair it is answered with is the one stored with the token. -/
theorem pairing_token_single_use (srv : Service) (w : World) (steps : List Step)
    (hsteps : Machine.Guarded (interleave srv)
      (fun st x => (dated st x && freshDevice st x) = true) (Pool.start w) steps)
    (tokenID : String) :
    let st := Machine.run (interleave srv) (Pool.start w) steps
    (∀ i j req req', Presents srv steps tokenID i req → Presents srv steps tokenID j req' →
        ((∃ resp, Answered srv st i req (.ok resp)) ∨ Pairs srv w steps i) →
        ((∃ resp, Answered srv st j req' (.ok resp)) ∨ Pairs srv w steps j) → i=j) ∧
      ∀ i req resp, Presents srv steps tokenID i req → Answered srv st i req (.ok resp) →
        ∃ pt, st.world.store.pairingTokens.get tokenID = some pt ∧
          pt.resultPairID = resp.pairID := by
  intro st
  have hrun := tokens_run hsteps
  have hspent (i : ℕ) (req : CompletePairingReq) (hp : Presents srv steps tokenID i req)
      (h : (∃ resp, Answered srv st i req (.ok resp)) ∨ Pairs srv w steps i) :
      ∃ e pairID, (i,e) ∈ st.history ∧ spentBy e = some (tokenID,pairID) := by
    rcases h with ⟨resp,hans⟩ | hpairs
    · obtain ⟨e,he,hs⟩ := spent_of_answered hp hrun.recorded hrun.inv hans
      exact ⟨e,_,he,hs⟩
    · exact spent_of_pairs hp hsteps hpairs
  constructor
  · intro i j req req' hi hj hacts hacts'
    obtain ⟨e,pairID,he,hs⟩ := hspent i req hi hacts
    obtain ⟨e',pairID',he',hs'⟩ := hspent j req' hj hacts'
    exact hrun.inv.once i j e e' tokenID pairID pairID' he he' hs hs'
  · intro i req resp hi hans
    obtain ⟨e,he,hs⟩ := spent_of_answered hi hrun.recorded hrun.inv hans
    obtain ⟨pt,hget,-,hpair⟩ := hrun.inv.recorded i e tokenID resp.pairID he hs
    exact ⟨pt,hget,hpair⟩

/- Two phones present one token; the second starts its calls when the first is about
to consume the token. -/
def tokenRace : List Step :=
  desktopSetUp sampleSubscription ++
    [.start (.completePairing (some { pairingToken := "pt_p", mobilePublicKey := "AQ==" })),
      .start (.completePairing (some { pairingToken := "pt_p", mobilePublicKey := "AQ=" }))] ++
    calls 16 5 "m" ++ calls 22 6 "n"

theorem pairing_token_single_use_race :
    Pairs sampleService {} (tokenRace ++ calls 8 6 "n" ++ calls 30 5 "m") 6 ∧
      ¬ Pairs sampleService {} (tokenRace ++ calls 8 6 "n" ++ calls 30 5 "m") 5 := by
  have hsecond : Pairs sampleService {} (tokenRace ++ calls 8 6 "n" ++ calls 30 5 "m") 6 := by
    have hop : ((nextCall (Machine.run (interleave sampleService) (Pool.start {}) tokenRace) 6).any
        fun op => pairsPhone (Machine.run (interleave sampleService) (Pool.start {})
          tokenRace).world.store op) = true := by decide +kernel
    obtain ⟨op,hnext,hpairs⟩ := (Option.any_eq_true _ _).1 hop
    refine ⟨tokenRace,{ elapsed := 1, fresh := "n" },calls 7 6 "n" ++ calls 30 5 "m",op,?_,
      hnext,hpairs⟩
    rw [List.append_assoc]
    rfl
  refine ⟨hsecond,fun hfirst => ?_⟩
  have hsame := (pairing_token_single_use sampleService {}
    (tokenRace ++ calls 8 6 "n" ++ calls 30 5 "m") (by decide +kernel) "#pt_p").1 5 6 _ _
    ⟨rfl,rfl⟩ ⟨rfl,rfl⟩ (.inr hfirst) (.inr hsecond)
  exact absurd hsame (by decide)

end SecureGateway.Auth
