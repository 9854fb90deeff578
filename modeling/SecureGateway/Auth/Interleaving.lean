import SecureGateway.Auth.Obedience
import SecureGateway.Lib.Pool

/-!
# Concurrent requests

Any number of requests over one store, each call atomic: a step starts a
request, lets one make its next call, or kills one between two calls.
-/

namespace SecureGateway.Auth
open Authstore Prog

abbrev Requests := Pool Op Op.Rep World

inductive Step
  | start (r : Request)
  | call (i : ℕ) (a : Answer)
  | crash (i : ℕ)

def Step.pool (srv : Service) : Step → Pool.Step Op Op.Rep Answer
  | .start r => .spawn (handle srv r)
  | .call i a => .exec i a
  | .crash i => .kill i

def interleave (srv : Service) (st : Requests) (x : Step) : Requests :=
  Pool.next perform st (x.pool srv)

variable {srv : Service} {ok : List Event → Op → Prop} {post : List Event → Prop}

theorem disciplined_interleave (st : Requests) (x : Step) (hd : Pool.Disciplined ok post st)
    (hx : ∀ r,x = .start r → Obeys ok (fun _ l => post l) [] (handle srv r)) :
    Pool.Disciplined ok post (interleave srv st x) := by
  refine Pool.disciplined_next perform ok post st (x.pool srv) hd ?_
  cases x with
  | start r => exact hx r rfl
  | call i a => trivial
  | crash i => trivial

def nextCall (st : Requests) (i : ℕ) : Option Op := st.threads[i]?.bind Thread.next?

/- No reading of the clock is `t`. -/
def neverReads (t : Time) (st : Requests) : Step → Bool
  | .call i a =>
    match nextCall st i with
    | some .now => st.world.clock + a.elapsed != t
    | _ => true
  | _ => true

variable (inv : World → List (ℕ × Event) → Prop) {st : Requests} {steps : List Step}
  (guard : Requests → Step → Prop) {w : World} {i : ℕ}

theorem nextCall_eq {log : List Event} {op : Op} {k : op.Rep → Handler Unit}
    (ht : st.threads[i]? = some ⟨log,some (.call op k)⟩) : nextCall st i=some op := by
  simp [nextCall,ht,Thread.next?]

theorem saw_called {i j : ℕ} {a : Answer} {op : Op} {history : List (ℕ × Event)} {sop : StoreOp}
    {x : sop.Out} (h : Saw (Pool.logOf i ((j,⟨op,(perform a op w).1⟩)::history)) sop (.ok x)) :
    (j=i ∧ op = .store sop ∧ (w.store.exec ⟨w.clock,a.ties⟩ sop).1 = .ok x) ∨
      Saw (Pool.logOf i history) sop (.ok x) := by
  by_cases hij : j=i
  · subst hij
    rw [Pool.logOf_cons_self] at h
    exact (saw_perform h).imp_left fun ⟨hop,hexec⟩ => ⟨rfl,hop,hexec⟩
  · rw [Pool.logOf_cons_ne hij] at h
    exact .inr h

theorem device_called {a : Answer} {op : Op} {history : List (ℕ × Event)}
    (h : ∀ j id dev,Saw (Pool.logOf j history) (.getDevice id) (.ok dev) → dev.id=id) (j : ℕ)
    (id : String) (dev : Device)
    (hsaw : Saw (Pool.logOf j ((i,⟨op,(perform a op w).1⟩)::history)) (.getDevice id) (.ok dev)) :
    dev.id=id := by
  rcases saw_called hsaw with ⟨-,rfl,hexec⟩ | hold
  · have hget : w.store.devices.get id=some dev := by simpa [Store.exec] using hexec
    exact Table.key_of_get hget
  · exact h j id dev hold

def requests (steps : List Step) : List Request :=
  steps.filterMap fun x => match x with
    | .start r => some r
    | _ => none

theorem follows_run (srv : Service) (st : Requests) (progs : List (Handler Unit))
    (hf : Pool.Follows progs st) (steps : List Step) :
    Pool.Follows (progs++(requests steps).map (handle srv))
      (Machine.run (interleave srv) st steps) := by
  induction steps generalizing st progs with
  | nil => simpa [requests] using hf
  | cons x steps ih =>
    have hstep:=ih _ _ (Pool.follows_next perform st (x.pool srv) hf)
    have hstarted : progs++(x.pool srv).started++(requests steps).map (handle srv) =
        progs++(requests (x::steps)).map (handle srv) := by
      cases x <;> simp [requests,Step.pool,Pool.Step.started]
    rw [← hstarted]
    exact hstep

theorem returns_of_returned {t : Thread Op Op.Rep} {r : Request}
    (hr : (requests steps)[i]? = some r)
    (ht : (Machine.run (interleave srv) (Pool.start w) steps).threads[i]? = some t)
    (hdone : t.returned=true) : Returns (handle srv r) t.log.reverse () := by
  have hf:=follows_run srv (Pool.start w) [] (Pool.follows_start w) steps
  have hp : ([]++(requests steps).map (handle srv))[i]? = some (handle srv r) := by simp [hr]
  unfold Thread.returned at hdone
  split at hdone
  · next a hrest => exact hf.leads i t _ _ ht hp hrest
  · cases hdone

theorem obeys_rest {r : Request} {log : List Event} {q : Handler Unit}
    {post : Unit → List Event → Prop} (hr : (requests steps)[i]? = some r)
    (ht : (Machine.run (interleave srv) (Pool.start w) steps).threads[i]? = some ⟨log,some q⟩)
    (ho : Obeys ok post [] (handle srv r)) : Obeys ok post log q := by
  have hf:=follows_run srv (Pool.start w) [] (Pool.follows_start w) steps
  have hp : ([]++(requests steps).map (handle srv))[i]? = some (handle srv r) := by simp [hr]
  have hleads:=hf.leads i _ _ q ht hp rfl
  simpa using hleads.obeys ho

theorem requests_of_append {pre post : List Step} {r : Request} {t : Thread Op Op.Rep}
    (hr : (requests (pre++post))[i]? = some r)
    (ht : (Machine.run (interleave srv) (Pool.start w) pre).threads[i]? = some t) :
    (requests pre)[i]? = some r := by
  have hf:=follows_run srv (Pool.start w) [] (Pool.follows_start w) pre
  have hlt : i<(requests pre).length := by
    have hlength:=hf.length
    simp only [List.nil_append,List.length_map] at hlength
    rw [← hlength]
    exact (List.getElem?_eq_some_iff.1 ht).1
  have happend : requests (pre++post)=requests pre++requests post := List.filterMap_append
  rw [happend,List.getElem?_append_left hlt] at hr
  exact hr

theorem history_run (srv : Service) (st : Requests) (steps : List Step) :
    st.history <:+ (Machine.run (interleave srv) st steps).history := by
  induction steps generalizing st with
  | nil => exact List.suffix_rfl
  | cons x steps ih => exact (Pool.history_next perform st (x.pool srv)).trans (ih _)

theorem ledger_interleave {inv : World → List (ℕ × Event) → Prop} {x : Step}
    (hl : Pool.Ledger ok post inv st)
    (hobeys : ∀ r,x = .start r → Obeys ok (fun _ l => post l) [] (handle srv r))
    (step : ∀ i a op,x = .call i a → nextCall st i=some op → ok (Pool.logOf i st.history) op →
      inv (perform a op st.world).2 ((i,⟨op,(perform a op st.world).1⟩)::st.history)) :
    Pool.Ledger ok post inv (interleave srv st x) := by
  refine Pool.ledger_next perform hl ?_ ?_
  · cases x with
    | start r => exact hobeys r rfl
    | call i a => trivial
    | crash i => trivial
  intro i a log op k hx ht hok
  cases x with
  | start r => cases hx
  | call j b =>
    cases hx
    exact step i a op rfl (nextCall_eq ht) hok
  | crash j => cases hx

theorem ledger_run
    (hobeys : ∀ st r,guard st (.start r) → Obeys ok (fun _ l => post l) [] (handle srv r))
    (step : ∀ st i a op,inv st.world st.history → guard st (.call i a) →
      nextCall st i=some op → ok (Pool.logOf i st.history) op →
      inv (perform a op st.world).2 ((i,⟨op,(perform a op st.world).1⟩)::st.history))
    (hl : Pool.Ledger ok post inv st) (hg : Machine.Guarded (interleave srv) guard st steps) :
    Pool.Ledger ok post inv (Machine.run (interleave srv) st steps) := by
  refine Machine.guarded_invariant (interleave srv) guard (Pool.Ledger ok post inv) ?_ st steps hl hg
  intro st x hl hx
  refine ledger_interleave hl (fun r heq => hobeys st r (heq ▸ hx)) fun i a op heq hnext hok => ?_
  subst heq
  exact step st i a op hl.inv hx hnext hok

theorem permitted_run (srv : Service) (inv : World → List (ℕ × Event) → Prop)
    (step : ∀ w history i a op,inv w history →
      Permitted (fun _ => True) false (Pool.logOf i history) op →
      inv (perform a op w).2 ((i,⟨op,(perform a op w).1⟩)::history))
    (hl : Pool.Ledger (Permitted (fun _ => True) false) (fun _ => True) inv st)
    (steps : List Step) :
    Pool.Ledger (Permitted (fun _ => True) false) (fun _ => True) inv
      (Machine.run (interleave srv) st steps) := by
  refine ledger_run inv (fun _ _ => True) (fun _ r _ => handle_obeys (by simp) r fun _ _ => trivial)
    ?_ hl (Machine.guarded_of_forall _ _ st steps fun _ _ _ => trivial)
  intro st i a op h _ _ hok
  exact step st.world st.history i a op h hok

/- `customer.subscription.created` and `customer.subscription.updated` of a new
subscription for one pair, as Stripe sends them nearly at once. -/
def sampleCreated : Request :=
  .webhook (some ⟨"evt_1",.customerSubscriptionCreated (some sampleSubscription)⟩) true
def sampleUpdated : Request :=
  .webhook (some ⟨"evt_2",.customerSubscriptionUpdated (some sampleSubscription)⟩) true

def calls (n i : ℕ) (fresh : String) : List Step :=
  List.replicate n (.call i { elapsed := 1, fresh := fresh })

/- A purchase, the account's secret and desktop `dev_d`, and two pairing tokens
for the desktop on the license `lic_a`. -/
def desktopSetUp (sub : Stripe.Subscription) : List Step :=
  [.start (.webhook (some ⟨"evt_1",.customerSubscriptionCreated (some sub)⟩) true)] ++
    calls 12 0 "a" ++ calls 60 0 "b" ++
    [.start (.createAccount "Bearer root" (some "acct_a"))] ++ calls 10 1 "s" ++
    [.start (.registerDevice "Bearer acct_a.s" (some { role := "desktop", publicKey := "AQ==" }))] ++
    calls 10 2 "d" ++
    [.start (.createPairingToken "Bearer acct_a.s"
      (some { licenseID := "lic_a", desktopDeviceID := "dev_d" })),
    .start (.createPairingToken "Bearer acct_a.s"
      (some { licenseID := "lic_a", desktopDeviceID := "dev_d" }))] ++
    calls 20 3 "p" ++ calls 20 4 "q"

def desktopWorld : World :=
  (Machine.run (interleave sampleService) (Pool.start {}) (desktopSetUp sampleSubscription)).world

def phonesStart : List Step :=
  [.start (.completePairing (some { pairingToken := "pt_p", mobilePublicKey := "AQ==" })),
    .start (.completePairing (some { pairingToken := "pt_q", mobilePublicKey := "AQ=" }))]

def phonesRace (n : ℕ) : List Step :=
  phonesStart ++ calls n 5 "m" ++ calls 30 6 "n" ++ calls 30 5 "m"

def roomySubscription : Stripe.Subscription :=
  { sampleSubscription with metadata := [("max_pairs","2")] }

end SecureGateway.Auth
