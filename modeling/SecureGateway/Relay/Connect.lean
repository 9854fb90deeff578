import SecureGateway.Lib.Pool
import SecureGateway.Relay.BanTracker
import SecureGateway.Relay.KeyedLimiter
import SecureGateway.Relay.Refresh

/-!
# Admission (`connect.go`, `server.go`, `httpsec.go`)

`handleConnect`, `sweepLimiters` and `Drain` as programs that run at once; a call is a lock
section of the tracker or the limiter, a load of the flag, or work of another component. The
clock of the server moves on with every call. A session reports at most one violation,
because `readPump` returns after it.
-/

namespace SecureGateway.Relay.Connect
open Prog RateLimit Token

/- `splitHost` is the host of `net.SplitHostPort`, or `none` for its error. Limiter and
tracker are made if `RateLimitEnabled`. -/
structure Server (Env : Type) where
  verifier : Verifier Env
  splitHost : String → Option String
  trustProxy : Bool
  rateLimitEnabled : Bool

structure HttpRequest where
  remoteAddr : String
  forwardedFor : String
  auth : Refresh.ConnectReq

inductive Response
  | serverDraining
  | tooManyRequests (retryAfter : ℤ)
  | rejected (ae : AuthError)
  deriving DecidableEq

deriving instance DecidableEq for Claims

inductive Op
  | draining
  | banned (ip : String)
  | allow (ip : String)
  | verify (rawToken : String)
  /- `Accept` and `Register` -/
  | upgrade (claims : Claims)
  /- `Serve`, up to the end of the read pump -/
  | serve
  | strike (ip : String)
  | sweepLimiter
  | sweepBans
  | drain
  | respond (r : Response)
  deriving DecidableEq

abbrev Op.Rep : Op → Type
  | .draining | .allow _ | .upgrade _ | .serve | .strike _ => Bool
  | .banned _ => Bool × ℤ
  | .verify _ => Except AuthError Claims
  | .sweepLimiter | .sweepBans | .drain | .respond _ => Unit

abbrev Handler (α : Type) := Prog Op Op.Rep α

abbrev ask (op : Op) : Handler op.Rep := perform op

variable {Env : Type} (srv : Server Env)

def clientIP (r : HttpRequest) : String :=
  let first := GoStrings.trimSpace (String.ofList (r.forwardedFor.toList.takeWhile (· ≠ ',')))
  if srv.trustProxy ∧ r.forwardedFor ≠ "" ∧ first ≠ "" then first
  else (srv.splitHost r.remoteAddr).getD r.remoteAddr

/- The header that `reject429` sets. -/
def retryAfter (retry : ℤ) : ℤ :=
  let secs := retry.tdiv second
  if retry.tmod second ≠ 0 ∨ secs<1 then secs + 1 else secs

/- The session of the upgraded connection, with its violation hook. -/
def serve (ip : String) : Handler Unit := do
  if ← ask .serve then
    if srv.rateLimitEnabled then let _ ← ask (.strike ip)

def authenticate (ip : String) (r : HttpRequest) : Handler Unit :=
  match Refresh.bearerToken r.auth with
  | .error reason => ask (.respond (.rejected (unauthorized reason)))
  | .ok raw => do
    match ← ask (.verify raw) with
    | .error ae => ask (.respond (.rejected ae))
    | .ok claims => if ← ask (.upgrade claims) then serve srv ip

def handleConnect (r : HttpRequest) : Handler Unit := do
  if ← ask .draining then ask (.respond .serverDraining)
  else if srv.rateLimitEnabled then
    let ip := clientIP srv r
    let ban ← ask (.banned ip)
    if ban.1 then ask (.respond (.tooManyRequests (retryAfter ban.2)))
    else if ← ask (.allow ip) then authenticate srv ip r
    else ask (.respond (.tooManyRequests (retryAfter second)))
  else authenticate srv "" r

inductive Request
  | connect (r : HttpRequest)
  /- one tick of `sweepLimiters` -/
  | sweep
  | drain

def handle : Request → Handler Unit
  | .connect r => handleConnect srv r
  | .sweep => do ask .sweepLimiter; ask .sweepBans
  | .drain => ask .drain

structure World where
  clock : ℤ
  draining : Bool
  bans : BanTracker
  ipLimiter : KeyedLimiter

/- The time before a call, that between the two readings of an `Allow`, what the verifier
sees, and what the upgrade and the session come to. -/
structure Answer (Env : Type) where
  elapsed : ℕ
  lag : ℕ
  env : Env
  upgraded : Bool
  violation : Bool

def World.wait (w : World) (d : ℕ) : World := { w with clock := w.clock + d }

def call (a : Answer Env) (op : Op) (w : World) : op.Rep × World :=
  let w := w.wait a.elapsed
  match op with
  | .draining => (w.draining,w)
  | .banned ip => (w.bans.banned w.clock ip,w)
  | .allow ip =>
    let x := w.ipLimiter.allow ip w.clock (w.clock + a.lag)
    (x.1,{ w.wait a.lag with ipLimiter := x.2 })
  | .verify raw => (srv.verifier.verify a.env raw,w)
  | .upgrade _ => (a.upgraded,w)
  | .serve => (a.violation,w)
  | .strike ip => ((w.bans.strike w.clock ip).1,{ w with bans := (w.bans.strike w.clock ip).2 })
  | .sweepLimiter => ((),{ w with ipLimiter := w.ipLimiter.sweep (10 * minute) w.clock })
  | .sweepBans => ((),{ w with bans := w.bans.sweep w.clock })
  | .drain => ((),{ w with draining := true })
  | .respond _ => ((),w)

abbrev Requests := Pool Op Op.Rep World

abbrev Step (Env : Type) := Pool.Act Request (Answer Env)

def next (st : Requests) (x : Step Env) : Requests := Pool.act (call srv) (handle srv) st x

abbrev Event := Prog.Event Op Op.Rep

/- The answers that refuse a request, with what the client is told. -/
def refusal : Event → Option Response
  | ⟨.draining,true⟩ => some .serverDraining
  | ⟨.banned _,(true,retry)⟩ => some (.tooManyRequests (retryAfter retry))
  | ⟨.allow _,false⟩ => some (.tooManyRequests (retryAfter second))
  | ⟨.verify _,.error ae⟩ => some (.rejected ae)
  | _ => none

/- A refused request only answers. -/
def Permitted (log : List Event) (op : Op) : Prop := ∀ e ∈ log, ∀ r ∈ refusal e, op = .respond r

def Answered (log : List Event) : Prop :=
  ∀ e ∈ log, ∀ r ∈ refusal e, (⟨.respond r,()⟩ : Event) ∈ log

abbrev Conducts (log : List Event) (p : Handler Unit) : Prop :=
  Obeys Permitted (fun _ l => Answered l) log p

variable {srv} {log : List Event} {e : Event} {r : Response}

/- No answer has refused the request. -/
def Clear (log : List Event) : Prop := ∀ e ∈ log, refusal e = none

theorem Clear.cons (h : Clear log) (he : refusal e=none) : Clear (e::log) :=
  List.forall_mem_cons.2 ⟨he,h⟩

theorem Clear.not_refused (h : Clear log) (he : e∈log) (hr : r∈refusal e) : False := by
  rw [h e he] at hr
  cases hr

theorem Clear.answered (h : Clear log) : Answered log := fun _ he _ hr => (h.not_refused he hr).elim

theorem Clear.permitted {op : Op} (h : Clear log) : Permitted log op :=
  fun _ he _ hr => (h.not_refused he hr).elim

theorem Clear.refused (h : Clear log) (he : refusal e=some r) :
    Conducts (e::log) (ask (.respond r)) := by
  have honly : ∀ e'∈e::log,∀ r'∈refusal e',r'=r := by
    intro e' he' r' hr'
    rcases List.mem_cons.1 he' with rfl | he'
    · exact Option.some.inj (hr'.symm.trans he)
    · exact (h.not_refused he' hr').elim
  refine ⟨fun e' he' r' hr' => by rw [honly e' he' r' hr'],fun _ e' he' r' hr' => ?_⟩
  rcases List.mem_cons.1 he' with rfl | he'
  · cases hr'
  · exact honly e' he' r' hr' ▸ List.mem_cons_self

theorem serve_conducts (ip : String) (h : Clear log) : Conducts log (serve srv ip) := by
  refine obeys_step h.permitted fun violation => ?_
  have h:=h.cons (e := ⟨.serve,violation⟩) rfl
  refine obeys_ite (fun _ => obeys_ite (fun _ => ?_) fun _ => h.answered) fun _ => h.answered
  exact obeys_step h.permitted fun _ => (h.cons rfl).answered

theorem authenticate_conducts (ip : String) (req : HttpRequest) (h : Clear log) :
    Conducts log (authenticate srv ip req) := by
  unfold authenticate
  split
  · exact ⟨h.permitted,fun _ => (h.cons rfl).answered⟩
  next raw _ =>
  refine obeys_step h.permitted fun verdict => ?_
  cases verdict with
  | error ae => exact h.refused rfl
  | ok claims =>
    have h:=h.cons (e := ⟨.verify raw,.ok claims⟩) rfl
    refine obeys_step h.permitted fun upgraded => ?_
    have h:=h.cons (e := ⟨.upgrade claims,upgraded⟩) rfl
    exact obeys_ite (fun _ => serve_conducts ip h) fun _ => h.answered

theorem handleConnect_conducts (req : HttpRequest) : Conducts [] (handleConnect srv req) := by
  have hnil : Clear [] := nofun
  refine obeys_step hnil.permitted fun draining => obeys_ite (fun hd => ?_) fun hd => ?_
  · subst hd
    exact hnil.refused rfl
  obtain rfl := Bool.eq_false_iff.2 hd
  have h:=hnil.cons (e := ⟨.draining,false⟩) rfl
  refine obeys_ite (fun _ => ?_) fun _ => authenticate_conducts "" req h
  refine obeys_step h.permitted fun ⟨ban,retry⟩ => obeys_ite (fun hb => ?_) fun hb => ?_
  · cases hb
    exact h.refused rfl
  obtain rfl := Bool.eq_false_iff.2 hb
  have h:=h.cons (e := ⟨.banned (clientIP srv req),(false,retry)⟩) rfl
  refine obeys_step h.permitted fun ok => obeys_ite (fun hok => ?_) fun hok => ?_
  · subst hok
    exact authenticate_conducts _ req (h.cons rfl)
  · obtain rfl := Bool.eq_false_iff.2 hok
    exact h.refused rfl

theorem handle_conducts (q : Request) : Conducts [] (handle srv q) := by
  have hnil : Clear [] := nofun
  cases q with
  | connect req => exact handleConnect_conducts req
  | sweep =>
    refine obeys_step hnil.permitted fun _ => ?_
    have h:=hnil.cons (e := ⟨.sweepLimiter,()⟩) rfl
    exact ⟨h.permitted,fun _ => (h.cons rfl).answered⟩
  | drain => exact ⟨hnil.permitted,fun _ => (hnil.cons rfl).answered⟩

/- The tracker keeps the address out until `deadline`. -/
def Held (ip : String) (deadline : ℤ) (b : BanTracker) : Prop :=
  ∃ e, b.entries.get ip = some e ∧ deadline ≤ e.bannedUntil

section Tracker
variable {b : BanTracker} {ip : String} {now deadline : ℤ}

theorem Held.strike (h : Held ip deadline b) (hb : b.disabled=false)
    (hdeadline : deadline≤now+b.banWindow) (key : String) :
    Held ip deadline (b.strike now key).2 := by
  obtain ⟨e,he,hle⟩:=h
  rw [Held,BanTracker.get_strike hb]
  split
  · next hkey =>
    subst hkey
    refine ⟨_,rfl,?_⟩
    have hopened : (b.opened now key (b.entries.get key)).bannedUntil=e.bannedUntil := by
      rw [he]
      simp only [BanTracker.opened,Option.getD_some]
      split <;> rfl
    unfold BanTracker.counted
    split
    · exact hdeadline
    · exact hopened ▸ hle
  · exact ⟨e,he,hle⟩

theorem Held.sweep (h : Held ip deadline b) (hnow : now<deadline) :
    Held ip deadline (b.sweep now) := by
  obtain ⟨e,he,hle⟩:=h
  unfold BanTracker.sweep
  split
  · exact ⟨e,he,hle⟩
  · exact ⟨e,by simp [he,hnow.trans_le hle],hle⟩

theorem Held.banned (h : Held ip deadline b) (hb : b.disabled=false) (hnow : now<deadline)
    (hspan : deadline - now<2 ^ 63) :
    ∃ retry,b.banned now ip=(true,retry) ∧ deadline≤now+retry := by
  obtain ⟨e,he,hle⟩:=h
  have hstands : now<e.bannedUntil := hnow.trans_le hle
  refine ⟨sub e.bannedUntil now,by simp [BanTracker.banned,hb,he,hstands],?_⟩
  unfold sub
  omega

theorem le_retryAfter {retry : ℤ} (h : 0≤retry) : retry≤retryAfter retry*second := by
  have hdiv:=Int.tdiv_mul_add_tmod retry second
  have hlt:=Int.tmod_lt_of_pos retry (show 0<second by decide)
  have hnn:=Int.tmod_nonneg second h
  simp only [retryAfter]
  split
  · rw [add_mul]
    omega
  · omega

/-- A ban stands until `deadline`, which is at most a whole ban away. -/
structure InForce (ip : String) (deadline now : ℤ) (b : BanTracker) : Prop where
  enabled : b.disabled=false
  window : b.banWindow < 2 ^ 63
  soon : deadline ≤ now + b.banWindow
  held : now<deadline → Held ip deadline b

theorem inForce_of_strike (hwindow : b.banWindow<2 ^ 63) (h : (b.strike now ip).1=true) :
    InForce ip (now+b.banWindow) now (b.strike now ip).2 := by
  have hb : b.disabled=false := Bool.eq_false_iff.2 fun hd => by simp [BanTracker.strike,hd] at h
  have hheld : Held ip (now+b.banWindow) (b.strike now ip).2 := by
    refine ⟨_,by rw [BanTracker.get_strike hb,if_pos rfl],?_⟩
    rw [BanTracker.strike_eq hb] at h
    unfold BanTracker.counted at h ⊢
    split at h
    · next hban => rw [if_pos hban]
    · cases h
  rw [BanTracker.strike_eq hb] at hheld ⊢
  exact ⟨hb,hwindow,le_rfl,fun _ => hheld⟩

theorem InForce.later (h : InForce ip deadline now b) (n : ℕ) : InForce ip deadline (now+n) b :=
  ⟨h.enabled,h.window,by have := h.soon; omega,fun hlt => h.held (by omega)⟩

theorem InForce.strike (h : InForce ip deadline now b) (key : String) :
    InForce ip deadline now (b.strike now key).2 := by
  have hheld:=fun hlt => (h.held hlt).strike h.enabled h.soon key
  rw [BanTracker.strike_eq h.enabled] at hheld ⊢
  exact ⟨h.enabled,h.window,h.soon,hheld⟩

theorem InForce.sweep (h : InForce ip deadline now b) : InForce ip deadline now (b.sweep now) := by
  have hheld:=fun hlt => (h.held hlt).sweep hlt
  simp only [BanTracker.sweep,h.enabled] at hheld ⊢
  exact ⟨h.enabled,h.window,h.soon,hheld⟩

end Tracker

variable {w : World} {a : Answer Env} {ip : String}

theorem InForce.call {deadline : ℤ} (h : InForce ip deadline w.clock w.bans) (a : Answer Env)
    (op : Op) : InForce ip deadline (call srv a op w).2.clock (call srv a op w).2.bans := by
  have hnow:=h.later a.elapsed
  cases op with
  | strike key => exact hnow.strike key
  | sweepBans => exact hnow.sweep
  | allow key => exact hnow.later a.lag
  | _ => exact hnow

/- The state after these steps of a server that starts as `w`. -/
def after (srv : Server Env) (w : World) (xs : List (Step Env)) : Requests :=
  Machine.run (next srv) (Pool.start w) xs

theorem after_append (xs ys : List (Step Env)) :
    after srv w (xs++ys)=Machine.run (next srv) (after srv w xs) ys := by
  simp only [after,Machine.run_append]

theorem ledger_after (srv : Server Env) (w : World) (xs : List (Step Env)) :
    Pool.Ledger Permitted Answered (fun _ _ => True) (after srv w xs) :=
  Pool.ledger_acts _ _ handle_conducts (fun _ _ _ _ _ _ _ => trivial) (Pool.ledger_start trivial) xs

/-- Once an answer has refused a request, the request tells the client and does nothing
else. -/
theorem refused_only_answers {xs ys : List (Step Env)} {j : ℕ} {t : Thread Op Op.Rep}
    (he : (j,e)∈(after srv w xs).history) (hr : refusal e=some r)
    (ht : (after srv w (xs++ys)).threads[j]? = some t) :
    (∀ op,t.next? = some op → op = .respond r) ∧
      (t.returned=true → (⟨.respond r,()⟩ : Event)∈t.log) := by
  have hl:=ledger_after srv w (xs++ys)
  have hmem : e∈t.log := by
    rw [hl.recorded.log_eq ht,Pool.mem_logOf,after_append]
    exact (Pool.history_acts _ _ _ ys).subset he
  obtain ⟨log,_ | ⟨_ | ⟨op,k⟩⟩⟩:=t
  · exact ⟨nofun,nofun⟩
  · exact ⟨nofun,fun _ => hl.disciplined j log _ ht e hmem r hr⟩
  · refine ⟨fun op' h => ?_,nofun⟩
    cases h
    exact hl.disciplined.permits ht e hmem r hr

theorem after_call {xs : List (Step Env)} {i : ℕ} {op : Op}
    (hnext : Pool.upNext (after srv w xs) i=some op) (a : Answer Env) :
    (after srv w (xs ++ [.call i a])).world=(call srv a op (after srv w xs).world).2 ∧
      (i,⟨op,(call srv a op (after srv w xs).world).1⟩) ∈
        (after srv w (xs ++ [.call i a])).history := by
  obtain ⟨hworld,hhistory⟩:=Pool.act_call (call srv) (handle srv) hnext a
  rw [after_append]
  exact ⟨hworld,hhistory ▸ List.mem_cons_self⟩

/-- From the strike that bans an address to the end of the ban, every request of the address
that comes to the tracker is told to come back after the ban, and nothing else happens to it. -/
theorem banned_turned_away (srv : Server Env) (w : World) (xs ys zs : List (Step Env)) (i j : ℕ)
    (a b : Answer Env) (ip : String) (deadline : ℤ)
    (hstrike : Pool.upNext (after srv w xs) i=some (.strike ip))
    (hban : (call srv a (.strike ip) (after srv w xs).world).1=true)
    (hwindow : (after srv w xs).world.bans.banWindow<2 ^ 63)
    (hdeadline : deadline=(after srv w xs).world.clock+a.elapsed +
      (after srv w xs).world.bans.banWindow)
    (hnext : Pool.upNext (after srv w (xs ++ [.call i a]++ys)) j=some (.banned ip))
    (hnow : (after srv w (xs ++ [.call i a]++ys)).world.clock+b.elapsed<deadline)
    (t : Thread Op Op.Rep)
    (ht : (after srv w (xs ++ [.call i a]++ys ++ [.call j b]++zs)).threads[j]? = some t) :
    ∃ secs,deadline ≤
        (after srv w (xs ++ [.call i a]++ys)).world.clock+b.elapsed+secs*second ∧
      (∀ op,t.next? = some op → op = .respond (.tooManyRequests secs)) ∧
      (t.returned=true → (⟨.respond (.tooManyRequests secs),()⟩ : Event)∈t.log) := by
  have hlater : InForce ip deadline (after srv w (xs ++ [.call i a]++ys)).world.clock
      (after srv w (xs ++ [.call i a]++ys)).world.bans := by
    rw [after_append]
    refine Pool.world_acts (call srv) (handle srv) (fun w => InForce ip deadline w.clock w.bans)
      (fun _ a op h => h.call a op) ?_ ys
    rw [(after_call hstrike a).1,hdeadline]
    exact inForce_of_strike hwindow hban
  have hhere:=hlater.later b.elapsed
  have hsoon:=hhere.soon
  have hwin:=hhere.window
  obtain ⟨retry,hretry,hspan⟩:=(hhere.held hnow).banned hhere.enabled hnow (by omega)
  refine ⟨retryAfter retry,?_,refused_only_answers (after_call hnext b).2 ?_ ht⟩
  · have hle : retry≤retryAfter retry*second := le_retryAfter (by omega)
    omega
  · show refusal ⟨.banned ip,BanTracker.banned _ _ ip⟩ = _
    exact hretry ▸ rfl

/- A server that accepts every token. -/
def sampleServer : Server Unit where
  verifier :=
    { parse := fun _ _ => .ok (⟨some 1,"acct_a","pair_a","dev_a","mobile","lic_a"⟩,true)
      expires := by rintro _ _ _ _ h; cases h; simp }
  splitHost := some
  trustProxy := false
  rateLimitEnabled := true

def sampleWorld : World := ⟨1,false,newBanTracker 1 (60*second) (90*second),newKeyedLimiter 120 60⟩

def sampleConnect : Step Unit := .start (.connect ⟨"ip","",⟨false,"Bearer t"⟩⟩)

def calls (n i : ℕ) : List (Step Unit) := List.replicate n (.call i ⟨1,0,(),true,true⟩)

theorem banned_turned_away_once :
    ∃ t secs,(after sampleServer sampleWorld (sampleConnect::calls 6 0++calls 1 0 ++
        (sampleConnect::calls 1 1)++calls 1 1++calls 1 1)).threads[1]? = some t ∧
      (t.returned=true → (⟨.respond (.tooManyRequests secs),()⟩ : Event)∈t.log) := by
  have hsome : (after sampleServer sampleWorld (sampleConnect::calls 6 0++calls 1 0 ++
      (sampleConnect::calls 1 1)++calls 1 1++calls 1 1)).threads[1]?.isSome=true := by
    decide +kernel
  obtain ⟨t,ht⟩:=Option.isSome_iff_exists.1 hsome
  obtain ⟨secs,-,-,hdone⟩:=banned_turned_away sampleServer sampleWorld (sampleConnect::calls 6 0)
    (sampleConnect::calls 1 1) (calls 1 1) 0 1 ⟨1,0,(),true,true⟩ ⟨1,0,(),true,true⟩ "ip"
    (8+90*second) (by decide +kernel) (by decide +kernel) (by decide +kernel) (by decide +kernel)
    (by decide +kernel) (by decide +kernel) t ht
  exact ⟨t,secs,ht,hdone⟩

end SecureGateway.Relay.Connect
