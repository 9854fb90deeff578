import SecureGateway.Lib.Machine
import SecureGateway.Relay.Config
import Mathlib.Algebra.Order.Ring.Int

/-!
# The heartbeat that keeps a slot (`session.go`)

A ping blocks the loop of `monitor` until its pong or its timeout; a tick that falls into it
waits in the ticker's channel, which holds one. `validate` asks that the slot live for more
than two intervals, but one interval, the longer of the two durations and a timeout can pass
between two renewals (`slot_outlives_heartbeat`).

Times are in nanoseconds. Renewals succeed and take no time.
-/

namespace SecureGateway.Relay

namespace Config

/- 25 seconds, which stand in for a duration that is not positive. -/
def fallback : Int := 25000000000

def heartbeatInterval (c : Config) : Int :=
  if 0<c.pingInterval then c.pingInterval.toInt else fallback

def pingTimeout (c : Config) : Int :=
  if c.pongTimeout≤0 then fallback else c.pongTimeout.toInt

theorem heartbeatInterval_pos (c : Config) : 0<c.heartbeatInterval := by
  unfold heartbeatInterval fallback
  split
  · next h => simpa using Int64.lt_iff_toInt_lt.1 h
  · decide

theorem pingTimeout_pos (c : Config) : 0<c.pingTimeout := by
  unfold pingTimeout fallback
  split
  · decide
  · next h => simpa using Int64.lt_iff_toInt_lt.1 (Int64.not_le.1 h)

end Config

namespace Heartbeat

inductive Activity
  /- in the `select` -/
  | waiting
  /- in `doPing` -/
  | pinging (since : Int)
  /- `monitor` has returned -/
  | stopped
  deriving DecidableEq, Repr

structure Monitor where
  now : Int
  /- when the ticker fires next, and whether a tick is in its channel -/
  nextTick : Int
  pending : Bool
  activity : Activity
  missed : ℕ
  /- history: when the slot was claimed and renewed, newest first -/
  extended : List Int
  deriving DecidableEq, Repr

inductive Event
  | tick
  /- `case <-ping.C` -/
  | receive
  | pong
  | timeout
  /- `case <-s.refreshed`, and the expiry timer of a token that is still good -/
  | resetExpiry
  /- `case <-s.ctx.Done()`, and the expiry of the token -/
  | leave
  deriving DecidableEq, Repr

structure Occurrence where
  time : Int
  event : Event
  deriving DecidableEq, Repr

/-- The slot is claimed at 0, and `monitor` starts its ticker after `setup`. -/
def Monitor.start (c : Config) (setup : ℕ) : Monitor where
  now := setup
  nextTick := setup + c.heartbeatInterval
  pending := false
  activity := .waiting
  missed := 0
  extended := [0]

def Monitor.step (c : Config) (m : Monitor) : Event → Monitor
  | .tick => { m with pending := true, nextTick := m.nextTick + c.heartbeatInterval }
  | .receive =>
    if m.activity=.waiting ∧ m.pending then
      { m with pending := false, activity := .pinging m.now }
    else m
  | .pong =>
    match m.activity with
    | .pinging _ => { m with activity := .waiting, missed := 0, extended := m.now :: m.extended }
    | _ => m
  | .timeout =>
    match m.activity with
    | .pinging _ =>
      { m with
        missed := m.missed + 1
        activity := if 2 ≤ m.missed + 1 then .stopped else .waiting }
    | _ => m
  | .resetExpiry => m
  | .leave => if m.activity=.waiting then { m with activity := .stopped } else m

def Monitor.next (c : Config) (m : Monitor) (o : Occurrence) : Monitor :=
  { m with now := o.time }.step c o.event

/-- The assumptions about time: the ticker fires when it is due, the loop takes a tick
from the channel at once, and a ping ends within its timeout. No two pings in a row
time out. -/
def punctual (c : Config) (m : Monitor) (o : Occurrence) : Bool :=
  decide (m.now≤o.time) &&
  (if o.event=.tick then decide (o.time=m.nextTick) else decide (o.time ≤ m.nextTick)) &&
  (match m.activity with
    | .waiting => !m.pending || decide (o.time=m.now)
    | .pinging since => decide (o.time ≤ since + c.pingTimeout)
    | .stopped => true) &&
  (o.event != .timeout || m.missed == 0)

def Kept (c : Config) (m : Monitor) : Prop :=
  m.extended.IsChain fun later earlier => later - earlier < c.slotTTL.toInt

instance (c : Config) (m : Monitor) : Decidable (Kept c m) :=
  inferInstanceAs (Decidable (List.IsChain _ _))

/-! ## How long a renewal can take -/

def longest (c : Config) (setup : ℕ) : Int :=
  setup + c.heartbeatInterval + max c.heartbeatInterval c.pingTimeout + c.pingTimeout

def latestPing (c : Config) (setup missed : ℕ) : Int :=
  setup + c.heartbeatInterval +
    if missed=0 then 0 else max c.heartbeatInterval c.pingTimeout

/-- The next ping begins in time: with the pending tick, or with the next one. -/
structure InTime (c : Config) (setup : ℕ) (m : Monitor) : Prop where
  kept : Kept c m
  ticking : m.now ≤ m.nextTick ∧ m.nextTick ≤ m.now + c.heartbeatInterval
  missed : m.missed≤1 ∨ m.activity=.stopped
  due : ∃ last rest, m.extended=last :: rest ∧
    match m.activity with
    | .waiting =>
      if m.pending then m.now ≤ last + latestPing c setup m.missed
      else m.nextTick ≤ last + latestPing c setup m.missed
    | .pinging since =>
      since ≤ m.now ∧ m.now ≤ since + c.pingTimeout ∧
        since ≤ last + latestPing c setup m.missed ∧
        (m.pending=false → m.nextTick ≤ since + c.heartbeatInterval)
    | .stopped => True

theorem inTime_start (c : Config) (setup : ℕ) : InTime c setup (Monitor.start c setup) where
  kept := by simp [Kept,Monitor.start]
  ticking := by
    have := c.heartbeatInterval_pos
    simp only [Monitor.start]
    omega
  missed := by simp [Monitor.start]
  due := ⟨0,[],rfl,by simp [Monitor.start,latestPing]⟩

section Step
variable {c : Config} {setup : ℕ} {m : Monitor}

theorem InTime.tick (h : InTime c setup m) {time : Int}
    (hok : punctual c m ⟨time,.tick⟩=true) : InTime c setup (m.next c ⟨time,.tick⟩) := by
  obtain ⟨hkept,hticking,hmissed,last,rest,hlast,hdue⟩:=h
  have hI:=c.heartbeatInterval_pos
  simp only [punctual,Bool.and_eq_true,decide_eq_true_eq,if_true] at hok
  obtain ⟨⟨⟨hforward,htime⟩,hprompt⟩,-⟩:=hok
  simp only [Monitor.next,Monitor.step]
  refine ⟨hkept,by dsimp only; omega,hmissed,last,rest,hlast,?_⟩
  dsimp only
  cases hact : m.activity with
  | waiting =>
    simp only [hact,Bool.or_eq_true,Bool.not_eq_true',decide_eq_true_eq] at hdue hprompt
    simp only [if_true]
    cases hpending : m.pending with
    | true =>
      simp only [hpending,reduceCtorEq,false_or,if_true] at hdue hprompt
      omega
    | false =>
      simp only [hpending,Bool.false_eq_true,if_false] at hdue
      omega
  | pinging since =>
    simp only [hact,decide_eq_true_eq] at hdue hprompt
    exact ⟨by omega,hprompt,hdue.2.2.1,by simp⟩
  | stopped => trivial

theorem InTime.later (h : InTime c setup m) {o : Occurrence} (hok : punctual c m o=true)
    (hevent : o.event≠.tick) : InTime c setup { m with now := o.time } := by
  obtain ⟨hkept,hticking,hmissed,last,rest,hlast,hdue⟩:=h
  simp only [punctual,Bool.and_eq_true,decide_eq_true_eq,hevent,if_false] at hok
  obtain ⟨⟨⟨hforward,htime⟩,hprompt⟩,-⟩:=hok
  refine ⟨hkept,by dsimp only; omega,hmissed,last,rest,hlast,?_⟩
  dsimp only
  cases hact : m.activity with
  | waiting =>
    simp only [hact,Bool.or_eq_true,Bool.not_eq_true',decide_eq_true_eq] at hdue hprompt
    cases hpending : m.pending with
    | true =>
      simp only [hpending,reduceCtorEq,false_or,if_true] at hdue hprompt ⊢
      omega
    | false =>
      simp only [hpending,Bool.false_eq_true,if_false] at hdue ⊢
      exact hdue
  | pinging since =>
    simp only [hact,decide_eq_true_eq] at hdue hprompt
    exact ⟨by omega,hprompt,hdue.2.2⟩
  | stopped => trivial

theorem InTime.receive (h : InTime c setup m) : InTime c setup (m.step c .receive) := by
  simp only [Monitor.step]
  split
  · next hready =>
    obtain ⟨hkept,hticking,hmissed,last,rest,hlast,hdue⟩:=h
    obtain ⟨hact,hpending⟩:=hready
    have hP:=c.pingTimeout_pos
    simp only [hact,hpending,if_true] at hdue
    refine ⟨hkept,hticking,.inl (hmissed.resolve_right (by simp [hact])),last,rest,hlast,?_⟩
    dsimp only
    exact ⟨by omega,by omega,hdue,fun _ => hticking.2⟩
  · exact h

theorem InTime.pong (hlong : longest c setup<c.slotTTL.toInt) (h : InTime c setup m) :
    InTime c setup (m.step c .pong) := by
  simp only [Monitor.step]
  split
  · next since hact =>
    obtain ⟨hkept,hticking,hmissed,last,rest,hlast,hdue⟩:=h
    simp only [hact] at hdue
    obtain ⟨hsince,hend,hbegin,hnotick⟩:=hdue
    have hlatest : latestPing c setup m.missed+c.pingTimeout≤longest c setup := by
      have hP:=c.pingTimeout_pos
      unfold latestPing longest
      split <;> omega
    refine ⟨?_,hticking,.inl (by simp),m.now,m.extended,rfl,?_⟩
    · unfold Kept at hkept ⊢
      rw [hlast] at hkept ⊢
      exact List.IsChain.cons_cons (by omega) hkept
    simp only [latestPing,if_true]
    split
    · have hI:=c.heartbeatInterval_pos
      omega
    · omega
  · exact h

theorem InTime.timeout (h : InTime c setup m) (hmissed : m.missed=0) :
    InTime c setup (m.step c .timeout) := by
  simp only [Monitor.step]
  split
  · next since hact =>
    obtain ⟨hkept,hticking,-,last,rest,hlast,hdue⟩:=h
    simp only [hact,hmissed,latestPing,if_true] at hdue
    obtain ⟨hsince,hend,hbegin,hnotick⟩:=hdue
    refine ⟨hkept,hticking,.inl (by simp [hmissed]),last,rest,hlast,?_⟩
    simp only [hmissed,latestPing]
    cases hpending : m.pending with
    | true =>
      simp only [Nat.zero_add,Nat.reduceLeDiff,if_false,if_true,Nat.one_ne_zero]
      omega
    | false =>
      have hnext:=hnotick hpending
      simp only [Nat.zero_add,Nat.reduceLeDiff,if_false,Nat.one_ne_zero,Bool.false_eq_true]
      omega
  · exact h

theorem InTime.leave (h : InTime c setup m) : InTime c setup (m.step c .leave) := by
  simp only [Monitor.step]
  split
  · obtain ⟨hkept,hticking,-,last,rest,hlast,-⟩:=h
    exact ⟨hkept,hticking,.inr rfl,last,rest,hlast,trivial⟩
  · exact h

theorem InTime.next (hlong : longest c setup<c.slotTTL.toInt) (h : InTime c setup m)
    {o : Occurrence} (hok : punctual c m o=true) : InTime c setup (m.next c o) := by
  obtain ⟨time,event⟩:=o
  by_cases htick : event=.tick
  · subst htick
    exact h.tick hok
  have hlater:=h.later hok htick
  cases event with
  | tick => exact absurd rfl htick
  | receive => exact hlater.receive
  | pong => exact hlater.pong hlong
  | timeout =>
    apply hlater.timeout
    simpa [punctual] using (Bool.and_eq_true_iff.1 hok).2
  | resetExpiry => exact hlater
  | leave => exact hlater.leave

end Step

/-! ## A run that takes that long -/

section Slow
variable {c : Config}

def Reaches (c : Config) (m m' : Monitor) : Prop :=
  ∃ os, Machine.Guarded (Monitor.next c) (fun m o => punctual c m o = true) m os ∧
    Machine.run (Monitor.next c) m os = m'

theorem Reaches.refl (m : Monitor) : Reaches c m m := ⟨[],trivial,rfl⟩

theorem Reaches.next {m m' : Monitor} (h : Reaches c m m') {o : Occurrence}
    (hok : punctual c m' o=true) : Reaches c m (m'.next c o) := by
  obtain ⟨os,hg,rfl⟩:=h
  refine ⟨os ++ [o],?_,?_⟩
  · rw [Machine.guarded_append]
    exact ⟨hg,hok,trivial⟩
  · rw [Machine.run_append]
    rfl

theorem Reaches.wait (n : ℕ) {m m' : Monitor} (h : Reaches c m m') {since stop : Int}
    (hact : m'.activity = .pinging since) (hnow : m'.now ≤ m'.nextTick) (hpast : m'.now ≤ stop)
    (hend : stop ≤ since+c.pingTimeout) (hn : stop < m'.nextTick+n*c.heartbeatInterval) :
    ∃ now nextTick pending,
      Reaches c m { m' with now := now, nextTick := nextTick, pending := pending } ∧
        now ≤ stop ∧ stop<nextTick ∧ (m'.nextTick ≤ stop → pending=true) ∧
        (stop < m'.nextTick → pending=m'.pending ∧ nextTick=m'.nextTick) := by
  have hI:=c.heartbeatInterval_pos
  induction n generalizing m' with
  | zero =>
    rw [Nat.cast_zero,zero_mul,add_zero] at hn
    exact ⟨m'.now,m'.nextTick,m'.pending,h,hpast,hn,fun hle => absurd hn (by omega),
      fun _ => ⟨rfl,rfl⟩⟩
  | succ n ih =>
    by_cases hlate : stop < m'.nextTick
    · exact ⟨m'.now,m'.nextTick,m'.pending,h,hpast,hlate,fun hle => absurd hlate (by omega),
        fun _ => ⟨rfl,rfl⟩⟩
    have hok : punctual c m' ⟨m'.nextTick,.tick⟩=true := by
      simp only [punctual,hact,if_true,decide_true,Bool.and_true,Bool.and_eq_true,
        decide_eq_true_eq]
      exact ⟨⟨hnow,by omega⟩,rfl⟩
    have hleft : stop < m'.nextTick+c.heartbeatInterval+n*c.heartbeatInterval := by
      rw [Nat.cast_succ,add_mul,one_mul] at hn
      omega
    obtain ⟨now,nextTick,pending,hreach,hle,hlt,hmore,hnone⟩ :=
      ih (h.next hok) hact (by simp only [Monitor.next,Monitor.step]; omega)
        (by simp only [Monitor.next,Monitor.step]; omega) hleft
    refine ⟨now,nextTick,pending,hreach,hle,hlt,fun _ => ?_,fun hlt' => absurd hlt' hlate⟩
    by_cases hagain : m'.nextTick+c.heartbeatInterval ≤ stop
    · exact hmore hagain
    · exact (hnone (by simp only [Monitor.next,Monitor.step]; omega)).1

theorem Reaches.ping {m m' : Monitor} (h : Reaches c m m') {since : Int}
    (hact : m'.activity = .pinging since) (hnow : m'.now=since) (htick : since ≤ m'.nextTick) :
    ∃ now nextTick pending,
      Reaches c m { m' with now := now, nextTick := nextTick, pending := pending } ∧
        now ≤ since+c.pingTimeout ∧ since+c.pingTimeout<nextTick ∧
        (m'.nextTick ≤ since+c.pingTimeout → pending=true) ∧
        (since+c.pingTimeout < m'.nextTick → pending=m'.pending ∧ nextTick=m'.nextTick) := by
  have hP:=c.pingTimeout_pos
  have hI:=c.heartbeatInterval_pos
  have hmany : since+c.pingTimeout <
      m'.nextTick+((c.pingTimeout.toNat+1 : ℕ) : Int)*c.heartbeatInterval := by
    have hle : ((c.pingTimeout.toNat+1 : ℕ) : Int) ≤
        ((c.pingTimeout.toNat+1 : ℕ) : Int)*c.heartbeatInterval :=
      le_mul_of_one_le_right (by omega) hI
    omega
  exact h.wait _ hact (by omega) (by omega) (le_refl _) hmany

theorem slow_second_ping (c : Config) (setup : ℕ) :
    ∃ nextTick pending,setup+c.heartbeatInterval +
          max c.heartbeatInterval c.pingTimeout≤nextTick ∧
      Reaches c (Monitor.start c setup)
        { now := setup+c.heartbeatInterval+max c.heartbeatInterval c.pingTimeout
          nextTick := nextTick
          pending := pending
          activity := .pinging (setup+c.heartbeatInterval+max c.heartbeatInterval c.pingTimeout)
          missed := 1
          extended := [0] } := by
  have hP:=c.pingTimeout_pos
  have hI:=c.heartbeatInterval_pos
  have hfirst:=Reaches.refl (c := c) (Monitor.start c setup)
  -- the first tick starts a ping
  have htick:=hfirst.next (o := ⟨setup+c.heartbeatInterval,.tick⟩)
    (by simp [punctual,Monitor.start]; omega)
  have hping:=htick.next (o := ⟨setup+c.heartbeatInterval,.receive⟩)
    (by simp [punctual,Monitor.start,Monitor.next,Monitor.step]; omega)
  simp only [Monitor.next,Monitor.step,Monitor.start,and_self,if_true] at hping
  -- whose pong is missed
  obtain ⟨now,nextTick,pending,hwait,hnow,hnext,hmore,hnone⟩ :=
    hping.ping rfl rfl (by dsimp only; omega)
  have hmiss:=hwait.next (o := ⟨setup+c.heartbeatInterval+c.pingTimeout,.timeout⟩)
    (by simp [punctual]; omega)
  simp only [Monitor.next,Monitor.step,Nat.zero_add,Nat.reduceLeDiff,if_false] at hmiss
  dsimp only at hmore hnone
  by_cases hlong : c.heartbeatInterval≤c.pingTimeout
  · -- a tick has come meanwhile, and the second ping begins at once
    have hpending : pending=true := hmore (by omega)
    subst hpending
    have hagain:=hmiss.next (o := ⟨setup+c.heartbeatInterval+c.pingTimeout,.receive⟩)
      (by simp [punctual]; omega)
    simp only [Monitor.next,Monitor.step,and_self,if_true] at hagain
    rw [max_eq_right hlong]
    exact ⟨nextTick,false,by omega,hagain⟩
  -- the second ping begins with the second tick
  obtain ⟨hpending,htwo⟩:=hnone (by omega)
  subst hpending htwo
  have htick':=hmiss.next
    (o := ⟨setup+c.heartbeatInterval+c.heartbeatInterval,.tick⟩)
    (by simp [punctual]; omega)
  have hagain:=htick'.next
    (o := ⟨setup+c.heartbeatInterval+c.heartbeatInterval,.receive⟩)
    (by simp [punctual,Monitor.next,Monitor.step]; omega)
  simp only [Monitor.next,Monitor.step,and_self,if_true] at hagain
  rw [max_eq_left (by omega)]
  exact ⟨_,false,by omega,hagain⟩

theorem slow_run (c : Config) (setup : ℕ) :
    ∃ m,Reaches c (Monitor.start c setup) m ∧ m.extended = [longest c setup,0] := by
  obtain ⟨nextTick,pending,htick,hping⟩:=slow_second_ping c setup
  obtain ⟨now,nextTick',pending',hwait,hnow,hnext,-,-⟩:=hping.ping rfl rfl htick
  have hpong:=hwait.next (o := ⟨longest c setup,.pong⟩) (by
    simp only [punctual,Bool.and_eq_true,decide_eq_true_eq,reduceCtorEq,if_false]
    exact ⟨⟨⟨hnow,hnext.le⟩,le_refl _⟩,rfl⟩)
  exact ⟨_,hpong,rfl⟩

end Slow

/-- A configuration keeps the slot of every responsive connection, whatever the pings
of the run take, exactly if the slot lives longer than the setup of the connection, an
interval, the longer of interval and timeout, and a timeout together. -/
theorem slot_outlives_heartbeat (go : GoLibrary) (c : Config) (hvalid : c.validate go = [])
    (setup : ℕ) :
    (∀ os, Machine.Guarded (Monitor.next c) (fun m o => punctual c m o = true)
        (Monitor.start c setup) os →
      Kept c (Machine.run (Monitor.next c) (Monitor.start c setup) os)) ↔
    setup + c.pingInterval.toInt + max c.pingInterval.toInt c.pingTimeout + c.pingTimeout <
      c.slotTTL.toInt := by
  have hinterval : c.heartbeatInterval=c.pingInterval.toInt :=
    if_pos (Config.pingInterval_of_validate hvalid)
  rw [← hinterval]
  constructor
  · intro hall
    obtain ⟨m,⟨os,hg,hrun⟩,hext⟩ := slow_run c setup
    have hkept := hall os hg
    rw [hrun,Kept,hext,List.isChain_cons_cons] at hkept
    simpa [longest] using hkept.1
  · intro hlong os hg
    have hinv := Machine.guarded_invariant (Monitor.next c) _ (InTime c setup)
      (fun m o h hok => h.next hlong hok) _ os (inTime_start c setup) hg
    exact hinv.kept

def plainGo : GoLibrary where
  quoted x := x
  durationString _ := ""
  splitHostPort _ := none

def shortTimeout : Config where
  jwtIssuer := "https://auth.example.com"
  jwtPublicKeyFile := "/keys/relay.pem"
  pongTimeout := 5000000000

theorem slot_outlives_heartbeat_shortTimeout :
    shortTimeout.validate plainGo = [] ∧
      ∀ os, Machine.Guarded (Monitor.next shortTimeout)
          (fun m o => punctual shortTimeout m o = true) (Monitor.start shortTimeout 1000000000) os →
        Kept shortTimeout
          (Machine.run (Monitor.next shortTimeout) (Monitor.start shortTimeout 1000000000) os) :=
  ⟨by decide +kernel,
    (slot_outlives_heartbeat plainGo shortTimeout (by decide +kernel) 1000000000).2
      (by decide +kernel)⟩

def defaults : Config where
  jwtIssuer := "https://auth.example.com"
  jwtPublicKeyFile := "/keys/relay.pem"

def slowPongs : List Occurrence :=
  [⟨25000000000,.tick⟩,⟨25000000000,.receive⟩,⟨50000000000,.tick⟩,⟨50000000000,.timeout⟩,
    ⟨50000000000,.receive⟩,⟨75000000000,.tick⟩,⟨75000000000,.pong⟩]

theorem slot_expires_under_defaults :
    defaults.validate plainGo = [] ∧
      Machine.Guarded (Monitor.next defaults) (fun m o => punctual defaults m o = true)
        (Monitor.start defaults 0) slowPongs ∧
      (Machine.run (Monitor.next defaults) (Monitor.start defaults 0) slowPongs).extended =
        [75000000000,0] ∧
      defaults.slotTTL.toInt = 60000000000 ∧
      ¬ Kept defaults (Machine.run (Monitor.next defaults) (Monitor.start defaults 0) slowPongs) := by
  decide +kernel

end Heartbeat
end SecureGateway.Relay
