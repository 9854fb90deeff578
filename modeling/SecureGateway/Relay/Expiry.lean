import SecureGateway.Relay.BanTracker

/-!
# The expiry timer of a session (`session.go`)

`monitor` closes the session when the token expires. `SetExpiry` runs in the read pump: it
stores the new expiry and then puts a signal into `refreshed`, which holds one, unless one is
there. Loads, stores and channel operations are the atomic steps. While a ping blocks the
loop, the timer may fire and the expiry may change.
-/

namespace SecureGateway.Relay.Expiry
open RateLimit (sub)

def maxTimerDelay : ℤ := 100 * 365 * 24 * 3600 * second

def untilExpiry (exp now : ℤ) : ℤ :=
  if exp≤0 then maxTimerDelay
  else
    let d := sub (exp * second) now
    if d<0 then millisecond else d

inductive Activity
  /- in the `select` -/
  | waiting
  /- in `doPing` or `renew` -/
  | pinging
  /- the timer was received; before the two loads of its case -/
  | checking
  | confirming
  /- before and after the load in `untilExpiry` -/
  | loading
  | arming (exp loaded : ℤ)
  | expired
  | stopped
  deriving DecidableEq

/- When it fires; `exp`, `loaded` and `armed` are history: the expiry it was set from, when
that was loaded, and when the timer was set. -/
structure Timer where
  deadline : ℤ
  fired : Bool
  exp : ℤ
  loaded : ℤ
  armed : ℤ

structure Monitor where
  now : ℤ
  expiry : ℤ
  /- `SetExpiry` is between its store and its send -/
  signalling : Bool
  refreshed : Bool
  activity : Activity
  timer : Timer

inductive Step
  | pass (d : ℕ)
  | storeExpiry (unix : ℤ)
  | signal
  | fire
  | tick
  | pinged
  | receiveRefreshed
  | receiveTimer
  | check
  | confirm
  | load
  | arm
  | done

/- A step that cannot be taken changes nothing. `resetTimer` empties the channel. -/
def next (m : Monitor) : Step → Monitor
  | .pass d => { m with now := m.now + d }
  | .storeExpiry unix => if m.signalling then m else { m with expiry := unix, signalling := true }
  | .signal => if m.signalling then { m with signalling := false, refreshed := true } else m
  | .fire => if m.timer.deadline ≤ m.now then { m with timer.fired := true } else m
  | .tick => if m.activity=.waiting then { m with activity := .pinging } else m
  | .pinged => if m.activity=.pinging then { m with activity := .waiting } else m
  | .receiveRefreshed =>
    if m.activity=.waiting ∧ m.refreshed then { m with refreshed := false, activity := .loading }
    else m
  | .receiveTimer =>
    if m.activity=.waiting ∧ m.timer.fired then
      { m with timer.fired := false, activity := .checking }
    else m
  | .check =>
    if m.activity=.checking then
      { m with activity := if m.expiry ≤ m.now / second then .confirming else .loading }
    else m
  | .confirm =>
    if m.activity=.confirming then
      { m with activity := if 0 < m.expiry then .expired else .loading }
    else m
  | .load => if m.activity=.loading then { m with activity := .arming m.expiry m.now } else m
  | .arm =>
    match m.activity with
    | .arming exp loaded =>
      { m with
        activity := .waiting
        timer := ⟨m.now + untilExpiry exp loaded,false,exp,loaded,m.now⟩ }
    | _ => m
  | .done => { m with activity := .stopped }

/- `NewTimer` is set like the timer that is reset. -/
def start (now exp : ℤ) : Monitor := ⟨now,exp,false,false,.loading,⟨0,false,0,0,0⟩⟩

/- The timer was set from this expiry. -/
def SetFrom (t : Timer) (exp : ℤ) : Prop :=
  t.exp=exp ∧ t.deadline = t.armed + untilExpiry exp t.loaded ∧ t.loaded≤t.armed

/-- The monitor will be told to load the expiry again, or its timer is that of the expiry. -/
structure Awake (m : Monitor) : Prop where
  waiting : m.activity=.waiting ∨ m.activity=.pinging →
    m.signalling=true ∨ m.refreshed=true ∨ SetFrom m.timer m.expiry
  arming : ∀ exp loaded, m.activity = .arming exp loaded →
    loaded ≤ m.now ∧ (m.signalling=true ∨ m.refreshed=true ∨ exp=m.expiry)

theorem awake_next (m : Monitor) (x : Step) (h : Awake m) : Awake (next m x) := by
  obtain ⟨hw,ha⟩:=h
  cases x with
  | arm =>
    simp only [next]
    split
    · next exp loaded hact =>
      obtain ⟨hle,hcur⟩:=ha exp loaded hact
      refine ⟨fun _ => hcur.imp_right (Or.imp_right fun heq => ?_),nofun⟩
      exact ⟨heq,heq ▸ rfl,hle⟩
    · exact ⟨hw,ha⟩
  | _ => constructor <;> grind [next,SetFrom]

theorem SetFrom.deadline_le {t : Timer} {exp : ℤ} (h : SetFrom t exp) (hexp : 0<exp) :
    t.deadline ≤ max (exp*second) (t.loaded+millisecond)+(t.armed - t.loaded) := by
  obtain ⟨-,hdeadline,-⟩:=h
  simp only [untilExpiry,sub,millisecond] at hdeadline ⊢
  split at hdeadline <;> omega

/-- Whenever the monitor waits or pings, a signal is on its way, or the timer stands for the
expiry that is stored and fires, up to the delay with which it was set, when the token
expires, or at once if it has expired. -/
theorem refresh_never_lost (now exp : ℤ) (steps : List Step) :
    let m := Machine.run next (start now exp) steps
    m.activity=.waiting ∨ m.activity=.pinging →
      m.signalling=true ∨ m.refreshed=true ∨ m.timer.exp=m.expiry ∧ (0 < m.expiry →
        m.timer.deadline ≤ max (m.expiry*second) (m.timer.loaded+millisecond) +
          (m.timer.armed - m.timer.loaded)) := by
  intro m hact
  have hawake : Awake m :=
    Machine.run_invariant next Awake awake_next _ steps ⟨by simp [start],by simp [start]⟩
  exact (hawake.waiting hact).imp_right (Or.imp_right fun hset => ⟨hset.1,hset.deadline_le⟩)

theorem refresh_never_lost_once :
    let steps := [.load,.arm,.storeExpiry 20,.tick,.signal,.pinged,.receiveRefreshed,.load,.arm]
    let m := Machine.run next (start 0 10) steps
    m.activity=.waiting ∧ (m.signalling=true ∨ m.refreshed=true ∨ m.timer.exp=m.expiry ∧
      (0 < m.expiry → m.timer.deadline ≤ max (m.expiry*second) (m.timer.loaded+millisecond) +
        (m.timer.armed - m.timer.loaded))) :=
  ⟨rfl,refresh_never_lost 0 10
    [.load,.arm,.storeExpiry 20,.tick,.signal,.pinged,.receiveRefreshed,.load,.arm] (.inl rfl)⟩

end SecureGateway.Relay.Expiry
