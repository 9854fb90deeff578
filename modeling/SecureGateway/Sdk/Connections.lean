import SecureGateway.Sdk.Lifecycle

/-!
# Terminal states, stale transports and connections in flight

`scheduleConnect`, `attemptConnect` and `scheduleReconnect` look at `terminal`, but
`handleOpen`, `handleSys` and `handleError` do not, so a terminal state is left again by what
was under way. The listener lets a close or an error pass when no transport is active, so an
earlier transport can end the client or schedule a second connect.
-/

namespace SecureGateway.Sdk
open E2ee

/-! ## What a task does to the state on show -/

theorem Link.Reconnects.eq_of_stopped {l l' : Link} (h : l.Reconnects l')
    (hs : l.stopped=true) : l'=l := by
  cases h with
  | stopped => rfl
  | again hgo =>
    rw [hs] at hgo
    cases hgo

@[simp] theorem Link.schedule_state (l : Link) (delay : Int64) :
    (l.schedule delay).state=l.state := by
  unfold Link.schedule
  split <;> rfl

@[simp] theorem Link.teardown_state (l : Link) : l.teardown.state=l.state := by
  unfold Link.teardown
  split <;> rfl

theorem Link.Reconnects.state {l l' : Link} (h : l.Reconnects l') :
    l'.state=l.state ∨ l'.state=some .reconnecting := by
  cases h with
  | stopped => exact .inl rfl
  | again hgo delay => exact .inr (by simp)

theorem WireFrame.shows_not_terminal (frame : WireFrame JavaString) (s : ConnectionState)
    (h : frame.shows=some s) : s.isTerminal=false := by
  unfold WireFrame.shows at h
  split at h <;> cases h <;> rfl

variable {task : Task}

theorem Moves.state_cases {l l' : Link} (h : Moves l task l') :
    l'.state=l.state ∨ (∃ s,l'.state=some s ∧ s.isTerminal=false) ∨
      ∃ t code s,task = .closed t code ∧ t<l.transports ∧ l.heeds t ∧
        closeState code=some s ∧ l'=(l.drop t).terminated s := by
  have hagain : ∀ l₀ : Link,l₀.Reconnects l' → l₀.state=l.state →
      l'.state=l.state ∨ ∃ s,l'.state=some s ∧ s.isTerminal=false := by
    intro l₀ hr h₀
    cases hr.state with
    | inl hs => exact .inl (hs.trans h₀)
    | inr hs => exact .inr ⟨_,hs,rfl⟩
  cases h with
  | quiet | unknown | startedBefore | startedAfterEnd | notScheduled | notDialled | dialled
  | closeUnheeded | errorUnheeded | watched | shutdown => exact .inl rfl
  | started => exact .inl (by simp)
  | closing => exact .inl (by simp)
  | opened t ht s hs =>
    cases hs with
    | inl hs => exact .inr (.inl ⟨_,hs,rfl⟩)
    | inr hs => exact .inl hs
  | shown t ht frame s hs => exact .inr (.inl ⟨s,rfl,frame.shows_not_terminal s hs⟩)
  | terminated t ht code hh s hc => exact .inr (.inr ⟨t,code,s,rfl,ht,hh,hc,rfl⟩)
  | dialFailed delay h hs l' hr => exact (hagain _ hr rfl).imp_right .inl
  | draining t ht l' hr => exact (hagain _ hr rfl).imp_right .inl
  | closed t ht code hh hc l' hr => exact (hagain _ hr rfl).imp_right .inl
  | failed t ht hh l' hr => exact (hagain _ hr rfl).imp_right .inl
  | silent h l' hr => exact (hagain _ hr rfl).imp_right .inl

/- What can still disturb a client that has ended in state `s`: a transport opens, the
relay's word on the peer is handled, or a close with the other terminal code. -/
def Task.disturbs (transports : ℕ) (s : ConnectionState) : Task → Bool
  | .opened t => t < transports
  | .message t frame => decide (t<transports) && frame.shows.isSome
  | .closed t code => decide (t<transports) && (closeState code).any (· != s)
  | _ => false

def calm (w : World) (o : Occurrence) : Bool :=
  w.manager.state.all fun s => !(s.isTerminal && o.task.disturbs w.transports s)

structure Link.Ended (l : Link) (s : ConnectionState) : Prop where
  terminal : l.terminal=true
  active : l.active=none
  state : l.state = some s

variable {s : ConnectionState}

theorem Link.Ended.stopped {l : Link} (h : l.Ended s) : l.stopped=true := by
  simp [Link.stopped,h.terminal]

theorem Link.Ended.heeds {l : Link} (h : l.Ended s) (t : TransportID) : l.heeds t := .inr h.active

variable {l l' : Link}

theorem Link.Ended.moves (h : l.Ended s) (hm : Moves l task l')
    (hd : task.disturbs l.transports s=false) : l'.Ended s ∧ l'.transports=l.transports := by
  cases hm with
  | quiet | unknown | startedBefore | notScheduled | watched => exact ⟨h,rfl⟩
  | startedAfterEnd | shutdown | notDialled => exact ⟨⟨h.terminal,h.active,h.state⟩,rfl⟩
  | started hrun hend =>
    rw [h.terminal] at hend
    cases hend
  | dialled delay hmem hs =>
    rw [h.stopped] at hs
    cases hs
  | dialFailed delay hmem hs =>
    rw [h.stopped] at hs
    cases hs
  | opened t ht => simp [Task.disturbs,ht] at hd
  | shown t ht frame s' hs => simp [Task.disturbs,ht,hs] at hd
  | draining t ht l' hr =>
    rw [hr.eq_of_stopped h.stopped]
    exact ⟨h,rfl⟩
  | closeUnheeded t ht code hh => exact absurd (h.heeds t) hh
  | errorUnheeded t ht hh => exact absurd (h.heeds t) hh
  | terminated t ht code hh s' hc =>
    simp only [Task.disturbs,ht,hc,decide_true,Option.any_some,Bool.true_and,
      bne_eq_false_iff_eq] at hd
    exact ⟨⟨rfl,rfl,congrArg some hd⟩,rfl⟩
  | closed t ht code hh hc l' hr =>
    rw [hr.eq_of_stopped h.stopped]
    exact ⟨⟨h.terminal,rfl,h.state⟩,rfl⟩
  | failed t ht hh l' hr =>
    rw [hr.eq_of_stopped h.stopped]
    exact ⟨⟨h.terminal,h.active,h.state⟩,rfl⟩
  | silent hact => exact absurd h.active hact
  | closing =>
    have hsame : ({ l with running := false } : Link).teardown = { l with running := false } := by
      simp [Link.teardown,h.active]
    rw [hsame]
    exact ⟨⟨h.terminal,h.active,h.state⟩,rfl⟩

variable {t : TransportID}

theorem Task.lt_of_disturbs {n : ℕ} (hd : task.disturbs n s=true) (ht : task.speaker=some t) :
    t<n := by
  cases task with
  | opened => simpa [Task.disturbs,← Option.some.inj ht] using hd
  | message | closed =>
    rw [Task.disturbs,Bool.and_eq_true,decide_eq_true_eq] at hd
    exact Option.some.inj ht ▸ hd.1
  | activity | failed => cases hd
  | start | attemptConnect | watchdog | refresh | call | send | close | shutdown => cases ht

theorem Moves.disturbed (hm : Moves l task l') (hact : l.active=none) (hterm : s.isTerminal=true)
    (hd : task.disturbs l.transports s=true) : l'.state≠some s ∨ l'.active≠none := by
  cases hm with
  | unknown task t hs ht => exact absurd (Task.lt_of_disturbs hd hs) (Nat.not_lt.mpr ht)
  | opened t ht s' hs => exact .inr (Option.some_ne_none t)
  | shown t ht frame s' hs =>
    left
    intro heq
    rw [Option.some.injEq] at heq
    rw [← heq,frame.shows_not_terminal s' hs] at hterm
    cases hterm
  | terminated t ht code hh s' hc =>
    left
    simp only [Task.disturbs,hc,Option.any_some,Bool.and_eq_true,bne_iff_ne] at hd
    exact fun heq => hd.2 (Option.some.inj heq)
  | quiet task hq => cases task <;> simp_all [Task.quiet,Task.disturbs]
  | closeUnheeded t ht code hh => exact absurd (.inr hact) hh
  | closed t ht code hh hc => simp [Task.disturbs,hc] at hd
  | draining => simp [Task.disturbs,WireFrame.shows] at hd
  | startedBefore | startedAfterEnd | started | notScheduled | notDialled | dialled | dialFailed
  | errorUnheeded | failed | watched | silent | closing | shutdown => cases hd

def Link.Sound (l : Link) : Prop :=
  ∀ s, s.isTerminal=true → l.state = some s → l.Ended s

section Runs
variable (N : Native) (S : Setup)

def after (tokens : TokenStore) (os : List Occurrence) : World :=
  Machine.run (World.next N S) (World.fresh tokens) os

theorem calm_iff (w : World) (o : Occurrence) (s : ConnectionState) (hs : w.manager.state=some s)
    (hterm : s.isTerminal=true) : calm w o=true ↔ o.task.disturbs w.transports s=false := by
  simp [calm,hs,hterm]

theorem sound_next (w : World) (o : Occurrence) (h : w.link.Sound) (hc : calm w o=true) :
    (w.next N S o).link.Sound := by
  intro s hterm hs
  have hm:=World.moves_next N S w o
  rcases hm.state_cases with hsame | ⟨s',hs',hnot⟩ | ⟨t,code,s',-,-,-,-,hl⟩
  · rw [hs] at hsame
    have hd:=(calm_iff w o s hsame.symm hterm).mp hc
    exact ((h s hterm hsame.symm).moves hm hd).1
  · rw [hs,Option.some.injEq] at hs'
    rw [← hs',hterm] at hnot
    cases hnot
  · rw [hl] at hs ⊢
    exact ⟨rfl,rfl,hs⟩

theorem sound_after (tokens : TokenStore) (os : List Occurrence)
    (hg : Machine.Guarded (World.next N S) (fun w o => calm w o=true) (World.fresh tokens) os) :
    (after N S tokens os).link.Sound :=
  Machine.guarded_invariant (World.next N S) _ (fun w => w.link.Sound) (sound_next N S) _ os
    (fun _ _ hs => nomatch hs) hg

theorem ended_run (w : World) (os : List Occurrence) (s : ConnectionState)
    (hterm : s.isTerminal=true) (h : w.link.Ended s)
    (hg : Machine.Guarded (World.next N S) (fun w o => calm w o=true) w os) :
    (Machine.run (World.next N S) w os).link.Ended s ∧
      (Machine.run (World.next N S) w os).transports=w.transports := by
  have hstep : ∀ w' o,w'.link.Ended s ∧ w'.transports=w.transports → calm w' o=true →
      (w'.next N S o).link.Ended s ∧ (w'.next N S o).transports=w.transports := by
    intro w' o hw hc
    have hd:=(calm_iff w' o s hw.1.state hterm).mp hc
    have hnext:=hw.1.moves (World.moves_next N S w' o) hd
    exact ⟨hnext.1,hnext.2.trans hw.2⟩
  exact Machine.guarded_invariant (World.next N S) _ _ hstep w os ⟨h,rfl⟩ hg

/-- Once the client shows `SUPERSEDED` or `REVOKED`, it does so for the rest of the run,
no transport is passed to `connect`, and none is active. -/
def Absorbing (tokens : TokenStore) (os : List Occurrence) : Prop :=
  ∀ pre mid rest s, os = pre ++ (mid ++ rest) → s.isTerminal=true →
    (after N S tokens pre).manager.state = some s →
    (after N S tokens (pre ++ mid)).manager.state = some s ∧
      (after N S tokens (pre ++ mid)).transports = (after N S tokens pre).transports ∧
      (after N S tokens (pre ++ mid)).manager.active = none

/-- The terminal states absorb exactly the runs in which nothing disturbs a client that has
reached one. -/
theorem terminal_states_absorb (tokens : TokenStore) (os : List Occurrence) :
    Absorbing N S tokens os ↔
      Machine.Guarded (World.next N S) (fun w o => calm w o = true) (World.fresh tokens) os := by
  constructor
  · intro h
    rw [Machine.guarded_iff]
    intro pre o post hos
    by_contra hc
    -- the client has ended, and the next task disturbs it
    obtain ⟨s,hs,hterm,hd⟩ : ∃ s, (after N S tokens pre).manager.state = some s ∧
        s.isTerminal = true ∧ o.task.disturbs (after N S tokens pre).transports s = true := by
      simpa [calm,after,Option.all_eq_false] using hc
    have hbefore := h pre [] (o::post) s hos hterm hs
    have hafter := h pre [o] post s hos hterm hs
    rw [List.append_nil] at hbefore
    rw [after,Machine.run_append] at hafter
    have hm := World.moves_next N S (after N S tokens pre) o
    cases hm.disturbed hbefore.2.2 hterm hd with
    | inl hstate => exact hstate hafter.1
    | inr hactive => exact hactive hafter.2.2
  · intro hg pre mid rest s hos hterm hs
    rw [hos,Machine.guarded_append,Machine.guarded_append] at hg
    have hended := sound_after N S tokens pre hg.1 s hterm hs
    have hrun := ended_run N S _ mid s hterm hended hg.2.1
    rw [after,Machine.run_append]
    exact ⟨hrun.1.state,hrun.2,hrun.1.active⟩

end Runs

def phone : Setup where
  cred := ⟨List.replicate keySize 7,List.replicate keySize 8,.mobile⟩

def drawing : Inputs := { ephPriv := List.replicate keySize 9 }

/- The first transport fails and a second is dialled. The relay closes the first with 4001,
which is reported before the second opens. -/
def lateClose : List Occurrence :=
  [⟨.start,{}⟩,⟨.attemptConnect 0 .returns,{}⟩,⟨.opened 0,drawing⟩,⟨.failed 0,{}⟩,
    ⟨.attemptConnect 0 .returns,{}⟩,⟨.closed 0 closeSuperseded,{}⟩]

theorem superseded_left_again :
    (after transparent phone {} lateClose).manager.state = some .superseded ∧
      (after transparent phone {} (lateClose ++ [⟨.opened 1,drawing⟩])).manager.state =
        some .connected ∧
      (after transparent phone {} (lateClose ++ [⟨.opened 1,drawing⟩])).manager.active = some 1 ∧
      ¬ Absorbing transparent phone {} (lateClose ++ [⟨.opened 1,drawing⟩]) := by
  refine ⟨by decide +kernel,by decide +kernel,by decide +kernel,?_⟩
  intro h
  have hend := h lateClose [⟨.opened 1,drawing⟩] [] .superseded rfl rfl (by decide +kernel)
  exact absurd hend.1 (by decide +kernel)

def Task.report : Task → Option (TransportID × Option ConnectionState)
  | .closed t code => some (t,closeState code)
  | .failed t => some (t,none)
  | _ => none

/-- The manager does not act on such a report: another transport is active, or it shows
the state asked for already, or its loop is over, or the executor is shut down while it
shows `RECONNECTING`. -/
def Link.ignores (l : Link) (t : TransportID) (s : Option ConnectionState) : Prop :=
  ¬ l.heeds t ∨ (s.isSome=true ∧ l.state=s) ∨
    (s=none ∧ (l.stopped=true ∨ l.isShutdown=true ∧ l.state = some .reconnecting))

instance (l : Link) (t : TransportID) (s : Option ConnectionState) : Decidable (l.ignores t s) :=
  inferInstanceAs (Decidable (_ ∨ _ ∨ _))

def Link.current (l : Link) (task : Task) : Bool :=
  task.report.all fun r => decide (r.1 + 1 < l.transports → l.ignores r.1 r.2)

/-- Only the close of the transport last passed to `connect` ends the client, and what an
earlier one reports changes neither the state nor the scheduled connects. -/
structure Link.Steered (l : Link) (task : Task) (l' : Link) : Prop where
  superseded : l'.state = some .superseded → l.state ≠ some .superseded →
    ∃ t, task = .closed t closeSuperseded ∧ t + 1 = l.transports
  revoked : l'.state = some .revoked → l.state ≠ some .revoked →
    ∃ t, task = .closed t closeRevoked ∧ t + 1 = l.transports
  earlier : ∀ t s, task.report = some (t,s) → t + 1 < l.transports →
    l'.state = l.state ∧ l'.scheduled=l.scheduled

theorem Link.current_iff (l : Link) (task : Task) :
    l.current task=true ↔
      ∀ t s,task.report=some (t,s) → t+1<l.transports → l.ignores t s := by
  unfold Link.current
  cases h : task.report with
  | none => simp
  | some r =>
    simp only [Option.all_some,decide_eq_true_eq,Option.some.injEq]
    constructor
    · rintro hr t s rfl
      exact hr
    · intro hr
      exact hr r.1 r.2 rfl

theorem closeState_eq_superseded {code : Int32} (h : closeState code=some .superseded) :
    code=closeSuperseded := by
  unfold closeState at h
  split at h
  · assumption
  · split at h <;> cases h

theorem closeState_eq_revoked {code : Int32} (h : closeState code=some .revoked) :
    code=closeRevoked := by
  unfold closeState at h
  split at h
  · cases h
  split at h
  · assumption
  · cases h

theorem Moves.ends (hm : Moves l task l') (hc : l.current task=true)
    (hterm : s.isTerminal=true) (hs : l'.state=some s) (hne : l.state≠some s) :
    ∃ t code,task = .closed t code ∧ closeState code=some s ∧ t+1=l.transports := by
  rcases hm.state_cases with hsame | ⟨s',hs',hnot⟩ | ⟨t,code,s',rfl,ht,hh,hcode,rfl⟩
  · exact absurd (hsame.symm.trans hs) hne
  · rw [hs,Option.some.injEq] at hs'
    rw [← hs',hterm] at hnot
    cases hnot
  obtain rfl : s'=s := Option.some.inj hs
  refine ⟨t,code,rfl,hcode,?_⟩
  by_contra hlast
  have hearlier : t+1<l.transports := Nat.lt_of_le_of_ne ht hlast
  rcases (l.current_iff _).mp hc t _ rfl hearlier with hdeaf | ⟨-,hsame⟩ | ⟨hnone,-⟩
  · exact hdeaf hh
  · exact hne (hsame.trans hcode)
  · rw [hcode] at hnone
    cases hnone

theorem Link.Reconnects.unchanged_iff (hr : l.Reconnects l') :
    (l'.state=l.state ∧ l'.scheduled=l.scheduled) ↔
      l.stopped=true ∨ l.isShutdown=true ∧ l.state=some .reconnecting := by
  cases hr with
  | stopped h => simp [h]
  | again h delay =>
    have hsched : l.teardown.scheduled=l.scheduled := by
      unfold Link.teardown
      split <;> rfl
    have hdown : l.teardown.isShutdown=l.isShutdown := by
      unfold Link.teardown
      split <;> rfl
    cases hshut : l.isShutdown <;> simp [Link.schedule,h,hsched,hdown,hshut,eq_comm]

theorem Link.ignores_none {l : Link} (h : l.heeds t) :
    l.ignores t none ↔ l.stopped=true ∨ l.isShutdown=true ∧ l.state=some .reconnecting := by
  simp [Link.ignores,h]

theorem Moves.unchanged_iff {s : Option ConnectionState} (hm : Moves l task l')
    (hreport : task.report=some (t,s)) (ht : t<l.transports) :
    (l'.state=l.state ∧ l'.scheduled=l.scheduled) ↔ l.ignores t s := by
  cases hm with
  | closeUnheeded t' ht' code hh =>
    cases hreport
    exact ⟨fun _ => .inl hh,fun _ => ⟨rfl,rfl⟩⟩
  | errorUnheeded t' ht' hh =>
    cases hreport
    exact ⟨fun _ => .inl hh,fun _ => ⟨rfl,rfl⟩⟩
  | terminated t' ht' code hh s' hcode =>
    rw [Task.report,hcode] at hreport
    cases hreport
    constructor
    · intro hsame
      exact .inr (.inl ⟨rfl,hsame.1.symm⟩)
    rintro (hdeaf | ⟨-,hsame⟩ | ⟨hnone,-⟩)
    · exact absurd hh hdeaf
    · exact ⟨hsame.symm,rfl⟩
    · cases hnone
  | closed t' ht' code hh hcode l' hr =>
    rw [Task.report,hcode] at hreport
    cases hreport
    rw [Link.ignores_none hh]
    exact hr.unchanged_iff
  | failed t' ht' hh l' hr =>
    cases hreport
    rw [Link.ignores_none hh]
    exact hr.unchanged_iff
  | unknown task t' hspeaker ht' =>
    have hsame : t'=t := by cases task <;> cases hspeaker <;> cases hreport <;> rfl
    exact absurd (hsame ▸ ht) (Nat.not_lt.mpr ht')
  | quiet task hquiet =>
    cases task with
    | closed | failed => cases hquiet
    | start | attemptConnect | opened | message | activity | watchdog | refresh | call | send
    | close | shutdown => cases hreport
  | startedBefore | startedAfterEnd | started | notScheduled | notDialled | dialled | dialFailed
  | opened | shown | draining | watched | silent | closing | shutdown => cases hreport

section Runs
variable (N : Native) (S : Setup)

theorem steered_next_iff (w : World) (o : Occurrence) :
    w.link.Steered o.task (w.next N S o).link ↔ w.link.current o.task=true := by
  have hm:=World.moves_next N S w o
  constructor
  · intro h
    rw [Link.current_iff]
    intro t s hreport hearlier
    have ht:=Nat.lt_of_succ_lt hearlier
    exact (hm.unchanged_iff hreport ht).mp (h.earlier t s hreport hearlier)
  intro hc
  constructor
  · intro hs hne
    obtain ⟨t,code,htask,hcode,hlast⟩:=hm.ends hc rfl hs hne
    exact ⟨t,closeState_eq_superseded hcode ▸ htask,hlast⟩
  · intro hs hne
    obtain ⟨t,code,htask,hcode,hlast⟩:=hm.ends hc rfl hs hne
    exact ⟨t,closeState_eq_revoked hcode ▸ htask,hlast⟩
  · intro t s hreport hearlier
    have ht:=Nat.lt_of_succ_lt hearlier
    have hignores:=(Link.current_iff _ _).mp hc t s hreport hearlier
    exact (hm.unchanged_iff hreport ht).mpr hignores

/-- Each step of a run is steered by the current transport exactly if the manager ignores
every report of an earlier one. -/
theorem stale_transports_ignored (tokens : TokenStore) (os : List Occurrence) :
    (∀ pre o post, os = pre ++ o :: post →
      (after N S tokens pre).link.Steered o.task (after N S tokens (pre ++ [o])).link) ↔
    Machine.Guarded (World.next N S) (fun w o => w.link.current o.task = true)
      (World.fresh tokens) os := by
  rw [Machine.guarded_iff]
  simp only [after,Machine.run_append,Machine.run_cons,Machine.run_nil,steered_next_iff]

end Runs

theorem stale_close_terminates :
    (after transparent phone {} lateClose.dropLast).transports = 2 ∧
      (after transparent phone {} lateClose.dropLast).manager.state = some .reconnecting ∧
      lateClose.getLast? = some ⟨.closed 0 closeSuperseded,{}⟩ ∧
      (after transparent phone {} lateClose).manager.state = some .superseded := by
  exact ⟨by decide +kernel,by decide +kernel,rfl,by decide +kernel⟩

def Link.inFlight (l : Link) : ℕ := l.scheduled.length + l.live.length

/-- The reports a manager can cope with: a transport opens while it is alive, a shutdown
notice comes while a transport is active, and a transport reports its end once, or else
while a transport is active. None of this matters once the loop is over. -/
def Link.orderly (l : Link) : Task → Bool
  | .opened t => l.live.contains t
  | .message _ (.sys .shutdown) => l.stopped || l.active.isSome
  | .closed t _ | .failed t => l.stopped || l.active.isSome || l.live.contains t
  | _ => true

structure Link.Single (l : Link) : Prop where
  one : l.inFlight≤1
  active : l.stopped=false → ∀ t, l.active = some t → t ∈ l.live

theorem Link.Single.of_stopped {l : Link} (hone : l.inFlight≤1) (hs : l.stopped=true) :
    l.Single where
  one := hone
  active hgo := by
    rw [hs] at hgo
    cases hgo

structure Link.Bare (l : Link) : Prop where
  scheduled : l.scheduled=[]
  live : l.live=[]
  active : l.active=none

theorem Link.Bare.single_schedule {l : Link} (h : l.Bare) (s : Option ConnectionState)
    (delay : Int64) : ({ l with state := s }.schedule delay).Single := by
  have hnone : ∀ t,l.active=some t → t∈l.live := by
    intro t ht
    rw [h.active] at ht
    cases ht
  unfold Link.schedule
  split
  · exact ⟨by simp [Link.inFlight,h.scheduled,h.live],fun _ => hnone⟩
  · exact ⟨by simp [Link.inFlight,h.scheduled,h.live],fun _ => hnone⟩

theorem Link.Reconnects.single (hr : l.Reconnects l') (hone : l.inFlight≤1)
    (hbare : l.stopped=false → l.teardown.Bare) : l'.Single := by
  cases hr with
  | stopped hs => exact .of_stopped hone hs
  | again hgo delay => exact (hbare hgo).single_schedule _ delay

section InFlight
variable {l l' : Link} {t : TransportID}

theorem Link.inFlight_drop_le (l : Link) (t : TransportID) : (l.drop t).inFlight≤l.inFlight :=
  Nat.add_le_add_left (List.length_filter_le _ l.live) _

theorem Link.inFlight_teardown_le (l : Link) : l.teardown.inFlight≤l.inFlight := by
  unfold Link.teardown
  split
  · exact l.inFlight_drop_le _
  · exact le_refl _

theorem Link.bare_drop (hone : l.inFlight≤1) (ht : t∈l.live) :
    ({ l.drop t with active := none } : Link).Bare := by
  have hpos:=List.length_pos_of_mem ht
  simp only [Link.inFlight] at hone
  obtain ⟨x,hx⟩:=List.length_eq_one_iff.mp (show l.live.length=1 by omega)
  have hxt : t=x := by
    rw [hx] at ht
    exact List.mem_singleton.mp ht
  refine ⟨List.length_eq_zero_iff.mp (show l.scheduled.length=0 by omega),?_,rfl⟩
  simp [Link.drop,hx,hxt]

theorem Link.Single.bare_teardown (h : l.Single) (hgo : l.stopped=false)
    (hact : l.active≠none) : l.teardown.Bare := by
  obtain ⟨t,ht⟩:=Option.ne_none_iff_exists'.mp hact
  have hbare:=Link.bare_drop h.one (h.active hgo t ht)
  simpa [Link.teardown,ht] using hbare

theorem Link.Single.bare_take (h : l.Single) (hgo : l.stopped=false) {delay : Int64}
    (hd : delay∈l.scheduled) : (l.take delay).Bare := by
  have hone:=h.one
  have hpos:=List.length_pos_of_mem hd
  have herase:=List.length_erase_of_mem hd
  simp only [Link.inFlight] at hone
  have hlive : l.live=[] := List.length_eq_zero_iff.mp (by omega)
  refine ⟨List.length_eq_zero_iff.mp (show (l.scheduled.erase delay).length=0 by omega),
    hlive,?_⟩
  show l.active=none
  cases hact : l.active with
  | none => rfl
  | some t =>
    have hmem:=h.active hgo t hact
    rw [hlive] at hmem
    cases hmem

theorem Link.Single.drop (h : l.Single) (hh : ¬ l.heeds t) : (l.drop t).Single where
  one := (l.inFlight_drop_le t).trans h.one
  active hgo t' ht' := by
    have hmem:=h.active hgo t' ht'
    have hne : t'≠t := fun heq => hh (.inl (heq ▸ ht'))
    simp [Link.drop,hmem,hne]

theorem Link.Single.mem_live (h : l.Single) (hgo : l.stopped=false) (hh : l.heeds t)
    (ho : (l.stopped || l.active.isSome || l.live.contains t)=true) : t∈l.live := by
  cases hh with
  | inl hact => exact h.active hgo t hact
  | inr hact => simpa [hgo,hact] using ho

theorem Link.teardown_drop (hh : l.heeds t) :
    (l.drop t).teardown = { l.drop t with active := none } := by
  cases hh with
  | inl hact => simp [Link.teardown,Link.drop,hact]
  | inr hact => simp [Link.teardown,Link.drop,hact]

theorem Link.Single.moves (h : l.Single) (hm : Moves l task l') (hstart : task≠.start)
    (ho : l.orderly task=true) : l'.Single := by
  have hdrop : ∀ t,(l.drop t).inFlight≤1 := fun t => (l.inFlight_drop_le t).trans h.one
  cases hm with
  | quiet | unknown | notScheduled | watched => exact h
  | startedBefore => exact absurd rfl hstart
  | startedAfterEnd => exact absurd rfl hstart
  | started => exact absurd rfl hstart
  | shown | shutdown => exact ⟨h.one,h.active⟩
  | notDialled delay dial hd =>
    have hle : (l.scheduled.erase delay).length≤l.scheduled.length := List.length_erase_le
    exact ⟨(Nat.add_le_add_right hle _).trans h.one,h.active⟩
  | dialled delay hd hgo =>
    have hbare:=h.bare_take hgo hd
    refine ⟨by simp [Link.inFlight,Link.connect,hbare.scheduled,hbare.live],?_⟩
    intro _ t ht
    cases hbare.active.symm.trans ht
  | dialFailed delay hd hgo l' hr =>
    have hbare:=h.bare_take hgo hd
    have hgone : ((l.take delay).connect.drop l.transports).Bare := by
      refine ⟨hbare.scheduled,?_,hbare.active⟩
      simp [Link.connect,Link.drop,Link.take,show l.live = [] from hbare.live]
    apply hr.single
    · simp [Link.inFlight,hgone.scheduled,hgone.live]
    · intro _
      simpa [Link.teardown,hgone.active] using hgone
  | opened t ht s hs =>
    refine ⟨h.one,?_⟩
    intro _ t' ht'
    cases ht'
    simpa [Link.orderly] using ho
  | draining t ht l' hr =>
    apply hr.single h.one
    intro hgo
    apply h.bare_teardown hgo
    simpa [Link.orderly,hgo,Option.isSome_iff_ne_none] using ho
  | closeUnheeded t ht code hh => exact h.drop hh
  | errorUnheeded t ht hh => exact h.drop hh
  | terminated t ht code hh s hc => exact .of_stopped (hdrop t) rfl
  | closed t ht code hh hc l' hr =>
    apply hr.single (hdrop t)
    intro hgo
    exact Link.bare_drop h.one (h.mem_live hgo hh ho)
  | failed t ht hh l' hr =>
    apply hr.single (hdrop t)
    intro hgo
    rw [Link.teardown_drop hh]
    exact Link.bare_drop h.one (h.mem_live hgo hh ho)
  | silent hact l' hr =>
    apply hr.single h.one
    intro hgo
    exact h.bare_teardown hgo hact
  | closing =>
    apply Link.Single.of_stopped
    · exact (Link.inFlight_teardown_le _).trans h.one
    · rw [Link.stopped_teardown]
      rfl

end InFlight

/-- After one `start`, in every state of every orderly run, the scheduled connects and the
transports that are neither closed nor failed are at most one together. -/
theorem one_connection_in_flight (N : Native) (S : Setup) (tokens : TokenStore) (i : Inputs)
    (os : List Occurrence) (hstart : ∀ o ∈ os, o.task≠.start)
    (hg : Machine.Guarded (World.next N S) (fun w o => w.link.orderly o.task = true)
      (World.fresh tokens) (⟨.start,i⟩ :: os)) :
    (after N S tokens (⟨.start,i⟩ :: os)).manager.scheduled.length +
      (after N S tokens (⟨.start,i⟩ :: os)).live.length ≤ 1 := by
  have hfirst : (World.next N S (World.fresh tokens) ⟨.start,i⟩).link.Single := by
    have hm := World.moves_next N S (World.fresh tokens) ⟨.start,i⟩
    generalize (World.next N S (World.fresh tokens) ⟨.start,i⟩).link = l at hm
    cases hm with
    | startedBefore h => cases h
    | startedAfterEnd h => cases h
    | quiet _ h => cases h
    | unknown _ _ h => cases h
    | started =>
      exact Link.Bare.single_schedule (l := { (World.fresh tokens).link with running := true })
        ⟨rfl,rfl,rfl⟩ none 0
  have hrest := Machine.guarded_and (World.next N S) _ (fun _ o => o.task ≠ .start) _ os hg.2
    (Machine.guarded_of_forall _ _ _ os fun o ho _ => hstart o ho)
  have hall := Machine.guarded_invariant (World.next N S) _ (fun w => w.link.Single)
    (fun w o h hok => h.moves (World.moves_next N S w o) hok.2 hok.1) _ os hfirst hrest
  exact hall.one

def failedThenClosed : List Occurrence :=
  [⟨.attemptConnect 0 .returns,{}⟩,⟨.opened 0,drawing⟩,⟨.failed 0,{}⟩,
    ⟨.attemptConnect 0 .returns,{}⟩,⟨.opened 1,drawing⟩,⟨.closed 0 closeNormal,{}⟩]

theorem one_connection_in_flight_failedThenClosed :
    (after transparent phone {} (⟨.start,{}⟩ :: failedThenClosed)).manager.scheduled.length +
      (after transparent phone {} (⟨.start,{}⟩ :: failedThenClosed)).live.length ≤ 1 :=
  one_connection_in_flight transparent phone {} {} failedThenClosed (by simp [failedThenClosed])
    (by decide +kernel)

def closingAndClosed : List Occurrence :=
  [⟨.start,{}⟩,⟨.attemptConnect 0 .returns,{}⟩,⟨.opened 0,drawing⟩,⟨.closed 0 1001,{}⟩,
    ⟨.closed 0 1001,{}⟩]

theorem two_connects_after_one_close :
    (after transparent phone {} closingAndClosed).manager.scheduled.length = 2 ∧
      (after transparent phone {} (closingAndClosed ++
        [⟨.attemptConnect 0 .returns,{}⟩,⟨.attemptConnect 0 .returns,{}⟩])).live = [2,1] := by
  decide +kernel

end SecureGateway.Sdk
