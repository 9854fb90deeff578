import SecureGateway.Lib.Replies
import SecureGateway.Lib.Table
import SecureGateway.Relay.Config
import Mathlib.Algebra.Order.Ring.Int

/-!
# Strikes and bans (`ratelimit.go`)

`BanTracker` keeps one counter and one window start per key. Every call carries its reading of
the clock; instants and durations are in nanoseconds, `0` being Go's zero time.

The counter agrees with "threshold strikes within `strikeWindow`" only while the window's edge
does not cut through strikes that were counted together (`Unsplit`), and `Sweep` goes
unnoticed only while it drops no entry at the instant its ban ends (`SweepClear`).
-/

namespace SecureGateway.RateLimit

/- `t.Sub(u)`, which saturates at the ends of `time.Duration`. -/
def sub (t u : ℤ) : ℤ := max (-2 ^ 63) (min (2 ^ 63 - 1) (t - u))

theorem lt_sub_iff {t u : ℤ} {d : ℤ} (h0 : 0<d) (h : d<2 ^ 63 - 1) : d < sub t u ↔ d<t - u := by
  unfold sub
  omega

theorem sub_mono {t t' : ℤ} (u : ℤ) (h : t≤t') : sub t u ≤ sub t' u := by
  unfold sub
  omega

/- `banEntry`, with the key it is stored under. -/
structure BanEntry where
  key : String
  strikes : ℕ
  windowStart : ℤ
  bannedUntil : ℤ

structure BanTracker where
  threshold : ℤ
  strikeWindow : ℤ
  banWindow : ℤ
  entries : Table BanEntry BanEntry.key

def newBanTracker (threshold : ℤ) (strikeWindow banWindow : ℤ) : BanTracker :=
  ⟨threshold,strikeWindow,banWindow,.empty⟩

namespace BanTracker

def disabled (b : BanTracker) : Bool := b.threshold ≤ 0

def stale (b : BanTracker) (now : ℤ) (e : BanEntry) : Bool :=
  b.strikeWindow < sub now e.windowStart

/- The entry a strike counts in: a new one has the zero time as its deadline. -/
def opened (b : BanTracker) (now : ℤ) (key : String) (found : Option BanEntry) : BanEntry :=
  let e := found.getD ⟨key,0,now,0⟩
  if e.bannedUntil < now && b.stale now e then { e with strikes := 0, windowStart := now } else e

def counted (b : BanTracker) (now : ℤ) (e : BanEntry) : Bool × BanEntry :=
  if b.threshold ≤ e.strikes + 1 then
    (true,{ e with bannedUntil := now + b.banWindow, strikes := 0, windowStart := now })
  else (false,{ e with strikes := e.strikes + 1 })

def strike (b : BanTracker) (now : ℤ) (key : String) : Bool × BanTracker :=
  if b.disabled then (false,b)
  else
    let (ban,e) := b.counted now (b.opened now key (b.entries.get key))
    (ban,{ b with entries := b.entries.put e })

def banned (b : BanTracker) (now : ℤ) (key : String) : Bool × ℤ :=
  if b.disabled then (false,0)
  else
    match b.entries.get key with
    | none => (false,0)
    | some e => if now<e.bannedUntil then (true,sub e.bannedUntil now) else (false,0)

def activeBans (b : BanTracker) (now : ℤ) : ℕ :=
  if b.disabled then 0 else b.entries.count fun e => now < e.bannedUntil

def sweep (b : BanTracker) (now : ℤ) : BanTracker :=
  if b.disabled then b
  else
    { b with entries := b.entries.eraseRows fun e => !(now<e.bannedUntil : Bool) && b.stale now e }

theorem opened_key (b : BanTracker) (now : ℤ) (key : String) :
    (b.opened now key (b.entries.get key)).key=key := by
  unfold opened
  cases hget : b.entries.get key with
  | none => simp only [Option.getD_none]; split <;> rfl
  | some e =>
    have hkey:=Table.key_of_get hget
    simp only [Option.getD_some]
    split <;> exact hkey

theorem counted_key (b : BanTracker) (now : ℤ) (e : BanEntry) : (b.counted now e).2.key=e.key := by
  unfold counted
  split <;> rfl

theorem strike_eq {b : BanTracker} (hb : b.disabled=false) (now : ℤ) (key : String) :
    let x := b.counted now (b.opened now key (b.entries.get key))
    b.strike now key=(x.1,{ b with entries := b.entries.put x.2 }) := by
  simp only [strike,hb,Bool.false_eq_true,if_false]

theorem get_strike {b : BanTracker} (hb : b.disabled=false) (now : ℤ) (key k : String) :
    (b.strike now key).2.entries.get k =
      if key=k then some (b.counted now (b.opened now key (b.entries.get key))).2
      else b.entries.get k := by
  simp only [strike_eq hb,Table.get_put,counted_key,opened_key]

end BanTracker

structure Struck where
  now : ℤ
  key : String
  ban : Bool

/- The tracker with the strikes it has answered, the newest first. -/
structure Watched where
  tracker : BanTracker
  history : List Struck

def Watched.strike (s : Watched) (c : ℤ × String) : Watched :=
  ⟨(s.tracker.strike c.1 c.2).2,⟨c.1,c.2,(s.tracker.strike c.1 c.2).1⟩ :: s.history⟩

/- The strikes of one key, each with whether it decided on a ban. -/
def strikesOf (key : String) (h : List Struck) : List (ℤ × Bool) :=
  (h.filter fun x => x.key == key).map fun x => (x.now,x.ban)

/- The strikes after the last ban decision. -/
def sinceBan : List (ℤ × Bool) → List ℤ
  | [] => []
  | (t,ban) :: h => if ban then [] else t :: sinceBan h

/- The same with the instant of the decision itself, where the window starts anew. -/
def marks : List (ℤ × Bool) → List ℤ
  | [] => []
  | (t,ban) :: h => if ban then [t] else t :: marks h

def lastBan : List (ℤ × Bool) → Option ℤ
  | [] => none
  | (t,ban) :: h => if ban then some t else lastBan h

/-- The strikes in `[now - window, now]` since the last ban, with the one at `now`. -/
def recent (window now : ℤ) (h : List (ℤ × Bool)) : ℕ :=
  ((sinceBan h).filter fun t => now - window ≤ t).length + 1

/- The clock does not go back. -/
def InOrder (s : Watched) (c : ℤ × String) : Prop := ∀ x ∈ s.history, x.now≤c.1

/-- The clock stands past the zero time, a strike during a ban comes at most
`strikeWindow` after the decision, and of two marks within `strikeWindow` of each other
the window holds both or neither. -/
def Unsplit (s : Watched) (c : ℤ × String) : Prop :=
  0 < c.1 ∧
  (∀ d ∈ lastBan (strikesOf c.2 s.history),
    c.1 ≤ d + s.tracker.banWindow → c.1 - d ≤ s.tracker.strikeWindow) ∧
  ∀ x ∈ marks (strikesOf c.2 s.history), ∀ y ∈ marks (strikesOf c.2 s.history),
    y - x ≤ s.tracker.strikeWindow → c.1 - y ≤ s.tracker.strikeWindow →
      c.1 - x ≤ s.tracker.strikeWindow

instance (s : Watched) (c : ℤ × String) : Decidable (InOrder s c) :=
  inferInstanceAs (Decidable (∀ x ∈ s.history, x.now≤c.1))

instance (s : Watched) (c : ℤ × String) : Decidable (Unsplit s c) :=
  inferInstanceAs (Decidable (_ ∧ (∀ d ∈ lastBan _, _ → _) ∧ ∀ x ∈ marks _, ∀ y ∈ marks _, _ → _))

/- What an entry says about the strikes of its key. -/
structure Tallies (window ban : ℤ) (h : List (ℤ × Bool)) (e : BanEntry) : Prop where
  strikes : e.strikes = ((sinceBan h).filter fun t => e.windowStart ≤ t).length
  near : ∀ y ∈ marks h, e.windowStart≤y → y - e.windowStart ≤ window
  far : ∀ y ∈ marks h, y<e.windowStart → window < e.windowStart - y
  free : lastBan h = none → e.bannedUntil=0
  deadline : ∀ d ∈ lastBan h, e.bannedUntil = d + ban ∧ d≤e.windowStart

theorem mem_marks_of_sinceBan {h : List (ℤ × Bool)} {y : ℤ} (hy : y∈sinceBan h) : y∈marks h := by
  induction h with
  | nil => cases hy
  | cons x h ih =>
    obtain ⟨t,ban⟩:=x
    cases ban with
    | true => cases hy
    | false =>
      rcases List.mem_cons.1 hy with rfl | hy
      · exact List.mem_cons_self
      · exact List.mem_cons_of_mem _ (ih hy)

theorem lastBan_mem_marks {h : List (ℤ × Bool)} {d : ℤ} (hd : d∈lastBan h) : d∈marks h := by
  induction h with
  | nil => cases hd
  | cons x h ih =>
    obtain ⟨t,ban⟩:=x
    cases ban with
    | true => cases hd; exact List.mem_cons_self
    | false => exact List.mem_cons_of_mem _ (ih hd)

theorem marks_subset {h : List (ℤ × Bool)} {y : ℤ} (hy : y∈marks h) : ∃ ban,(y,ban)∈h := by
  induction h with
  | nil => cases hy
  | cons x h ih =>
    obtain ⟨t,ban⟩:=x
    have hcases : y=t ∨ y∈marks h := by
      cases ban with
      | true => exact .inl (List.mem_singleton.1 hy)
      | false => exact List.mem_cons.1 hy
    rcases hcases with rfl | hy
    · exact ⟨ban,List.mem_cons_self⟩
    · obtain ⟨ban',hmem⟩:=ih hy
      exact ⟨ban',List.mem_cons_of_mem _ hmem⟩

section Step
variable {b : BanTracker} {now : ℤ} {h : List (ℤ × Bool)} {e : BanEntry}

/- The entry after the check for a stale window. -/
theorem Tallies.restart (hw : 0<b.strikeWindow) (hw' : b.strikeWindow<2 ^ 63 - 1)
    (ht : Tallies b.strikeWindow b.banWindow h e) (hpos : 0<now)
    (hstart : e.windowStart∈marks h ∨ e.windowStart=now) (hle : ∀ y∈marks h,y≤now)
    (hban : ∀ d∈lastBan h,now≤d+b.banWindow → now - d≤b.strikeWindow)
    (hunsplit : ∀ x∈marks h,∀ y∈marks h,y - x≤b.strikeWindow →
      now - y≤b.strikeWindow → now - x≤b.strikeWindow) (key : String) :
    let e' := b.opened now key (some e)
    Tallies b.strikeWindow b.banWindow h e' ∧ now - e'.windowStart≤b.strikeWindow ∧
      e'.windowStart≤now ∧ (e'.windowStart∈marks h ∨ e'.windowStart=now) := by
  simp only [BanTracker.opened,Option.getD_some]
  split
  · next hstale =>
    simp only [BanTracker.stale,Bool.and_eq_true,decide_eq_true_eq,lt_sub_iff hw hw'] at hstale
    have hmark : e.windowStart∈marks h := hstart.resolve_right (by omega)
    -- whatever was counted with the window's first strike is outside as well
    have hout : ∀ y∈marks h,b.strikeWindow<now - y := by
      intro y hy
      rcases lt_or_ge y e.windowStart with hlt | hge
      · have := ht.far y hy hlt
        omega
      by_contra hin
      have := hunsplit _ hmark y hy (ht.near y hy hge) (by omega)
      omega
    refine ⟨⟨?_,?_,?_,ht.free,?_⟩,by simp only; omega,le_rfl,.inr rfl⟩
    · rw [List.filter_eq_nil_iff.2,List.length_nil]
      intro y hy
      have := hout y (mem_marks_of_sinceBan hy)
      simp only [decide_eq_true_eq]
      omega
    · intro y hy hge
      have := hout y hy
      simp only at hge
      omega
    · exact fun y hy _ => hout y hy
    · exact fun d hd => ⟨(ht.deadline d hd).1,hle d (lastBan_mem_marks hd)⟩
  · next hfresh =>
    have hin : now - e.windowStart≤b.strikeWindow := by
      simp only [BanTracker.stale,Bool.and_eq_true,decide_eq_true_eq,lt_sub_iff hw hw',
        not_and,not_lt] at hfresh
      cases hlast : lastBan h with
      | none => exact hfresh (by rw [ht.free hlast]; exact hpos)
      | some d =>
        obtain ⟨huntil,hd⟩:=ht.deadline d hlast
        rcases lt_or_ge e.bannedUntil now with hlt | hge
        · exact hfresh hlt
        · have := hban d hlast (by omega)
          omega
    refine ⟨ht,hin,?_,hstart⟩
    rcases hstart with hmark | heq
    · exact hle _ hmark
    · exact heq.le

theorem Tallies.recent_eq {W B : ℤ} (ht : Tallies W B h e) (hin : now - e.windowStart≤W)
    (hle : e.windowStart≤now) : recent W now h=e.strikes+1 := by
  have hfilter : (sinceBan h).filter (fun t => decide (now - W≤t)) =
      (sinceBan h).filter fun t => decide (e.windowStart≤t) := by
    refine List.filter_congr fun y hy => decide_eq_decide.2 ?_
    have hmark:=mem_marks_of_sinceBan hy
    constructor
    · intro hge
      by_contra hlt
      have := ht.far y hmark (by omega)
      omega
    · intro hge
      omega
  rw [recent,hfilter,← ht.strikes]

theorem Tallies.counted (hw : 0<b.strikeWindow) (ht : Tallies b.strikeWindow b.banWindow h e)
    (hin : now - e.windowStart≤b.strikeWindow) (hle : e.windowStart≤now)
    (hstart : e.windowStart∈marks h ∨ e.windowStart=now) :
    Tallies b.strikeWindow b.banWindow ((now,(b.counted now e).1)::h) (b.counted now e).2 ∧
      (b.counted now e).2.windowStart∈marks ((now,(b.counted now e).1)::h) := by
  unfold BanTracker.counted
  split
  · refine ⟨⟨rfl,?_,?_,?_,?_⟩,List.mem_cons_self⟩
    · intro y hy _
      rw [List.mem_singleton.1 hy,Int.sub_self]
      exact hw.le
    · intro y hy hlt
      exact absurd (List.mem_singleton.1 hy) hlt.ne
    · intro hnone
      cases hnone
    · intro d hd
      cases hd
      exact ⟨rfl,le_rfl⟩
  · refine ⟨⟨?_,?_,?_,ht.free,ht.deadline⟩,?_⟩
    · simp only [sinceBan,Bool.false_eq_true,if_false,List.filter_cons,hle,decide_true,
        if_true,List.length_cons,ht.strikes]
    · intro y hy hge
      rcases List.mem_cons.1 hy with rfl | hy
      · exact hin
      · exact ht.near y hy hge
    · intro y hy hlt
      rcases List.mem_cons.1 hy with rfl | hy
      · simp only at hlt
        omega
      · exact ht.far y hy hlt
    · rcases hstart with hmark | heq
      · exact List.mem_cons_of_mem _ hmark
      · exact List.mem_cons.2 (.inl heq)

end Step

theorem strikesOf_cons_self (now : ℤ) (key : String) (ban : Bool) (h : List Struck) :
    strikesOf key (⟨now,key,ban⟩::h)=(now,ban)::strikesOf key h := by
  simp [strikesOf]

theorem strikesOf_cons_ne {now : ℤ} {key k : String} {ban : Bool} (hk : key≠k)
    (h : List Struck) : strikesOf k (⟨now,key,ban⟩::h)=strikesOf k h := by
  simp [strikesOf,hk]

theorem InOrder.marks_le {s : Watched} {c : ℤ × String} (ho : InOrder s c) :
    ∀ y∈marks (strikesOf c.2 s.history), y≤c.1 := by
  intro y hy
  obtain ⟨ban,hmem⟩:=marks_subset hy
  simp only [strikesOf,List.mem_map,List.mem_filter] at hmem
  obtain ⟨x,⟨hx,-⟩,heq⟩:=hmem
  cases heq
  exact ho x hx

section Run
variable {th W B : ℤ}

/-- Every key that was struck has an entry that tallies its strikes. -/
structure Kept (th W B : ℤ) (s : Watched) : Prop where
  threshold : s.tracker.threshold=th
  window : s.tracker.strikeWindow=W
  ban : s.tracker.banWindow=B
  fresh : ∀ k, s.tracker.entries.get k = none → strikesOf k s.history = []
  tallies : ∀ k e, s.tracker.entries.get k = some e → Tallies W B (strikesOf k s.history) e ∧
    e.windowStart ∈ marks (strikesOf k s.history)

theorem kept_start : Kept th W B ⟨newBanTracker th W B,[]⟩ :=
  ⟨rfl,rfl,rfl,fun _ _ => rfl,fun k e he => by simp [newBanTracker] at he⟩

theorem Kept.enabled (hth : 1≤th) {s : Watched} (hk : Kept th W B s) :
    s.tracker.disabled=false := by
  simp only [BanTracker.disabled,hk.threshold,decide_eq_false_iff_not]
  omega

/- The entry a strike counts in tallies the strikes before it. -/
theorem Kept.opened (hw : 0<W) (hw' : W<2 ^ 63 - 1) {s : Watched} {c : ℤ × String}
    (hk : Kept th W B s) (ho : InOrder s c) (hu : Unsplit s c) :
    let e := s.tracker.opened c.1 c.2 (s.tracker.entries.get c.2)
    Tallies W B (strikesOf c.2 s.history) e ∧ c.1 - e.windowStart≤W ∧
      e.windowStart≤c.1 ∧
      (e.windowStart∈marks (strikesOf c.2 s.history) ∨ e.windowStart=c.1) := by
  obtain ⟨rfl,rfl,rfl,hfresh,htallies⟩:=hk
  obtain ⟨hpos,hban,hunsplit⟩:=hu
  cases hget : s.tracker.entries.get c.2 with
  | none =>
    have hnew : Tallies s.tracker.strikeWindow s.tracker.banWindow (strikesOf c.2 s.history)
        ⟨c.2,0,c.1,0⟩ := by
      rw [hfresh c.2 hget]
      exact ⟨rfl,by simp [marks],by simp [marks],fun _ => rfl,by simp [lastBan]⟩
    exact hnew.restart hw hw' hpos (.inr rfl) ho.marks_le hban hunsplit c.2
  | some e =>
    obtain ⟨ht,hstart⟩:=htallies c.2 e hget
    exact ht.restart hw hw' hpos (.inl hstart) ho.marks_le hban hunsplit c.2

theorem Kept.strike (hth : 1≤th) (hw : 0<W) (hw' : W<2 ^ 63 - 1) {s : Watched} {c : ℤ × String}
    (hk : Kept th W B s) (ho : InOrder s c) (hu : Unsplit s c) : Kept th W B (s.strike c) := by
  obtain ⟨ht,hin,hle,hstart⟩:=hk.opened hw hw' ho hu
  have hb:=hk.enabled hth
  obtain ⟨rfl,rfl,rfl,hfresh,htallies⟩:=hk
  obtain ⟨htallied,hmark⟩:=ht.counted hw hin hle hstart
  have hget:=BanTracker.get_strike hb c.1 c.2
  have heq:=BanTracker.strike_eq hb c.1 c.2
  refine ⟨?_,?_,?_,fun k hnone => ?_,fun k e he => ?_⟩
  · rw [Watched.strike,heq]
  · rw [Watched.strike,heq]
  · rw [Watched.strike,heq]
  · rw [Watched.strike,hget] at hnone
    split at hnone
    · cases hnone
    next hne =>
    rw [Watched.strike,strikesOf_cons_ne hne]
    exact hfresh k hnone
  · rw [Watched.strike,hget] at he
    split at he
    · next hkey =>
      subst hkey
      cases he
      rw [Watched.strike,strikesOf_cons_self,heq]
      exact ⟨htallied,hmark⟩
    · next hne =>
      rw [Watched.strike,strikesOf_cons_ne hne]
      exact htallies k e he

end Run

/- A ban that was just decided. -/
theorem banned_of_strike {b : BanTracker} (hb : b.disabled=false) {now : ℤ} {key : String}
    (hban : (b.strike now key).1=true) (t : ℤ) :
    (b.strike now key).2.banned t key =
      if t<now+b.banWindow then (true,sub (now+b.banWindow) t) else (false,0) := by
  have hget:=BanTracker.get_strike hb now key key
  have hdis : (b.strike now key).2.disabled=false := by
    rw [BanTracker.strike_eq hb]
    exact hb
  rw [BanTracker.strike_eq hb] at hban
  simp only [BanTracker.counted] at hban hget
  split at hban
  · next hth => simp [BanTracker.banned,hdis,hget,hth]
  · cases hban

theorem strike_iff_recent (threshold strikeWindow banWindow : ℤ) (hth : 1≤threshold)
    (hw : 0<strikeWindow) (hmax : strikeWindow < 2 ^ 63 - 1) (calls : List (ℤ × String))
    (now : ℤ) (key : String)
    (hclock : Machine.Guarded Watched.strike InOrder
      ⟨newBanTracker threshold strikeWindow banWindow,[]⟩ (calls ++ [(now,key)]))
    (hunsplit : Machine.Guarded Watched.strike Unsplit
      ⟨newBanTracker threshold strikeWindow banWindow,[]⟩ (calls ++ [(now,key)])) :
    let s := Machine.run Watched.strike ⟨newBanTracker threshold strikeWindow banWindow,[]⟩ calls
    let struck := s.tracker.strike now key
    (struck.1=true ↔ threshold ≤ recent strikeWindow now (strikesOf key s.history)) ∧
      (struck.1=true → ∀ t, struck.2.banned t key =
        if t < now + banWindow then (true,sub (now + banWindow) t) else (false,0)) := by
  intro s struck
  have hboth := Machine.guarded_and _ _ _ _ _ hclock hunsplit
  obtain ⟨hpre,⟨ho,hu⟩,-⟩ := (Machine.guarded_append _ _ _ _ _).1 hboth
  have hk : Kept threshold strikeWindow banWindow s :=
    Machine.guarded_invariant _ _ _ (fun _ _ hk hc => hk.strike hth hw hmax hc.1 hc.2) _ _
      kept_start hpre
  obtain ⟨ht,hin,hle,-⟩ := hk.opened hw hmax ho hu
  have hb := hk.enabled hth
  refine ⟨?_,fun hban t => ?_⟩
  · rw [ht.recent_eq hin hle,show struck = _ from BanTracker.strike_eq hb now key]
    simp only [BanTracker.counted,hk.threshold]
    split
    · next hge => exact iff_of_true rfl (by omega)
    · next hlt => exact iff_of_false Bool.false_ne_true (by omega)
  · rw [← hk.ban]
    exact banned_of_strike hb hban t

theorem strike_iff_recent_third :
    let s := Machine.run Watched.strike ⟨newBanTracker 3 (60*second) (600*second),[]⟩
      [(1*second,"ip"),(20*second,"ip")]
    (s.tracker.strike (61*second) "ip").1 = true ∧
      (s.tracker.strike (61*second) "ip").2.banned (600*second) "ip" = (true,61*second) := by
  have h := strike_iff_recent 3 (60*second) (600*second) (by decide) (by decide) (by decide)
    [(1*second,"ip"),(20*second,"ip")] (61*second) "ip" (by decide +kernel)
    (by decide +kernel)
  have hban := h.1.2 (by decide +kernel)
  exact ⟨hban,h.2 hban (600*second)⟩

/-- Three strikes within 60 s are not enough if the first opened no window, and during a
ban two strikes 100 s apart are. -/
theorem strike_ne_recent :
    (let s := Machine.run Watched.strike ⟨newBanTracker 3 (60*second) (600*second),[]⟩
      [(1*second,"ip"),(50*second,"ip"),(62*second,"ip")]
    (s.tracker.strike (63*second) "ip").1 = false ∧
      recent (60*second) (63*second) (strikesOf "ip" s.history) = 3) ∧
    (let s := Machine.run Watched.strike ⟨newBanTracker 2 (60*second) (600*second),[]⟩
      [(1*second,"ip"),(2*second,"ip"),(100*second,"ip")]
    (s.tracker.strike (200*second) "ip").1 = true ∧
      recent (60*second) (200*second) (strikesOf "ip" s.history) = 1) := by
  decide +kernel

inductive Call
  | strike (now : ℤ) (key : String)
  | banned (now : ℤ) (key : String)
  | activeBans (now : ℤ)
  | sweep (now : ℤ)

inductive Answer
  | strike (ban : Bool)
  | banned (ban : Bool) (remaining : ℤ)
  | activeBans (n : ℕ)
  | swept
  deriving DecidableEq

def Call.now : Call → ℤ
  | strike now _ => now
  | banned now _ => now
  | activeBans now => now
  | sweep now => now

def Call.isSweep : Call → Bool
  | sweep _ => true
  | _ => false

def BanTracker.serve (b : BanTracker) : Call → Answer × BanTracker
  | .strike now key => (.strike (b.strike now key).1,(b.strike now key).2)
  | .banned now key => (.banned (b.banned now key).1 (b.banned now key).2,b)
  | .activeBans now => (.activeBans (b.activeBans now),b)
  | .sweep now => (.swept,b.sweep now)

/-- A sweep comes after the zero time, and not at the instant the ban of an entry with a
stale window ends. -/
def SweepClear (b : BanTracker) : Call → Prop
  | .sweep now => 0 < now ∧ ∀ e ∈ b.entries.list (b.stale now), e.bannedUntil≠now
  | _ => True

instance (b : BanTracker) : (c : Call) → Decidable (SweepClear b c)
  | .sweep now =>
    inferInstanceAs (Decidable (0<now ∧ ∀ e ∈ b.entries.list (b.stale now), e.bannedUntil≠now))
  | .strike _ _ | .banned _ _ | .activeBans _ => inferInstanceAs (Decidable True)

/-- An entry of a tracker that was swept, on the left, and of one that was not: from `now`
on no call tells them apart. -/
inductive Alike (window now : ℤ) : Option BanEntry → Option BanEntry → Prop
  | same (x : Option BanEntry) : Alike window now x x
  | lapsed (e : BanEntry) {u u' : ℤ} (hu : u<now) (hu' : u'<now) :
      Alike window now (some { e with bannedUntil := u }) (some { e with bannedUntil := u' })
  | dropped (e : BanEntry) (hpos : 0<now) (hu : e.bannedUntil<now)
      (hs : window < sub now e.windowStart) : Alike window now none (some e)

theorem Alike.later {W now t : ℤ} {x x' : Option BanEntry} (h : now≤t)
    (ha : Alike W now x x') : Alike W t x x' := by
  cases ha with
  | same => exact .same x
  | lapsed e hu hu' => exact .lapsed e (by omega) (by omega)
  | dropped e hpos hu hs =>
    exact .dropped e (by omega) (by omega) (lt_of_lt_of_le hs (sub_mono e.windowStart h))

section Alike
variable {b : BanTracker} {now : ℤ} {x x' : Option BanEntry}

/- Both count the strike in the same window. -/
theorem Alike.opened (hw : 0<b.strikeWindow) (ha : Alike b.strikeWindow now x x')
    (key : String) (hkey : ∀ e∈x',e.key=key) :
    Alike b.strikeWindow now (some (b.opened now key x)) (some (b.opened now key x')) := by
  cases ha with
  | same => exact .same _
  | lapsed e hu hu' =>
    simp only [BanTracker.opened,Option.getD_some,hu,hu',BanTracker.stale]
    split
    · exact .lapsed { e with strikes := 0, windowStart := now } hu hu'
    · exact .lapsed e hu hu'
  | dropped e hpos hu hs =>
    have hnew : ¬ b.strikeWindow < sub now now := by
      unfold sub
      omega
    have hek:=hkey e rfl
    subst hek
    simp only [BanTracker.opened,Option.getD_some,Option.getD_none,BanTracker.stale,hnew,hu,
      hs,decide_false,Bool.and_false,Bool.false_eq_true,if_false,decide_true,Bool.and_self,
      if_true]
    exact .lapsed ⟨e.key,0,now,0⟩ hpos hu

theorem Alike.counted {W : ℤ} {e e' : BanEntry} (ha : Alike W now (some e) (some e')) :
    (b.counted now e).1=(b.counted now e').1 ∧
      Alike W now (some (b.counted now e).2) (some (b.counted now e').2) := by
  cases ha with
  | same => exact ⟨rfl,.same _⟩
  | lapsed e hu hu' =>
    unfold BanTracker.counted
    split
    · exact ⟨rfl,.same _⟩
    · exact ⟨rfl,.lapsed { e with strikes := e.strikes+1 } hu hu'⟩

end Alike

theorem Alike.banned {W now : ℤ} {x x' : Option BanEntry} (ha : Alike W now x x') :
    (∃ e∈x,now<e.bannedUntil) ↔ ∃ e∈x',now<e.bannedUntil := by
  cases ha with
  | same => exact Iff.rfl
  | lapsed e hu hu' => simp [lt_asymm hu,lt_asymm hu']
  | dropped e hpos hu hs => simp [hu.le]

/-- A tracker, and what it would be without the sweeps. -/
structure Shadows (now : ℤ) (b b' : BanTracker) : Prop where
  enabled : b.disabled=false
  window : 0<b.strikeWindow
  policy : b' = { b with entries := b'.entries }
  alike : ∀ k, Alike b.strikeWindow now (b.entries.get k) (b'.entries.get k)

section Shadows
variable {now : ℤ} {b b' : BanTracker}

theorem Shadows.enabled' (h : Shadows now b b') : b'.disabled=false := by
  rw [h.policy]
  exact h.enabled

theorem Shadows.strike (h : Shadows now b b') (key : String) :
    (b.strike now key).1=(b'.strike now key).1 ∧
      Shadows now (b.strike now key).2 (b'.strike now key).2 := by
  have hopened:=(h.alike key).opened h.window key fun e he => Table.key_of_get he
  obtain ⟨hans,hcounted⟩:=hopened.counted (b := b)
  have hget:=BanTracker.get_strike h.enabled now key
  have hget':=BanTracker.get_strike h.enabled' now key
  have heq:=BanTracker.strike_eq h.enabled now key
  have heq':=BanTracker.strike_eq h.enabled' now key
  have hopen : b'.opened=b.opened := by rw [h.policy]; rfl
  have hcount : b'.counted=b.counted := by rw [h.policy]; rfl
  rw [hcount,hopen] at hget' heq'
  refine ⟨?_,?_,?_,?_,fun k => ?_⟩
  · rw [heq,heq']
    exact hans
  · rw [heq]
    exact h.enabled
  · rw [heq]
    exact h.window
  · rw [heq,heq',h.policy]
  · rw [hget,hget',heq]
    split
    · exact hcounted
    · exact h.alike k

theorem Shadows.banned (h : Shadows now b b') (key : String) :
    b.banned now key=b'.banned now key := by
  have ha:=h.alike key
  simp only [BanTracker.banned,h.enabled,h.enabled']
  generalize b.entries.get key=x at ha
  generalize b'.entries.get key=x' at ha
  cases ha with
  | same => rfl
  | lapsed e hu hu' => simp [lt_asymm hu,lt_asymm hu']
  | dropped e hpos hu hs => simp [hu.le]

theorem Shadows.activeBans (h : Shadows now b b') : b.activeBans now=b'.activeBans now := by
  simp only [BanTracker.activeBans,h.enabled,h.enabled',Bool.false_eq_true,if_false]
  refine Nat.le_antisymm (Table.count_le_of_imp ?_) (Table.count_le_of_imp ?_)
  · intro k e he hban
    simpa using (h.alike k).banned.1 ⟨e,he,by simpa using hban⟩
  · intro k e he hban
    simpa using (h.alike k).banned.2 ⟨e,he,by simpa using hban⟩

theorem Shadows.sweep (h : Shadows now b b') (hclear : SweepClear b (.sweep now)) :
    Shadows now (b.sweep now) b' := by
  obtain ⟨hpos,hclear⟩:=hclear
  have heq : b.sweep now = { b with entries := (b.sweep now).entries } := by
    simp [BanTracker.sweep,h.enabled]
  refine ⟨?_,?_,?_,fun k => ?_⟩
  · rw [heq]
    exact h.enabled
  · rw [heq]
    exact h.window
  · rw [heq]
    exact h.policy
  have ha:=h.alike k
  simp only [BanTracker.sweep,h.enabled,Bool.false_eq_true,if_false,Table.get_eraseRows]
  cases hget : b.entries.get k with
  | none => rwa [hget] at ha
  | some e =>
    rw [hget] at ha
    rw [Option.filter_some]
    split
    · exact ha
    next hdrop =>
    simp only [Bool.not_eq_true',Bool.not_eq_false,Bool.and_eq_true,
      decide_eq_false_iff_not,not_lt] at hdrop
    obtain ⟨hu,hs⟩:=hdrop
    have hne:=hclear e (Table.mem_list_of_get hget hs)
    have hstale : b.strikeWindow < sub now e.windowStart := of_decide_eq_true hs
    generalize b'.entries.get k=x' at ha
    cases ha with
    | same => exact .dropped e hpos (lt_of_le_of_ne hu hne) hstale
    | lapsed e _ hu' => exact .dropped _ hpos hu' hstale

/- Any call but a sweep. -/
theorem Shadows.serve (h : Shadows now b b') {c : Call} (hc : c.isSweep=false) (hle : now≤c.now) :
    (b.serve c).1=(b'.serve c).1 ∧ (b.serve c).1 ≠ .swept ∧
      Shadows c.now (b.serve c).2 (b'.serve c).2 := by
  have hlater : Shadows c.now b b' := { h with alike := fun k => (h.alike k).later hle }
  cases c with
  | strike t key =>
    obtain ⟨hans,hnext⟩:=hlater.strike key
    exact ⟨congrArg Answer.strike hans,nofun,hnext⟩
  | banned t key =>
    have hans : b.banned t key=b'.banned t key := hlater.banned key
    exact ⟨by simp only [BanTracker.serve,hans],nofun,hlater⟩
  | activeBans t => exact ⟨congrArg Answer.activeBans hlater.activeBans,nofun,hlater⟩
  | sweep t => cases hc

end Shadows

/-- The answers with the sweeps' own, which say nothing, left out. -/
def results (b : BanTracker) (calls : List Call) : List Answer :=
  (Machine.answers BanTracker.serve b calls).filter (· ≠ .swept)

theorem results_cons (b : BanTracker) (c : Call) (calls : List Call) :
    results b (c::calls) =
      if (b.serve c).1 = .swept then results (b.serve c).2 calls
      else (b.serve c).1::results (b.serve c).2 calls := by
  simp only [results,Machine.answers,Machine.moved,List.filter_cons,decide_not]
  split <;> simp_all

theorem Shadows.results {now : ℤ} {b b' : BanTracker} {calls : List Call} (h : Shadows now b b')
    (hclock : (now::calls.map Call.now).Pairwise (· ≤ ·))
    (hclear : Machine.Guarded (Machine.moved BanTracker.serve) SweepClear b calls) :
    results b calls=results b' (calls.filter fun c => !c.isSweep) := by
  induction calls generalizing b b' now with
  | nil => rfl
  | cons c calls ih =>
    have hle : now≤c.now := (List.pairwise_cons.1 hclock).1 _ List.mem_cons_self
    have hrest:=(List.pairwise_cons.1 hclock).2
    cases hc : c.isSweep with
    | false =>
      obtain ⟨hans,hne,hnext⟩:=h.serve hc hle
      rw [List.filter_cons_of_pos (by simp [hc]),results_cons,results_cons,← hans,if_neg hne,
        if_neg hne,ih hnext hrest hclear.2]
    | true =>
      cases c with
      | sweep t =>
        have hlater : Shadows t b b' := { h with alike := fun k => (h.alike k).later hle }
        exact ih (hlater.sweep hclear.1) hrest hclear.2
      | _ => cases hc

theorem results_of_disabled {b : BanTracker} (hb : b.disabled=true) (calls : List Call) :
    results b calls=results b (calls.filter fun c => !c.isSweep) := by
  induction calls with
  | nil => rfl
  | cons c calls ih =>
    have hsame : (b.serve c).2=b := by
      cases c <;> simp [BanTracker.serve,BanTracker.strike,BanTracker.sweep,hb]
    cases hc : c.isSweep with
    | false => rw [List.filter_cons_of_pos (by simp [hc]),results_cons,results_cons,hsame,ih]
    | true =>
      have hswept : (b.serve c).1 = .swept := by cases c <;> first | rfl | cases hc
      rw [List.filter_cons_of_neg (by simp [hc]),results_cons,if_pos hswept,hsame,ih]

/-- Sweeps that come after the zero time and never at the end of a ban with a stale window
change no answer. -/
theorem sweep_unobservable (threshold strikeWindow banWindow : ℤ) (hw : 0<strikeWindow)
    (calls : List Call) (hclock : (calls.map Call.now).Pairwise (· ≤ ·))
    (hclear : Machine.Guarded (Machine.moved BanTracker.serve) SweepClear
      (newBanTracker threshold strikeWindow banWindow) calls) :
    results (newBanTracker threshold strikeWindow banWindow) calls =
      results (newBanTracker threshold strikeWindow banWindow)
        (calls.filter fun c => !c.isSweep) := by
  cases hb : (newBanTracker threshold strikeWindow banWindow).disabled with
  | true => exact results_of_disabled hb calls
  | false =>
    cases calls with
    | nil => rfl
    | cons c calls =>
      have hstart : Shadows c.now (newBanTracker threshold strikeWindow banWindow)
          (newBanTracker threshold strikeWindow banWindow) := ⟨hb,hw,rfl,fun _ => .same _⟩
      refine hstart.results (List.pairwise_cons.2 ⟨fun t ht => ?_,hclock⟩) hclear
      rcases List.mem_cons.1 ht with rfl | ht
      · exact le_rfl
      · exact (List.pairwise_cons.1 hclock).1 t ht

theorem sweep_unobservable_lapsed :
    results (newBanTracker 2 (60*second) (120*second))
      [.strike (1*second) "ip",.strike (2*second) "ip",.sweep (200*second),
        .strike (200*second) "ip",.activeBans (200*second)] =
      [.strike false,.strike true,.strike false,.activeBans 0] :=
  (sweep_unobservable 2 (60*second) (120*second) (by decide) _ (by decide +kernel)
    (by decide +kernel)).trans (by decide +kernel)

/-- A ban decided at 1 s ends at 121 s; a sweep at that instant forgets the strike of 100 s,
which the next one still counts. -/
theorem sweep_observable :
    results (newBanTracker 2 (60*second) (120*second))
      [.strike (1*second) "ip",.strike (1*second) "ip",.strike (100*second) "ip",
        .sweep (121*second),.strike (121*second) "ip"] =
      [.strike false,.strike true,.strike false,.strike false] ∧
    results (newBanTracker 2 (60*second) (120*second))
      [.strike (1*second) "ip",.strike (1*second) "ip",.strike (100*second) "ip",
        .strike (121*second) "ip"] =
      [.strike false,.strike true,.strike false,.strike true] := by
  decide +kernel

end SecureGateway.RateLimit
