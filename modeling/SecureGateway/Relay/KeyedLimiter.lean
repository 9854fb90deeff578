import SecureGateway.Lib.Machine
import SecureGateway.Lib.Table
import SecureGateway.Lib.TokenBucket
import SecureGateway.Relay.Config

/-!
# The rate limiter (`ratelimit.go`)

A `KeyedLimiter` keeps a token bucket per key, made full on first use; `Sweep` drops the
buckets not used for a while. `rate.Limiter` is a `Bucket` over the rationals. `Allow` reads
the clock twice, once for `seen` and once in `rate.Limiter.Allow`. Instants are in
nanoseconds.
-/

namespace SecureGateway.RateLimit

/- `limiterEntry`, with the key it is stored under. -/
structure LimiterEntry where
  key : String
  lim : Bucket
  seen : ℤ

/- `limit` in events per second. -/
structure KeyedLimiter where
  limit : ℚ
  burst : ℤ
  entries : Table LimiterEntry LimiterEntry.key

def newKeyedLimiter (perMinute : ℚ) (burst : ℤ) : KeyedLimiter := ⟨perMinute / 60,burst,.empty⟩

namespace KeyedLimiter

def disabled (k : KeyedLimiter) : Bool := k.limit ≤ 0 || k.burst ≤ 0

/- Tokens per nanosecond. -/
def rate (k : KeyedLimiter) : ℚ := k.limit / 1000000000

/- `rate.NewLimiter` makes a full bucket. -/
def bucket (k : KeyedLimiter) (key : String) (seen : ℤ) : Bucket :=
  ((k.entries.get key).map LimiterEntry.lim).getD ⟨k.burst,seen⟩

def allow (k : KeyedLimiter) (key : String) (seen now : ℤ) : Bool × KeyedLimiter :=
  if k.disabled then (true,k)
  else
    let (ok,lim) := (k.bucket key seen).take k.rate k.burst now
    (ok,{ k with entries := k.entries.put ⟨key,lim,seen⟩ })

def sweep (k : KeyedLimiter) (idle now : ℤ) : KeyedLimiter :=
  { k with entries := k.entries.eraseRows fun e => e.seen < now - idle }

theorem allow_eq {k : KeyedLimiter} (hk : k.disabled=false) (key : String) (seen now : ℤ) :
    let x := (k.bucket key seen).take k.rate k.burst now
    k.allow key seen now=(x.1,{ k with entries := k.entries.put ⟨key,x.2,seen⟩ }) := by
  simp only [allow,hk,Bool.false_eq_true,if_false]

end KeyedLimiter

/- Calls with their readings of the clock. -/
inductive Use
  | allow (key : String) (seen now : ℤ)
  | sweep (now : ℤ)

/- The limiter, its latest reading of the clock, and the events it has allowed. -/
structure Metered where
  limiter : KeyedLimiter
  clock : ℤ
  allowed : List (String × ℤ)

/- `sweepLimiters` sweeps what was idle for ten minutes. -/
def Metered.next (s : Metered) : Use → Metered
  | .allow key seen now =>
    ⟨(s.limiter.allow key seen now).2,now,
      if (s.limiter.allow key seen now).1 then (key,now) :: s.allowed else s.allowed⟩
  | .sweep now => { s with limiter := s.limiter.sweep (10 * minute) now, clock := now }

/- The clock does not go back. -/
def Forward (s : Metered) : Use → Prop
  | .allow _ seen now => s.clock ≤ seen ∧ seen≤now
  | .sweep now => s.clock ≤ now

instance (s : Metered) : (c : Use) → Decidable (Forward s c)
  | .allow _ seen now => inferInstanceAs (Decidable (s.clock ≤ seen ∧ seen≤now))
  | .sweep now => inferInstanceAs (Decidable (s.clock≤now))

/- The second reading of an `Allow` comes at most `lag` after the first. -/
def Prompt (lag : ℤ) : Use → Prop
  | .allow _ seen now => now - seen ≤ lag
  | .sweep _ => True

def eventsOf (key : String) (a b : ℤ) (allowed : List (String × ℤ)) : ℕ :=
  allowed.countP fun x => x.1 = key ∧ a≤x.2 ∧ x.2≤b

def eventsFrom (key : String) (a : ℤ) (allowed : List (String × ℤ)) : ℕ :=
  allowed.countP fun x => x.1 = key ∧ a≤x.2

/- What the bucket of a key would hold; a bucket that is not there is full. -/
def KeyedLimiter.credit (k : KeyedLimiter) (key : String) (t : ℤ) : ℚ :=
  match k.entries.get key with
  | none => k.burst
  | some e => e.lim.level k.rate k.burst t

/- No bucket is overdrawn or ahead of the clock, and none was used long after it was seen. -/
structure Current (lag now : ℤ) (e : LimiterEntry) : Prop where
  tokens : 0≤e.lim.tokens
  last : e.lim.last≤now
  used : e.lim.last ≤ e.seen + lag

/-- The events allowed since `a` and the credit left are paid for by one full bucket and
what it gained since. -/
structure Paid (r : ℚ) (B lag : ℤ) (s : Metered) : Prop where
  enabled : s.limiter.disabled=false
  rate : s.limiter.rate=r
  burst : s.limiter.burst=B
  current : ∀ k e, s.limiter.entries.get k = some e → Current lag s.clock e
  stamped : ∀ x ∈ s.allowed, x.2 ≤ s.clock
  spent : ∀ key a, a ≤ s.clock →
    (eventsFrom key a s.allowed : ℚ) + s.limiter.credit key s.clock ≤ B + r * (s.clock - a)

def Bounded (r : ℚ) (B : ℤ) (s : Metered) : Prop :=
  ∀ key a b, a≤b → (eventsOf key a b s.allowed : ℚ) ≤ B + r * (b - a)

theorem eventsOf_le (key : String) (a b : ℤ) (allowed : List (String × ℤ)) :
    eventsOf key a b allowed≤eventsFrom key a allowed := by
  refine List.countP_mono_left fun x _ hx => ?_
  simp only [decide_eq_true_eq] at hx ⊢
  exact ⟨hx.1,hx.2.1⟩

section Step
variable {r : ℚ} {B lag : ℤ} {s : Metered} {t : ℤ}

theorem Paid.credit_le (h : Paid r B lag s) (key : String) : s.limiter.credit key t≤B := by
  unfold KeyedLimiter.credit
  rw [h.rate,h.burst]
  split
  · exact le_rfl
  · exact Bucket.level_le

theorem Paid.credit_nonneg (hr : 0≤r) (hB : 0≤B) (h : Paid r B lag s) (ht : s.clock≤t)
    (key : String) : 0 ≤ s.limiter.credit key t := by
  unfold KeyedLimiter.credit
  rw [h.rate,h.burst]
  split
  · exact Int.cast_nonneg hB
  next e he =>
  have hcur:=h.current key e he
  exact Bucket.level_nonneg hr (Int.cast_nonneg hB) hcur.tokens (hcur.last.trans ht)

/- No event was allowed after the latest reading of the clock. -/
theorem Paid.none_from (h : Paid r B lag s) {key : String} {a : ℤ} (ha : s.clock<a) :
    eventsFrom key a s.allowed=0 := by
  refine List.countP_eq_zero.2 fun x hx => ?_
  have := h.stamped x hx
  simp only [decide_eq_true_eq,not_and,not_le]
  omega

/- Time passes. -/
theorem Paid.later (hr : 0≤r) (h : Paid r B lag s) (ht : s.clock≤t) (key : String) {a : ℤ}
    (ha : a≤t) : (eventsFrom key a s.allowed : ℚ)+s.limiter.credit key t≤B+r*(t - a) := by
  rcases le_or_gt a s.clock with hold | hnew
  · have hgain : s.limiter.credit key t ≤ s.limiter.credit key s.clock+r*(t - s.clock) := by
      have hpos : 0≤r*((t : ℚ) - s.clock) := mul_nonneg hr (sub_nonneg.2 (Int.cast_le.2 ht))
      unfold KeyedLimiter.credit
      rw [h.rate]
      split
      · linarith
      · exact Bucket.level_later hr ht
    have := h.spent key a hold
    linarith
  · have hpos : 0≤r*((t : ℚ) - a) := mul_nonneg hr (sub_nonneg.2 (Int.cast_le.2 ha))
    have := h.credit_le (t := t) key
    rw [h.none_from hnew,Nat.cast_zero]
    linarith

theorem Paid.bound (hr : 0≤r) (hB : 0≤B) (h : Paid r B lag s) (key : String) {a b : ℤ} (hab : a≤b)
    (hb : s.clock≤b) : (eventsOf key a b s.allowed : ℚ)≤B+r*(b - a) := by
  have hle : (eventsOf key a b s.allowed : ℚ)≤eventsFrom key a s.allowed :=
    Nat.cast_le.2 (eventsOf_le key a b s.allowed)
  have hspent:=h.later hr hb key hab
  have hcredit:=h.credit_nonneg hr hB hb key
  linarith

theorem eventsFrom_cons (key key' : String) (a t : ℤ) (allowed : List (String × ℤ)) :
    eventsFrom key' a ((key,t)::allowed) =
      eventsFrom key' a allowed+if key=key' ∧ a≤t then 1 else 0 := by
  simp [eventsFrom,List.countP_cons]

theorem level_bucket {k : KeyedLimiter} (hr : 0≤k.rate) (key : String) {seen now : ℤ}
    (h : seen≤now) : (k.bucket key seen).level k.rate k.burst now=k.credit key now := by
  unfold KeyedLimiter.bucket KeyedLimiter.credit
  cases k.entries.get key with
  | none =>
    have hgain : 0≤k.rate*((now : ℚ) - seen) := mul_nonneg hr (sub_nonneg.2 (Int.cast_le.2 h))
    exact min_eq_left (le_add_of_nonneg_right hgain)
  | some e => rfl

theorem credit_allow {k : KeyedLimiter} (hk : k.disabled=false) (hr : 0≤k.rate)
    (key key' : String) {seen now : ℤ} (h : seen≤now) :
    (k.allow key seen now).2.credit key' now =
      k.credit key' now - if key=key' ∧ (k.allow key seen now).1 then 1 else 0 := by
  rw [KeyedLimiter.allow_eq hk]
  by_cases hkey : key=key'
  · subst hkey
    rw [← level_bucket hr key h]
    simp only [KeyedLimiter.credit,Table.get_put,if_true,true_and]
    exact Bucket.level_take
  · simp [KeyedLimiter.credit,Table.get_put,hkey,KeyedLimiter.rate]

theorem Paid.bucket (hB : 0≤B) (h : Paid r B lag s) (key : String) {seen : ℤ}
    (hseen : s.clock ≤ seen) : 0≤(s.limiter.bucket key seen).tokens ∧
      (s.limiter.bucket key seen).last ≤ seen := by
  unfold KeyedLimiter.bucket
  cases hget : s.limiter.entries.get key with
  | none => exact ⟨Int.cast_nonneg (h.burst ▸ hB),le_rfl⟩
  | some e =>
    have hcur:=h.current key e hget
    exact ⟨hcur.tokens,hcur.last.trans hseen⟩

theorem Paid.allow (hr : 0≤r) (hB : 0≤B) (h : Paid r B lag s) {key : String} {seen now : ℤ}
    (hseen : s.clock ≤ seen) (hnow : seen≤now) (hlag : now - seen≤lag) :
    Paid r B lag (s.next (.allow key seen now)) := by
  have hle : s.clock≤now := hseen.trans hnow
  have heq:=KeyedLimiter.allow_eq h.enabled key seen now
  refine ⟨?_,?_,?_,?_,?_,?_⟩
  · rw [Metered.next,heq]
    exact h.enabled
  · rw [Metered.next,heq]
    exact h.rate
  · rw [Metered.next,heq]
    exact h.burst
  · obtain ⟨htokens,hlast⟩:=h.bucket hB key hseen
    intro k e he
    rw [Metered.next,heq,Table.get_put] at he
    split at he
    · cases he
      have hafter:=Bucket.take_last s.limiter.rate s.limiter.burst (hlast.trans hnow)
      exact ⟨Bucket.take_tokens htokens,hafter,by simp only; omega⟩
    · have hcur:=h.current k e he
      exact ⟨hcur.tokens,hcur.last.trans hle,hcur.used⟩
  · intro x hx
    simp only [Metered.next] at hx ⊢
    split at hx
    · rcases List.mem_cons.1 hx with rfl | hx
      · exact le_rfl
      · exact (h.stamped x hx).trans hle
    · exact (h.stamped x hx).trans hle
  · intro key' a ha
    have hspent:=h.later hr hle key' ha
    simp only [Metered.next] at ha ⊢
    rw [credit_allow h.enabled (h.rate ▸ hr) key key' hnow]
    cases hok : (s.limiter.allow key seen now).1 with
    | false => simpa using hspent
    | true =>
      simp only [if_true,eventsFrom_cons,ha,and_true]
      split <;> push_cast <;> linarith

theorem Paid.sweep (h : Paid r B lag s) (hr : 0≤r) {now : ℤ} (hnow : s.clock≤now)
    (hfull : B≤r*(10*minute - lag : ℤ)) : Paid r B lag (s.next (.sweep now)) := by
  refine ⟨h.enabled,h.rate,h.burst,?_,?_,?_⟩
  · intro k e he
    simp only [Metered.next,KeyedLimiter.sweep,Table.get_eraseRows,
      Option.filter_eq_some_iff] at he
    have hcur:=h.current k e he.1
    exact ⟨hcur.tokens,hcur.last.trans hnow,hcur.used⟩
  · exact fun x hx => (h.stamped x hx).trans hnow
  intro key a ha
  have hspent:=h.later hr hnow key ha
  -- a bucket that is dropped had refilled
  have hcredit : (s.limiter.sweep (10*minute) now).credit key now=s.limiter.credit key now := by
    simp only [KeyedLimiter.credit,KeyedLimiter.sweep,Table.get_eraseRows]
    cases hget : s.limiter.entries.get key with
    | none => rfl
    | some e =>
      have hcur:=h.current key e hget
      rw [Option.filter_some]
      by_cases hdrop : e.seen<now - 10*minute
      · have hused:=hcur.used
        have hidle : ((10*minute - lag : ℤ) : ℚ)≤now - e.lim.last := by
          rw [← Int.cast_sub,Int.cast_le]
          omega
        rw [if_neg (by simp [hdrop])]
        refine (Bucket.level_full hcur.tokens ?_).symm
        rw [h.rate,h.burst]
        exact hfull.trans (mul_le_mul_of_nonneg_left hidle hr)
      · rw [if_pos (by simp [hdrop])]
        rfl
  show (eventsFrom key a s.allowed : ℚ)+(s.limiter.sweep _ now).credit key now ≤ _
  rw [hcredit]
  exact hspent

theorem Paid.next (hr : 0≤r) (hB : 0≤B) (hfull : B≤r*(10*minute - lag : ℤ)) (h : Paid r B lag s)
    {c : Use} (hf : Forward s c) (hp : Prompt lag c) : Paid r B lag (s.next c) := by
  cases c with
  | allow key seen now => exact h.allow hr hB hf.1 hf.2 hp
  | sweep now => exact h.sweep hr hf hfull

theorem eventsOf_next {c : Use} {key : String} {a b : ℤ} (hb : b<(s.next c).clock) :
    eventsOf key a b (s.next c).allowed=eventsOf key a b s.allowed := by
  cases c with
  | allow key' seen now =>
    simp only [Metered.next] at hb ⊢
    split
    · simp [eventsOf,hb]
    · rfl
  | sweep now => rfl

theorem Bounded.next (hr : 0≤r) (hB : 0≤B) {c : Use} (h : Bounded r B s)
    (hnext : Paid r B lag (s.next c)) : Bounded r B (s.next c) := by
  intro key a b hab
  rcases le_or_gt (s.next c).clock b with hle | hlt
  · exact hnext.bound hr hB key hab hle
  · rw [eventsOf_next hlt]
    exact h key a b hab

end Step

theorem paid_start {perMinute : ℚ} {burst : ℤ} (lag : ℤ) (hrate : 0<perMinute) (hburst : 0<burst)
    (start : ℤ) :
    Paid (perMinute / minute) burst lag ⟨newKeyedLimiter perMinute burst,start,[]⟩ where
  enabled := by
    have hlimit : ¬ perMinute / 60≤0 := not_le.2 (div_pos hrate (by norm_num))
    have hburst' : ¬ burst≤0 := not_le.2 hburst
    simp only [KeyedLimiter.disabled,newKeyedLimiter,hlimit,hburst',decide_false,Bool.or_self]
  rate := by
    simp only [KeyedLimiter.rate,newKeyedLimiter,minute,div_div]
    norm_num
  burst := rfl
  current k e he := by simp [newKeyedLimiter] at he
  stamped x hx := by cases hx
  spent key a ha := by
    have hpos : 0≤perMinute / minute*((start : ℚ) - a) :=
      mul_nonneg (div_nonneg hrate.le (Int.cast_nonneg (by decide)))
        (sub_nonneg.2 (Int.cast_le.2 ha))
    simpa [eventsFrom,KeyedLimiter.credit,newKeyedLimiter] using hpos

theorem bounded_run {perMinute : ℚ} {burst lag : ℤ} (hrate : 0<perMinute) (hburst : 0<burst)
    (hfull : burst≤perMinute*((10*minute - lag : ℤ) / minute)) {start : ℤ} {uses : List Use}
    (hforward : Machine.Guarded Metered.next Forward
      ⟨newKeyedLimiter perMinute burst,start,[]⟩ uses) (hprompt : ∀ u∈uses,Prompt lag u) :
    Bounded (perMinute / minute) burst
      (Machine.run Metered.next ⟨newKeyedLimiter perMinute burst,start,[]⟩ uses) := by
  have hr : 0≤perMinute / minute := div_nonneg hrate.le (Int.cast_nonneg (by decide))
  have hfull' : (burst : ℚ)≤perMinute / minute*(10*minute - lag : ℤ) := by
    rwa [mul_div_assoc',← div_mul_eq_mul_div] at hfull
  have hguard:=Machine.guarded_and _ _ _ _ _ hforward
    (Machine.guarded_of_forall Metered.next (fun _ u => Prompt lag u) _ _ fun u hu _ => hprompt u hu)
  have hstart : Bounded (perMinute / minute) burst
      ⟨newKeyedLimiter perMinute burst,start,[]⟩ := by
    intro key a b hab
    exact (paid_start lag hrate hburst (min a start)).bound hr hburst.le key hab
      (min_le_of_left_le hab)
  refine (Machine.guarded_invariant Metered.next _
    (fun s => Paid (perMinute / minute) burst lag s ∧ Bounded (perMinute / minute) burst s)
    (fun s u h hu => ?_) _ _ ⟨paid_start lag hrate hburst start,hstart⟩ hguard).2
  have hnext:=h.1.next hr hburst.le hfull' hu.1 hu.2
  exact ⟨hnext,h.2.next hr hburst.le hnext⟩

/- The limiter `server.New` makes. -/
def ipLimiter (c : Relay.Config) : KeyedLimiter :=
  newKeyedLimiter c.rateLimitIPPerMin.toInt c.rateLimitIPBurst.toInt

/-- The rate is kept on every interval if an idle bucket is full again before it may be
dropped. -/
theorem allowed_within_rate (go : Relay.GoLibrary) (c : Relay.Config) (hvalid : c.validate go = [])
    (henabled : c.rateLimitEnabled=true) (lag : ℤ)
    (hfull : (c.rateLimitIPBurst.toInt : ℚ) ≤
      c.rateLimitIPPerMin.toInt * ((10 * minute - lag : ℤ) / minute))
    (start : ℤ) (uses : List Use)
    (hforward : Machine.Guarded Metered.next Forward ⟨ipLimiter c,start,[]⟩ uses)
    (hprompt : ∀ u ∈ uses, Prompt lag u) (key : String) (a b : ℤ) (hab : a≤b) :
    (eventsOf key a b (Machine.run Metered.next ⟨ipLimiter c,start,[]⟩ uses).allowed : ℚ) ≤
      c.rateLimitIPBurst.toInt + c.rateLimitIPPerMin.toInt * ((b - a : ℤ) / minute) := by
  obtain ⟨hrate,hburst⟩ := Relay.Config.rateLimit_of_validate hvalid henabled
  have hrate' : (0 : ℚ) < c.rateLimitIPPerMin.toInt := Int.cast_pos.2 (Int64.lt_iff_toInt_lt.1 hrate)
  have hburst' : 0<c.rateLimitIPBurst.toInt := Int64.lt_iff_toInt_lt.1 hburst
  have hbound := bounded_run hrate' hburst' hfull hforward hprompt key a b hab
  rw [mul_div_assoc',← div_mul_eq_mul_div,Int.cast_sub]
  exact hbound

theorem allowed_within_rate_defaults :
    let uses := [.allow "ip" 0 5,.allow "ip" 5 10,.sweep (11 * minute),
      .allow "ip" (11 * minute) (11 * minute)]
    let c : Relay.Config := { jwtIssuer := "auth", jwksURL := "jwks" }
    (eventsOf "ip" 0 minute (Machine.run Metered.next ⟨ipLimiter c,0,[]⟩ uses).allowed : ℚ) ≤
      60 + 120 * ((minute - 0 : ℤ) / minute) :=
  allowed_within_rate ⟨id,fun _ => "",fun _ => none⟩ { jwtIssuer := "auth", jwksURL := "jwks" }
    (by decide +kernel) rfl 5 (by decide +kernel) 0
    [.allow "ip" 0 5,.allow "ip" 5 10,.sweep (11 * minute),
      .allow "ip" (11 * minute) (11 * minute)]
    (by decide +kernel) (by simp [Prompt]) "ip" 0 minute (by decide)

/-- One event a minute and bursts of 20 pass the checks, and a drained bucket that was
idle for ten minutes, when it holds 10 tokens, is full again. -/
theorem allowed_beyond_rate :
    let c : Relay.Config :=
      { jwtIssuer := "auth", jwksURL := "jwks", rateLimitIPPerMin := 1, rateLimitIPBurst := 20 }
    let again := 10 * minute + 1
    let uses := List.replicate 20 (.allow "ip" 0 0) ++ .sweep again ::
      List.replicate 20 (.allow "ip" again again)
    c.validate ⟨id,fun _ => "",fun _ => none⟩ = [] ∧
      Machine.Guarded Metered.next Forward ⟨ipLimiter c,0,[]⟩ uses ∧
      eventsOf "ip" 0 again (Machine.run Metered.next ⟨ipLimiter c,0,[]⟩ uses).allowed = 40 ∧
      (20 + 1 * ((again - 0 : ℤ) / minute) : ℚ) < 31 := by
  decide +kernel

end SecureGateway.RateLimit
