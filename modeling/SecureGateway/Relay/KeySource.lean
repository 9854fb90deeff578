import SecureGateway.Lib.Machine
import SecureGateway.Relay.Jwks

/-!
# The relay's key source (`keysource.go`)

`PublicKey` looks a kid up and on a miss fetches the document, unless the last fetch was less
than `minWait` ago. A step is one lock section, the start of the HTTP call or its end.
`lastFetch` is written only after a success, so fetches keep their distance only while no call
passes the check next to a fetch under way or soon after one that failed (`Calm`).
-/

namespace SecureGateway.Jwks

/- What the HTTP call comes to; the body is cut off after 1 MiB. -/
inductive Outcome (Json : Type)
  | failed (err : String)
  | response (status : ℕ) (body : Except String Json)

/- Where a call stands, by what it does next. -/
inductive Stage
  | lookup (kid : String)
  | check (kid : String)
  | request (kid : String)
  | fetching (kid : String)
  | store (kid : String) (keys : KeySet)
  | relook (kid : String)
  | returned (r : Except String PublicKey)

/- Durations and instants are in nanoseconds, `0` being Go's zero time. -/
def minWait : ℤ := 300000000000

/- `fetches` has the HTTP calls that were started, by number and instant, and `ended` those
that ended, with their success. -/
structure JWKSSource where
  keys : KeySet := []
  lastFetch : ℤ := 0
  calls : List Stage := []
  clock : ℤ := 0
  fetches : List (ℕ × ℤ) := []
  ended : List (ℕ × Bool) := []

inductive Step (Json : Type)
  | call (kid : String)
  | move (i : ℕ) (now : ℤ) (newRequest : Option String) (outcome : Outcome Json)

def errUnknownKey : String := "no verification key for kid"

/- `!s.lastFetch.IsZero() && time.Since(s.lastFetch) < s.minWait` fails; the difference
saturates far beyond `minWait`. -/
def JWKSSource.due (s : JWKSSource) (now : ℤ) : Bool :=
  s.lastFetch == 0 || minWait ≤ now - s.lastFetch

def JWKSSource.set (s : JWKSSource) (i : ℕ) (now : ℤ) (st : Stage) : JWKSSource :=
  { s with calls := s.calls.set i st, clock := now }

section
variable {Json : Type} (lib : Library Json)

/- `refresh` from the end of `client.Do` to the keys. -/
def fetched : Outcome Json → Except String KeySet
  | .failed err => .error ("fetch jwks: " ++ err)
  | .response status body =>
    if status≠200 then .error ("fetch jwks: status " ++ toString status)
    else body.bind (parseJWKS lib)

def JWKSSource.next (s : JWKSSource) : Step Json → JWKSSource
  | .call kid => { s with calls := s.calls ++ [.lookup kid] }
  | .move i now newRequest outcome =>
    match s.calls[i]? with
    | some (.lookup kid) =>
      match s.keys.lookup kid with
      | some k => s.set i now (.returned (.ok k))
      | none => s.set i now (.check kid)
    | some (.check kid) => s.set i now (if s.due now then .request kid else .relook kid)
    | some (.request kid) =>
      match newRequest with
      | some err => s.set i now (.returned (.error err))
      | none => { s.set i now (.fetching kid) with fetches := (i,now) :: s.fetches }
    | some (.fetching kid) =>
      match fetched lib outcome with
      | .error err => { s.set i now (.returned (.error err)) with ended := (i,false) :: s.ended }
      | .ok keys => { s.set i now (.store kid keys) with ended := (i,true) :: s.ended }
    | some (.store kid keys) => { s.set i now (.relook kid) with keys, lastFetch := now }
    | some (.relook kid) =>
      match s.keys.lookup kid with
      | some k => s.set i now (.returned (.ok k))
      | none => s.set i now (.returned (.error errUnknownKey))
    | _ => s

end

/- From the check that let a call through to the end of its `refresh`. -/
def Stage.underWay : Stage → Bool
  | request _ | fetching _ | store _ _ => true
  | _ => false

def Stage.inFetch : Stage → Bool
  | fetching _ | store _ _ => true
  | _ => false

def Stage.isCheck : Stage → Bool
  | check _ => true
  | _ => false

/- The clock does not go back. -/
def Forward {Json : Type} (s : JWKSSource) : Step Json → Prop
  | .call _ => True
  | .move _ now _ _ => s.clock ≤ now

/-- The clock stands past the zero time, and a call that finds a fetch due finds no other
one under way and none that failed less than `minWait` after its start. -/
def Calm {Json : Type} (s : JWKSSource) : Step Json → Prop
  | .call _ => True
  | .move i now _ _ => 0 < now ∧ (s.calls[i]?.any Stage.isCheck = true → s.due now = true →
    (∀ st ∈ s.calls, st.underWay=false) ∧
      ∀ f ∈ s.fetches, (f.1,false) ∈ s.ended → minWait ≤ now - f.2)

instance {Json : Type} (s : JWKSSource) : (a : Step Json) → Decidable (Forward s a)
  | .call _ => inferInstanceAs (Decidable True)
  | .move _ now _ _ => inferInstanceAs (Decidable (s.clock≤now))

instance {Json : Type} (s : JWKSSource) : (a : Step Json) → Decidable (Calm s a)
  | .call _ => inferInstanceAs (Decidable True)
  | .move _ now _ _ =>
    inferInstanceAs (Decidable (0<now ∧ (_ → _ → (∀ st ∈ s.calls, st.underWay=false) ∧
      ∀ f ∈ s.fetches, (f.1,false) ∈ s.ended → minWait ≤ now - f.2)))

structure Spaced (s : JWKSSource) : Prop where
  apart : s.fetches.Pairwise fun later earlier => minWait ≤ later.2 - earlier.2
  past : ∀ f ∈ s.fetches, f.2 ≤ s.clock
  last : s.lastFetch ≤ s.clock
  settled : ∀ f ∈ s.fetches, (∃ st, s.calls[f.1]? = some st ∧ st.inFetch=true) ∨
    (f.1,false) ∈ s.ended ∨ (f.2 ≤ s.lastFetch ∧ s.lastFetch≠0)
  single : ∀ (i j : ℕ) (st st' : Stage), s.calls[i]? = some st → s.calls[j]? = some st' →
    st.underWay = true → st'.underWay=true → i=j
  ready : ∀ (i : ℕ) (kid : String), s.calls[i]? = some (Stage.request kid) →
    ∀ f ∈ s.fetches, minWait ≤ s.clock - f.2

theorem underWay_of_inFetch {st : Stage} (h : st.inFetch=true) : st.underWay=true := by
  cases st <;> first | rfl | cases h

section Step
variable {s : JWKSSource} {i j : ℕ} {now : ℤ} {st st' : Stage}

theorem of_set (hj : (s.calls.set i st')[j]? = some st) :
    (j=i ∧ st=st') ∨ (j≠i ∧ s.calls[j]? = some st) := by
  rw [List.getElem?_set] at hj
  split at hj
  · next hij =>
    split at hj
    · cases hj; exact .inl ⟨hij.symm,rfl⟩
    · cases hj
  · next hij => exact .inr ⟨Ne.symm hij,hj⟩

variable {kid : String}

theorem of_append (hj : (s.calls ++ [.lookup kid])[j]? = some st) :
    s.calls[j]? = some st ∨ st = .lookup kid := by
  rcases lt_or_ge j s.calls.length with hlt | hge
  · rw [List.getElem?_append_left hlt] at hj
    exact .inl hj
  · rw [List.getElem?_append_right hge] at hj
    exact .inr (List.mem_singleton.1 (List.mem_of_getElem? hj))

theorem getElem?_called (hj : s.calls[j]? = some st) :
    (s.calls ++ [.lookup kid])[j]? = some st := by
  rw [List.getElem?_append_left (List.getElem?_eq_some_iff.1 hj).1,hj]

/- Calls under way stay alone. -/
theorem Spaced.single_set (h : Spaced s) (hi : s.calls[i]? = some st)
    (hway : st'.underWay=true → st.underWay=true ∨ ∀ x∈s.calls,x.underWay=false) :
    ∀ (j k : ℕ) (x y : Stage), (s.calls.set i st')[j]? = some x →
      (s.calls.set i st')[k]? = some y → x.underWay=true → y.underWay=true → j=k := by
  have hother : ∀ (j : ℕ) (x : Stage), s.calls[j]? = some x → x.underWay=true →
      st'.underWay=true → j=i := by
    intro j x hj hx hst'
    rcases hway hst' with hst | hnone
    · exact h.single j i x st hj hi hx hst
    · simp [hnone x (List.mem_of_getElem? hj)] at hx
  intro j k x y hj hk hx hy
  rcases of_set hj with ⟨rfl,rfl⟩ | ⟨-,hjold⟩
  · rcases of_set hk with ⟨rfl,-⟩ | ⟨-,hkold⟩
    · rfl
    · exact (hother k y hkold hy hx).symm
  · rcases of_set hk with ⟨rfl,rfl⟩ | ⟨-,hkold⟩
    · exact hother j x hjold hx hy
    · exact h.single j k x y hjold hkold hx hy

/- A fetch is settled after a step as before, if the call that moved has not left it. -/
theorem Spaced.settled_set (h : Spaced s) (hi : s.calls[i]? = some st) {ended : List (ℕ × Bool)}
    (hended : s.ended ⊆ ended) (hfetch : st.inFetch=true → st'.inFetch=true ∨ (i,false)∈ended) :
    ∀ f∈s.fetches,(∃ x,(s.calls.set i st')[f.1]? = some x ∧ x.inFetch=true) ∨
      (f.1,false)∈ended ∨ (f.2 ≤ s.lastFetch ∧ s.lastFetch≠0) := by
  intro f hf
  rcases h.settled f hf with ⟨x,hx,hin⟩ | hfailed | hstored
  · by_cases hfi : f.1=i
    · rw [hfi] at hx ⊢
      cases hi.symm.trans hx
      rcases hfetch hin with hin' | hfailed
      · exact .inl ⟨st',List.getElem?_set_self (List.getElem?_eq_some_iff.1 hi).1,hin'⟩
      · exact .inr (.inl hfailed)
    · exact .inl ⟨x,by rw [List.getElem?_set_ne (Ne.symm hfi),hx],hin⟩
  · exact .inr (.inl (hended hfailed))
  · exact .inr (.inr hstored)

/- Time passes and call `i` moves on, without a new fetch or a new key set. -/
theorem Spaced.moved (h : Spaced s) (hi : s.calls[i]? = some st) (hnow : s.clock≤now)
    {ended : List (ℕ × Bool)} (hended : s.ended ⊆ ended)
    (hway : st'.underWay=true → st.underWay=true) (hreq : ∀ kid,st' ≠ .request kid)
    (hfetch : st.inFetch=true → st'.inFetch=true ∨ (i,false)∈ended) :
    Spaced { s.set i now st' with ended } where
  apart := h.apart
  past f hf := (h.past f hf).trans hnow
  last := h.last.trans hnow
  settled := h.settled_set hi hended hfetch
  single := h.single_set hi fun hst' => .inl (hway hst')
  ready j kid hj f hf := by
    rcases of_set hj with ⟨-,heq⟩ | ⟨-,hj⟩
    · exact absurd heq.symm (hreq kid)
    have hready:=h.ready j kid hj f hf
    show minWait≤now - f.2
    omega

/- A call finds that a fetch is due. -/
theorem Spaced.checked (h : Spaced s) (hi : s.calls[i]? = some (.check kid))
    (hnow : s.clock≤now) (hdue : s.due now=true) (hnone : ∀ st∈s.calls,st.underWay=false)
    (hfailed : ∀ f∈s.fetches,(f.1,false)∈s.ended → minWait≤now - f.2) :
    Spaced (s.set i now (.request kid)) where
  apart := h.apart
  past f hf := (h.past f hf).trans hnow
  last := h.last.trans hnow
  settled := h.settled_set hi (List.Subset.refl _) nofun
  single := h.single_set hi fun _ => .inr hnone
  ready j kid' _ f hf := by
    show minWait≤now - f.2
    rcases h.settled f hf with ⟨st,hst,hin⟩ | hfail | ⟨hle,hzero⟩
    · have hway:=underWay_of_inFetch hin
      simp [hnone st (List.mem_of_getElem? hst)] at hway
    · exact hfailed f hf hfail
    · have hwait : minWait≤now - s.lastFetch := by simpa [JWKSSource.due,hzero] using hdue
      omega

theorem Spaced.started (h : Spaced s) (hi : s.calls[i]? = some (.request kid))
    (hnow : s.clock≤now) :
    Spaced { s.set i now (.fetching kid) with fetches := (i,now)::s.fetches } where
  apart := by
    refine List.pairwise_cons.2 ⟨fun f hf => ?_,h.apart⟩
    have hready:=h.ready i kid hi f hf
    show minWait≤now - f.2
    omega
  past f hf := by
    rcases List.mem_cons.1 hf with rfl | hf
    · exact le_rfl
    · exact (h.past f hf).trans hnow
  last := h.last.trans hnow
  settled f hf := by
    rcases List.mem_cons.1 hf with rfl | hf
    · exact .inl ⟨_,List.getElem?_set_self (List.getElem?_eq_some_iff.1 hi).1,rfl⟩
    · exact h.settled_set hi (List.Subset.refl _) nofun f hf
  single := h.single_set hi fun _ => .inl rfl
  ready j kid' hj := by
    rcases of_set hj with ⟨-,heq⟩ | ⟨hne,hj⟩
    · cases heq
    · exact absurd (h.single j i _ _ hj hi rfl rfl) hne

theorem Spaced.stored (h : Spaced s) {keys : KeySet} (hi : s.calls[i]? = some (.store kid keys))
    (hnow : s.clock≤now) (hpos : 0<now) :
    Spaced { s.set i now (.relook kid) with keys, lastFetch := now } where
  apart := h.apart
  past f hf := (h.past f hf).trans hnow
  last := le_rfl
  settled f hf := .inr (.inr ⟨(h.past f hf).trans hnow,hpos.ne'⟩)
  single := h.single_set hi nofun
  ready j kid' hj := by
    rcases of_set hj with ⟨-,heq⟩ | ⟨hne,hj⟩
    · cases heq
    · exact absurd (h.single j i _ _ hj hi rfl rfl) hne

end Step

section Run
variable {Json : Type} {lib : Library Json}

theorem Spaced.next {s : JWKSSource} {a : Step Json} (h : Spaced s) (hf : Forward s a)
    (hc : Calm s a) : Spaced (s.next lib a) := by
  cases a with
  | call kid =>
    refine ⟨h.apart,h.past,h.last,fun f hf => ?_,fun j k x y hj hk hx hy => ?_,
      fun j kid' hj => ?_⟩
    · rcases h.settled f hf with ⟨st,hst,hin⟩ | hrest
      · exact .inl ⟨st,getElem?_called hst,hin⟩
      · exact .inr hrest
    · rcases of_append hj with hjold | rfl
      · rcases of_append hk with hkold | rfl
        · exact h.single j k x y hjold hkold hx hy
        · cases hy
      · cases hx
    · rcases of_append hj with hold | heq
      · exact h.ready j kid' hold
      · cases heq
  | move i now newRequest outcome =>
    obtain ⟨hpos,hcalm⟩:=hc
    simp only [JWKSSource.next]
    split
    · next kid hi =>
      split <;> exact h.moved hi hf (List.Subset.refl _) nofun nofun nofun
    · next kid hi =>
      split
      · next hdue =>
        obtain ⟨hnone,hfailed⟩:=hcalm (by simp [hi,Stage.isCheck]) hdue
        exact h.checked hi hf hdue hnone hfailed
      · exact h.moved hi hf (List.Subset.refl _) nofun nofun nofun
    · next kid hi =>
      split
      · exact h.moved hi hf (List.Subset.refl _) nofun nofun nofun
      · exact h.started hi hf
    · next kid hi =>
      split
      · exact h.moved hi hf (List.subset_cons_self _ _) nofun nofun fun _ => .inr List.mem_cons_self
      · exact h.moved hi hf (List.subset_cons_self _ _) (fun _ => rfl) nofun fun _ => .inl rfl
    · next kid keys hi => exact h.stored hi hf hpos
    · next kid hi =>
      split <;> exact h.moved hi hf (List.Subset.refl _) nofun nofun nofun
    · exact h

/- Past the end of its fetch. -/
def Stage.past : Stage → Bool
  | store _ _ | relook _ | returned _ => true
  | _ => false

/-- What a move of call `i` does to the key set and to the record of ended fetches. -/
structure Turned (s s' : JWKSSource) (i : ℕ) (st st' : Stage) : Prop where
  here : s.calls[i]? = some st
  calls : s'.calls = s.calls.set i st'
  live : ∀ r, st ≠ .returned r
  ended : s'.ended=s.ended ∧ (st.past=true → st'.past=true) ∨
    st.past = false ∧ ∃ ok, s'.ended = (i,ok) :: s.ended ∧ (ok=false → ∃ r, st' = .returned r)
  keys : st.past=false → s'.keys=s.keys

theorem next_turned (lib : Library Json) (s : JWKSSource) (i : ℕ) (now : ℤ)
    (newRequest : Option String) (outcome : Outcome Json) :
    let s' := s.next lib (.move i now newRequest outcome)
    s'=s ∨ ∃ st st',Turned s s' i st st' := by
  simp only [JWKSSource.next]
  split
  · next kid hi => split <;> exact .inr ⟨_,_,hi,rfl,nofun,.inl ⟨rfl,nofun⟩,fun _ => rfl⟩
  · next kid hi => exact .inr ⟨_,_,hi,rfl,nofun,.inl ⟨rfl,nofun⟩,fun _ => rfl⟩
  · next kid hi => split <;> exact .inr ⟨_,_,hi,rfl,nofun,.inl ⟨rfl,nofun⟩,fun _ => rfl⟩
  · next kid hi =>
    split
    · next err _ =>
      exact .inr ⟨_,_,hi,rfl,nofun,.inr ⟨rfl,false,rfl,fun _ => ⟨_,rfl⟩⟩,fun _ => rfl⟩
    · exact .inr ⟨_,_,hi,rfl,nofun,.inr ⟨rfl,true,rfl,nofun⟩,fun _ => rfl⟩
  · next kid keys hi =>
    exact .inr ⟨_,_,hi,rfl,nofun,.inl ⟨rfl,fun _ => rfl⟩,nofun⟩
  · next kid hi =>
    split <;> exact .inr ⟨_,_,hi,rfl,nofun,.inl ⟨rfl,fun _ => rfl⟩,fun _ => rfl⟩
  · exact .inl rfl

/- A call whose fetch failed has returned. -/
def Failed (s : JWKSSource) : Prop :=
  ∀ i, (i,false) ∈ s.ended → ∃ r, s.calls[i]? = some (Stage.returned r)

theorem Failed.next {s : JWKSSource} (h : Failed s) (a : Step Json) : Failed (s.next lib a) := by
  cases a with
  | call kid =>
    intro i hi
    obtain ⟨r,hr⟩:=h i hi
    exact ⟨r,getElem?_called hr⟩
  | move j now newRequest outcome =>
    have hturn:=next_turned lib s j now newRequest outcome
    generalize s.next lib (.move j now newRequest outcome)=s' at hturn
    rcases hturn with rfl | ⟨st,st',ht⟩
    · exact h
    have hold : ∀ i,(i,false)∈s.ended → ∃ r,s'.calls[i]? = some (Stage.returned r) := by
      intro i hi
      obtain ⟨r,hr⟩:=h i hi
      have hne : j≠i := by
        rintro rfl
        cases ht.here.symm.trans hr
        exact ht.live r rfl
      exact ⟨r,by rw [ht.calls,List.getElem?_set_ne hne,hr]⟩
    intro i hi
    rcases ht.ended with ⟨hsame,-⟩ | ⟨-,ok,hcons,hreturned⟩
    · exact hold i (hsame ▸ hi)
    rw [hcons] at hi
    rcases List.mem_cons.1 hi with heq | hi
    · cases heq
      obtain ⟨r,rfl⟩:=hreturned rfl
      exact ⟨r,by rw [ht.calls,List.getElem?_set_self (List.getElem?_eq_some_iff.1 ht.here).1]⟩
    · exact hold i hi

/- A call that is past its fetch, which did not fail. -/
def Cleared (i : ℕ) (s : JWKSSource) : Prop :=
  (i,false) ∉ s.ended ∧ ∃ st, s.calls[i]? = some st ∧ st.past=true

theorem Cleared.next {s : JWKSSource} {i : ℕ} (h : Cleared i s) (a : Step Json) :
    Cleared i (s.next lib a) := by
  obtain ⟨hclean,x,hx,hpast⟩:=h
  cases a with
  | call kid => exact ⟨hclean,x,getElem?_called hx,hpast⟩
  | move j now newRequest outcome =>
    have hturn:=next_turned lib s j now newRequest outcome
    generalize s.next lib (.move j now newRequest outcome)=s' at hturn
    rcases hturn with rfl | ⟨st,st',ht⟩
    · exact ⟨hclean,x,hx,hpast⟩
    by_cases hji : j=i
    · subst hji
      cases ht.here.symm.trans hx
      rcases ht.ended with ⟨hsame,hgo⟩ | ⟨hbefore,-⟩
      · refine ⟨hsame ▸ hclean,st',?_,hgo hpast⟩
        rw [ht.calls,List.getElem?_set_self (List.getElem?_eq_some_iff.1 hx).1]
      · simp [hpast] at hbefore
    · refine ⟨fun hmem => ?_,x,by rw [ht.calls,List.getElem?_set_ne hji,hx],hpast⟩
      rcases ht.ended with ⟨hsame,-⟩ | ⟨-,ok,hcons,-⟩
      · exact hclean (hsame ▸ hmem)
      rw [hcons] at hmem
      rcases List.mem_cons.1 hmem with heq | hmem
      · exact hji (congrArg Prod.fst heq).symm
      · exact hclean hmem

theorem spaced_start : Spaced {} :=
  ⟨.nil,nofun,le_rfl,nofun,fun _ _ _ _ h => by simp at h,fun _ _ h => by simp at h⟩

end Run

/-- No step of a call whose fetch ends without success changes the key set, and in a calm
run any two fetches start at least `minWait` apart. -/
theorem fetch_budget {Json : Type} (lib : Library Json) (steps : List (Step Json)) :
    (∀ pre i now newRequest outcome post,
      steps = pre ++ .move i now newRequest outcome :: post →
      (i,false) ∈ (Machine.run (JWKSSource.next lib) {} steps).ended →
      (Machine.run (JWKSSource.next lib) {} (pre ++ [.move i now newRequest outcome])).keys =
        (Machine.run (JWKSSource.next lib) {} pre).keys) ∧
    (Machine.Guarded (JWKSSource.next lib) Forward {} steps →
      Machine.Guarded (JWKSSource.next lib) Calm {} steps →
      (Machine.run (JWKSSource.next lib) {} steps).fetches.Pairwise
        fun later earlier => minWait ≤ later.2 - earlier.2) := by
  constructor
  · intro pre i now newRequest outcome post hsteps hfail
    rw [hsteps,Machine.run_append] at hfail
    rw [Machine.run_append]
    have hfailed : Failed (Machine.run (JWKSSource.next lib) {} pre) :=
      Machine.run_invariant _ _ (fun s a h => h.next a) _ _ fun _ h => by simp at h
    generalize Machine.run (JWKSSource.next lib) {} pre = s at hfail hfailed ⊢
    simp only [Machine.run_cons,Machine.run_nil]
    rcases next_turned lib s i now newRequest outcome with heq | ⟨st,st',ht⟩
    · rw [heq]
    refine ht.keys (Bool.eq_false_iff.2 fun hpast => ?_)
    have hclear : Cleared i s := by
      refine ⟨fun hmem => ?_,st,ht.here,hpast⟩
      obtain ⟨r,hr⟩ := hfailed i hmem
      cases ht.here.symm.trans hr
      exact ht.live r rfl
    exact (Machine.run_invariant (JWKSSource.next lib) _ (fun s a h => h.next a) s _ hclear).1 hfail
  · intro hforward hcalm
    have hguard := Machine.guarded_and _ _ _ _ _ hforward hcalm
    exact (Machine.guarded_invariant _ _ Spaced (fun s a h hc => h.next hc.1 hc.2) _ _ spaced_start
      hguard).apart

/- Call `i` up to the start of its fetch, and from its end to the return. -/
def starts (i : ℕ) (now : ℤ) : List (Step (List Members)) :=
  List.replicate 3 (.move i now none (.failed "timeout"))

def ends (i : ℕ) (now : ℤ) (outcome : Outcome (List Members)) : List (Step (List Members)) :=
  List.replicate 3 (.move i now none outcome)

def published : Outcome (List Members) :=
  .response 200 (.ok [Signer.members sampleLibrary
    ⟨"ES256","k1",.ecdsa .p256 5 6,small_fits .p256⟩])

theorem fetch_budget_rotation :
    (Machine.run (JWKSSource.next sampleLibrary) {}
      (.call "k1" :: starts 0 1 ++ ends 0 2 published ++ .call "k2" :: starts 1 (minWait + 2))).fetches
      = [(1,minWait + 2),(0,1)] ∧
    minWait ≤ (minWait + 2) - 1 := by
  have h := (fetch_budget sampleLibrary
    (.call "k1" :: starts 0 1 ++ ends 0 2 published ++ .call "k2" :: starts 1 (minWait + 2))).2
    (by decide +kernel) (by decide +kernel)
  have hfetches : (Machine.run (JWKSSource.next sampleLibrary) {}
      (.call "k1" :: starts 0 1 ++ ends 0 2 published ++
        .call "k2" :: starts 1 (minWait + 2))).fetches = [(1,minWait + 2),(0,1)] := by
    decide +kernel
  rw [hfetches] at h
  exact ⟨hfetches,(List.pairwise_cons.1 h).1 (0,1) List.mem_cons_self⟩

/-- After a fetch that failed, and next to one under way, the next fetch starts at once. -/
theorem fetches_too_close :
    (Machine.run (JWKSSource.next sampleLibrary) {}
      (.call "k1" :: starts 0 1 ++ ends 0 2 (.failed "timeout") ++ .call "k1" :: starts 1 3)).fetches
      = [(1,3),(0,1)] ∧
    (Machine.run (JWKSSource.next sampleLibrary) {}
      (.call "k1" :: .call "k2" :: starts 0 1 ++ starts 1 2 ++ ends 0 3 published ++
        ends 1 4 published)).fetches = [(1,2),(0,1)] := by
  decide +kernel

end SecureGateway.Jwks
