import SecureGateway.Lib.Machine

/-!
# A session that is rebuilt from offered keys

A seat holds a session and remembers the key that was offered last. The offer of that key
leaves a session as it is; any other is remembered first, and then a session is built from
it, which may fail. Without a session a failed offer goes unnoticed (`unnoticed_of_none`);
with one, an offer of its own key rebuilds it (`noticed_of_some`).
-/

namespace SecureGateway.Rekeying
variable {β σ ε π : Type} [DecidableEq β]

structure Seat (β σ : Type) where
  session : Option σ
  last : Option β

/- What can be asked of a seat. `use` needs a session. -/
inductive Input (β σ ε π : Type)
  | offer (key : β)
  | use (unready : ε) (f : σ → Except ε (π × σ))
  | refuse (e : ε)

def step (build : β → Except ε σ) (s : Seat β σ) : Input β σ ε π → Seat β σ × Except ε (Option π)
  | .offer key =>
    if s.session.isSome ∧ some key = s.last then (s,.ok none)
    else
      match build key with
      | .ok t => (⟨some t,some key⟩,.ok none)
      | .error e => (⟨s.session,some key⟩,.error e)
  | .use unready f =>
    match s.session with
    | none => (s,.error unready)
    | some t =>
      match f t with
      | .ok (p,t) => (⟨some t,s.last⟩,.ok (some p))
      | .error e => (s,.error e)
  | .refuse e => (s,.error e)

def observe (build : β → Except ε σ) (s : Seat β σ) (i : Input β σ ε π) :
    Seat β σ × Except ε (Option π) × Option σ :=
  let r := step build s i
  (r.1,r.2,r.1.session)

/- Without a session the remembered key is never read. -/
def Alike (s t : Seat β σ) : Prop :=
  s.session = t.session ∧ (s.session.isSome → s.last=t.last)

variable (build : β → Except ε σ)

theorem observe_alike {s t : Seat β σ} (h : Alike s t) (i : Input β σ ε π) :
    (observe build s i).2=(observe build t i).2 ∧
      Alike (observe build s i).1 (observe build t i).1 := by
  obtain ⟨session,last⟩:=s
  obtain ⟨session',last'⟩:=t
  obtain ⟨rfl,hlast⟩ : session=session' ∧ _ := h
  cases session with
  | none =>
    cases i with
    | offer key =>
      simp only [observe,step,Option.isSome_none,Bool.false_eq_true,false_and,if_false]
      cases build key with
      | ok u => exact ⟨trivial,rfl,fun _ => rfl⟩
      | error e => exact ⟨trivial,rfl,fun _ => rfl⟩
    | use unready f => exact ⟨rfl,rfl,hlast⟩
    | refuse e => exact ⟨rfl,rfl,hlast⟩
  | some u =>
    -- the two seats are equal
    obtain rfl : last=last' := hlast rfl
    exact ⟨rfl,rfl,fun _ => rfl⟩

theorem outputs_alike {s t : Seat β σ} (h : Alike s t) (is : List (Input β σ ε π)) :
    Machine.outputs (observe build) s is=Machine.outputs (observe build) t is := by
  have hsim:=Machine.outputs_eq_of_simulation (observe build) (observe build) id Alike
    (fun s t i h => observe_alike build h i) s t is h
  rwa [List.map_id] at hsim

theorem step_offer_error {s : Seat β σ} {key : β} {e : ε}
    (h : (step build s (.offer key : Input β σ ε π)).2 = .error e) :
    step build s (.offer key : Input β σ ε π)=(⟨s.session,some key⟩,.error e) := by
  have hnew : ¬ (s.session.isSome ∧ some key=s.last) := by
    intro hsame
    rw [step,if_pos hsame] at h
    cases h
  rw [step,if_neg hnew] at h ⊢
  cases hb : build key with
  | ok u =>
    rw [hb] at h
    cases h
  | error e' =>
    rw [hb] at h
    cases h
    rfl

theorem unnoticed_of_none {s : Seat β σ} (key : β) (hnone : s.session=none)
    (is : List (Input β σ ε π)) :
    Machine.outputs (observe build) (⟨s.session,some key⟩ : Seat β σ) is =
      Machine.outputs (observe build) s is := by
  apply outputs_alike
  constructor
  · rfl
  intro hsome
  rw [hnone] at hsome
  cases hsome

theorem noticed_of_some {s : Seat β σ} {key : β} {e : ε}
    (h : (step build s (.offer key : Input β σ ε π)).2 = .error e) (hsome : s.session≠none) :
    (observe build (⟨s.session,some key⟩ : Seat β σ) (.offer key : Input β σ ε π)).2.1 = .ok none ∧
      (observe build s (.offer key : Input β σ ε π)).2.1 = .error e := by
  constructor
  · have hkept : (⟨s.session,some key⟩ : Seat β σ).session.isSome ∧ some key=some key :=
      ⟨Option.isSome_iff_ne_none.mpr hsome,rfl⟩
    rw [observe,step,if_pos hkept]
  · exact h

/-! ### Machines that are seats -/

section
variable {κ α : Type} {onFrame : κ → α → κ × Except ε (Option π)} {seat : κ → Seat β σ}
  {build : κ → β → Except ε σ} {input : α → Input β σ ε π}

/-- A machine with a seat in it: what builds a session never changes. -/
def Implements (onFrame : κ → α → κ × Except ε (Option π)) (seat : κ → Seat β σ)
    (build : κ → β → Except ε σ) (input : α → Input β σ ε π) : Prop :=
  ∀ c a, (seat (onFrame c a).1,(onFrame c a).2) = step (build c) (seat c) (input a) ∧
    build (onFrame c a).1 = build c

def watch (onFrame : κ → α → κ × Except ε (Option π)) (seat : κ → Seat β σ) (c : κ) (a : α) :
    κ × Except ε (Option π) × Option σ :=
  let r := onFrame c a
  (r.1,r.2,(seat r.1).session)

theorem outputs_watch (h : Implements onFrame seat build input) (c : κ) (as : List α) :
    Machine.outputs (watch onFrame seat) c as =
      Machine.outputs (observe (build c)) (seat c) (as.map input) := by
  apply Machine.outputs_eq_of_simulation (watch onFrame seat) (observe (build c)) input
    (fun c' s => build c'=build c ∧ seat c'=s)
  · intro c' s a hR
    obtain ⟨hbuild,rfl⟩:=hR
    obtain ⟨hstep,hkept⟩:=h c' a
    rw [hbuild] at hstep hkept
    rw [watch,observe,← hstep]
    exact ⟨rfl,hkept,rfl⟩
  · exact ⟨rfl,rfl⟩

/-- A failure goes unnoticed exactly where it was not that of an offer or there was no
session. `cut` is what is kept of the answers; it keeps a single one. -/
theorem atomic_iff (h : Implements onFrame seat build input)
    (cut : List (Except ε (Option π) × Option σ) → List (Except ε (Option π) × Option σ))
    (hcut : ∀ o,cut [o] = [o]) {c : κ} {a : α} {key : β} {e : ε} {p : Prop}
    (hskip : p → (onFrame c a).1=c) (hoffer : ¬ p → input a = .offer key)
    (he : (onFrame c a).2 = .error e) :
    (∀ as,cut (Machine.outputs (watch onFrame seat) (onFrame c a).1 as) =
      cut (Machine.outputs (watch onFrame seat) c as)) ↔ p ∨ (seat c).session=none := by
  by_cases hp : p
  · rw [hskip hp]
    exact ⟨fun _ => .inl hp,fun _ _ => rfl⟩
  have ha:=hoffer hp
  rw [or_iff_right hp]
  obtain ⟨hstep,hkept⟩:=h c a
  rw [ha] at hstep
  have herr : (step (build c) (seat c) (.offer key : Input β σ ε π)).2 = .error e := by
    rw [← hstep]
    exact he
  have hseat : seat (onFrame c a).1=⟨(seat c).session,some key⟩ := by
    rw [step_offer_error (build c) herr] at hstep
    exact congrArg Prod.fst hstep
  have hafter (as : List α) : Machine.outputs (watch onFrame seat) (onFrame c a).1 as =
      Machine.outputs (observe (build c)) ⟨(seat c).session,some key⟩ (as.map input) := by
    rw [outputs_watch h,hkept,hseat]
  constructor
  · intro hall
    by_contra hsome
    obtain ⟨hrepeat,hrefuse⟩:=noticed_of_some (build c) herr hsome
    have hsingle:=hall [a]
    rw [hafter,outputs_watch h,List.map_cons,List.map_nil,ha] at hsingle
    simp only [Machine.outputs,hcut] at hsingle
    have hsame:=congrArg Prod.fst (List.cons.inj hsingle).1
    rw [hrepeat,hrefuse] at hsame
    cases hsame
  · intro hnone as
    rw [hafter,outputs_watch h,unnoticed_of_none (build c) key hnone]

end

/-! ### Uses that return at most once -/

/-- After a key has been followed by a different one, it does not occur again. -/
def NeverReturns : List β → Prop
  | [] => True
  | b :: bs => b ∉ bs.dropWhile (· == b) ∧ NeverReturns bs

instance decidableNeverReturns : (bs : List β) → Decidable (NeverReturns bs)
  | [] => isTrue trivial
  | b :: bs =>
    have := decidableNeverReturns bs
    inferInstanceAs (Decidable (b ∉ bs.dropWhile (· == b) ∧ NeverReturns bs))

theorem neverReturns_of_append {bs cs : List β} (h : NeverReturns (bs++cs)) : NeverReturns bs := by
  induction bs with
  | nil => trivial
  | cons b bs ih =>
    rw [List.cons_append] at h
    refine ⟨fun hb => h.1 ?_,ih h.2⟩
    rw [List.dropWhile_append]
    split
    next hemp =>
      rw [List.isEmpty_iff.mp hemp] at hb
      cases hb
    next => exact List.mem_append_left cs hb

theorem getLast_of_neverReturns {bs : List β} {b : β} (h : NeverReturns (bs ++ [b])) (hb : b∈bs) :
    bs.getLast? = some b := by
  induction bs with
  | nil => cases hb
  | cons x xs ih =>
    rw [List.cons_append] at h
    by_cases hxs : b∈xs
    · rw [List.getLast?_cons,ih h.2 hxs]
      rfl
    have hx : b=x := (List.mem_cons.mp hb).resolve_right hxs
    subst hx
    cases xs with
    | nil => rfl
    | cons y ys =>
      have hy : ¬ (y == b)=true := by
        rw [beq_iff_eq]
        rintro rfl
        exact hxs List.mem_cons_self
      have hnot:=h.1
      rw [List.cons_append,List.dropWhile_cons,if_neg hy] at hnot
      exact absurd (by simp) hnot

def Input.offered : Input β σ ε π → Option β
  | .offer key => some key
  | _ => none

/-- Sessions with the same secret come from the same key. -/
def KeysDiffer {ρ : Type} (build : β → Except ε σ) (secret : σ → ρ) (keys : List β) : Prop :=
  ∀ b ∈ keys, ∀ b' ∈ keys, ∀ t t', build b = .ok t → build b' = .ok t' → secret t = secret t' → b=b'

/-- Every effect of a step, by the input that causes it. -/
inductive Effect (build : β → Except ε σ) (s : Seat β σ) :
    Input β σ ε π → Seat β σ × Except ε (Option π) → Prop
  | refused (i : Input β σ ε π) (e : ε) (h : i.offered = none) : Effect build s i (s,.error e)
  | repeated (key : β) (h : s.last = some key) : Effect build s (.offer key) (s,.ok none)
  | failed (key : β) (e : ε) : Effect build s (.offer key) (⟨s.session,some key⟩,.error e)
  | built (key : β) (t : σ) (hnew : ¬ (s.session.isSome ∧ some key = s.last))
      (hb : build key = .ok t) : Effect build s (.offer key) (⟨some t,some key⟩,.ok none)
  | used (e : ε) (f : σ → Except ε (π × σ)) (t t' : σ) (p : π) (hs : s.session = some t)
      (hf : f t = .ok (p,t')) : Effect build s (.use e f) (⟨some t',s.last⟩,.ok (some p))

theorem step_effect (s : Seat β σ) (i : Input β σ ε π) : Effect build s i (step build s i) := by
  cases i with
  | offer key =>
    simp only [step]
    split
    next hsame => exact .repeated key hsame.2.symm
    next hnew =>
      split
      next t hb => exact .built key t hnew hb
      next e hb => exact .failed key e
  | use e f =>
    simp only [step]
    split
    next => exact .refused _ _ rfl
    next t hs =>
      split
      next p t' hf => exact .used e f t t' p hs hf
      next e' hf => exact .refused _ _ rfl
  | refuse e => exact .refused _ _ rfl

section Once
variable {ρ : Type} (secret : σ → ρ) (k : ρ) (Spent : σ → Prop)

/-- What returns from a session keeps its secret and what is spent in it. A marked use
returns only from a session with the secret `k` in which it is not spent, and then is. -/
structure Guards (marked : Prop) (i : Input β σ ε π) : Prop where
  kept : ∀ e f t p t', i = .use e f → f t = .ok (p,t') → secret t'=secret t ∧ (Spent t → Spent t')
  once : marked → ∀ e f t p t', i = .use e f → f t = .ok (p,t') →
    secret t=k ∧ ¬ Spent t ∧ Spent t'

/-- The seat after the offers `past`. -/
structure Offered (past : List β) (s : Seat β σ) : Prop where
  last : s.last = past.getLast?
  origin : ∀ t, s.session = some t → ∃ b ∈ past, ∃ t₀, build b = .ok t₀ ∧ secret t₀=secret t

/-- A session with the secret `k` has been built, and the one there has spent what is
marked if that is its secret. -/
structure Closed (past : List β) (s : Seat β σ) : Prop where
  offered : Offered build secret past s
  present : s.session.isSome
  origin : ∃ b ∈ past, ∃ t₀, build b = .ok t₀ ∧ secret t₀=k
  spent : ∀ t, s.session = some t → secret t=k → Spent t

variable {build secret k Spent} {past : List β} {s : Seat β σ} {i : Input β σ ε π} {marked : Prop}

theorem Offered.next (h : Offered build secret past s) (hg : Guards secret k Spent marked i) :
    Offered build secret (past++i.offered.toList) (step build s i).1 := by
  have heff:=step_effect build s i
  generalize step build s i=r at heff
  cases heff with
  | refused i e hoff =>
    rw [hoff,Option.toList_none,List.append_nil]
    exact h
  | repeated key hlast =>
    refine ⟨by simpa [Input.offered] using hlast,fun t ht => ?_⟩
    obtain ⟨b,hb,ht₀⟩:=h.origin t ht
    exact ⟨b,List.mem_append_left _ hb,ht₀⟩
  | failed key e =>
    refine ⟨by simp [Input.offered],fun t ht => ?_⟩
    obtain ⟨b,hb,ht₀⟩:=h.origin t ht
    exact ⟨b,List.mem_append_left _ hb,ht₀⟩
  | built key t hnew hbuild =>
    refine ⟨by simp [Input.offered],fun t' ht => ?_⟩
    cases ht
    exact ⟨key,by simp [Input.offered],t,hbuild,rfl⟩
  | used e f t t' p hs hf =>
    refine ⟨by simpa [Input.offered] using h.last,fun u hu => ?_⟩
    cases hu
    obtain ⟨b,hb,t₀,hb₀,hsec⟩:=h.origin t hs
    exact ⟨b,List.mem_append_left _ hb,t₀,hb₀,hsec.trans (hg.kept e f t p _ rfl hf).1.symm⟩

/- A new session does not have the secret: the key it would come from has been followed by
another one, or is the last one, which is no new offer. -/
theorem Closed.next (h : Closed build secret k Spent past s) (hg : Guards secret k Spent marked i)
    (hkeys : KeysDiffer build secret (past++i.offered.toList))
    (hret : NeverReturns (past++i.offered.toList)) :
    Closed build secret k Spent (past++i.offered.toList) (step build s i).1 := by
  have hoffered:=h.offered.next hg
  obtain ⟨b,hb,t₀,hbuild₀,hsec⟩:=h.origin
  have horigin : ∃ b∈past++i.offered.toList, ∃ t₀,build b = .ok t₀ ∧ secret t₀=k :=
    ⟨b,List.mem_append_left _ hb,t₀,hbuild₀,hsec⟩
  have heff:=step_effect build s i
  generalize step build s i=r at heff hoffered
  cases heff with
  | refused i e hoff => exact ⟨hoffered,h.present,horigin,h.spent⟩
  | repeated key hlast => exact ⟨hoffered,h.present,horigin,h.spent⟩
  | failed key e => exact ⟨hoffered,h.present,horigin,h.spent⟩
  | built key t hnew hbuild =>
    refine ⟨hoffered,rfl,horigin,fun u hu hk => ?_⟩
    cases hu
    obtain rfl : b=key := hkeys b (List.mem_append_left _ hb) key (by simp [Input.offered]) t₀ t
      hbuild₀ hbuild (hsec.trans hk.symm)
    have hlast : s.last=some b := h.offered.last.trans (getLast_of_neverReturns hret hb)
    exact absurd ⟨h.present,hlast.symm⟩ hnew
  | used e f t t' p hs hf =>
    refine ⟨hoffered,rfl,horigin,fun u hu hk => ?_⟩
    cases hu
    obtain ⟨hsame,hspent⟩:=hg.kept e f t p _ rfl hf
    exact hspent (h.spent t hs (hsame.symm.trans hk))

def returns : Except ε (Option π) → Bool
  | .ok (some _) => true
  | _ => false

theorem Closed.silent (h : Closed build secret k Spent past s) (hg : Guards secret k Spent marked i)
    (hmarked : marked) : returns (step build s i).2=false := by
  have heff:=step_effect build s i
  generalize step build s i=r at heff
  cases heff with
  | used e f t t' p hs hf =>
    obtain ⟨hsec,hfresh,-⟩:=hg.once hmarked e f t p t' rfl hf
    exact absurd (h.spent t hs hsec) hfresh
  | _ => rfl

theorem Offered.close (h : Offered build secret past s) (hg : Guards secret k Spent marked i)
    (hmarked : marked) (hr : returns (step build s i).2=true) :
    Closed build secret k Spent (past++i.offered.toList) (step build s i).1 := by
  have hoffered:=h.next hg
  have heff:=step_effect build s i
  generalize step build s i=r at heff hoffered hr
  cases heff with
  | used e f t t' p hs hf =>
    obtain ⟨hsec,-,hspent⟩:=hg.once hmarked e f t p t' rfl hf
    obtain ⟨b,hb,t₀,hb₀,hsec₀⟩:=h.origin t hs
    refine ⟨hoffered,rfl,⟨b,List.mem_append_left _ hb,t₀,hb₀,hsec₀.trans hsec⟩,fun u hu _ => ?_⟩
    cases hu
    exact hspent
  | _ => cases hr

end Once

section Runs
variable {ρ κ α : Type} {secret : σ → ρ} {k : ρ} {Spent : σ → Prop} {marked : α → Bool}
  {onFrame : κ → α → κ × Except ε (Option π)} {seat : κ → Seat β σ}
  {build : κ → β → Except ε σ} {input : α → Input β σ ε π}

/- How often a marked one of these was answered with a value. -/
def taken (marked : α → Bool) (as : List α) (answers : List (Except ε (Option π))) : ℕ :=
  (as.zip answers).countP fun x => marked x.1 && returns x.2

def offers (input : α → Input β σ ε π) (as : List α) : List β :=
  as.filterMap fun a => (input a).offered

omit [DecidableEq β] in
theorem offers_cons (a : α) (as : List α) :
    offers input (a::as)=(input a).offered.toList++offers input as := by
  cases h : (input a).offered <;> simp [offers,h]

omit [DecidableEq β] in
theorem KeysDiffer.mono {build : β → Except ε σ} {keys keys' : List β}
    (h : KeysDiffer build secret keys) (hsub : keys' ⊆ keys) : KeysDiffer build secret keys' :=
  fun b hb b' hb' => h b (hsub hb) b' (hsub hb')

theorem Closed.taken_eq_zero {build : β → Except ε σ} {past : List β} {s : Seat β σ} {as : List α}
    (h : Closed build secret k Spent past s)
    (hg : ∀ a∈as,Guards secret k Spent (marked a=true) (input a))
    (hkeys : KeysDiffer build secret (past++offers input as))
    (hret : NeverReturns (past++offers input as)) :
    taken marked as (Machine.outputs (step build) s (as.map input))=0 := by
  induction as generalizing past s with
  | nil => rfl
  | cons a as ih =>
    obtain ⟨ha,has⟩:=List.forall_mem_cons.1 hg
    rw [offers_cons,← List.append_assoc] at hkeys hret
    have hnext:=h.next ha (hkeys.mono (List.subset_append_left _ _)) (neverReturns_of_append hret)
    have hrest:=ih hnext has hkeys hret
    have hnow : (marked a && returns (step build s (input a)).2)=false := by
      cases hm : marked a with
      | false => rfl
      | true => exact h.silent ha hm
    simpa [taken,Machine.outputs,hnow] using hrest

theorem Offered.taken_le_one {build : β → Except ε σ} {past : List β} {s : Seat β σ} {as : List α}
    (h : Offered build secret past s)
    (hg : ∀ a∈as,Guards secret k Spent (marked a=true) (input a))
    (hkeys : KeysDiffer build secret (past++offers input as))
    (hret : NeverReturns (past++offers input as)) :
    taken marked as (Machine.outputs (step build) s (as.map input)) ≤ 1 := by
  induction as generalizing past s with
  | nil => exact Nat.zero_le 1
  | cons a as ih =>
    obtain ⟨ha,has⟩:=List.forall_mem_cons.1 hg
    rw [offers_cons,← List.append_assoc] at hkeys hret
    cases hnow : marked a && returns (step build s (input a)).2 with
    | false =>
      have hrest:=ih (h.next ha) has hkeys hret
      simpa [taken,Machine.outputs,hnow] using hrest
    | true =>
      rw [Bool.and_eq_true] at hnow
      have hrest:=(h.close ha hnow.1 hnow.2).taken_eq_zero has hkeys hret
      simp only [taken,Machine.outputs,List.map_cons,List.zip_cons_cons,List.countP_cons,hnow.1,
        hnow.2,Bool.and_self,if_true] at hrest ⊢
      omega

theorem outputs_onFrame (h : Implements onFrame seat build input) (c : κ) (as : List α) :
    Machine.outputs onFrame c as =
      Machine.outputs (step (build c)) (seat c) (as.map input) := by
  apply Machine.outputs_eq_of_simulation onFrame (step (build c)) input
    (fun c' s => build c'=build c ∧ seat c'=s)
  · intro c' s a hR
    obtain ⟨hbuild,rfl⟩:=hR
    obtain ⟨hstep,hkept⟩:=h c' a
    rw [hbuild] at hstep hkept
    rw [← hstep]
    exact ⟨rfl,hkept,rfl⟩
  · exact ⟨rfl,rfl⟩

/-- Where no key comes back after a different one, what is marked returns at most once. -/
theorem taken_le_one (h : Implements onFrame seat build input) {c : κ} {as : List α}
    (hfresh : seat c=⟨none,none⟩) (hg : ∀ a∈as,Guards secret k Spent (marked a=true) (input a))
    (hkeys : KeysDiffer (build c) secret (offers input as))
    (hret : NeverReturns (offers input as)) :
    taken marked as (Machine.outputs onFrame c as) ≤ 1 := by
  rw [outputs_onFrame h]
  have hstart : Offered (build c) secret [] (seat c) := by
    rw [hfresh]
    exact ⟨rfl,fun t ht => by cases ht⟩
  exact hstart.taken_le_one hg hkeys hret

end Runs

end SecureGateway.Rekeying
