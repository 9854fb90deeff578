import Mathlib.Data.List.Basic
import Mathlib.Algebra.Order.Group.Nat
import Mathlib.Tactic.Common

/-!
# A bounded anti-replay window

A window lets an envelope through if it does not remember its key and the time is not behind
the newest by more than the width; it then remembers the key, and forgets those that have
fallen behind. Times are 64-bit and their difference wraps around. A `Spent` envelope never
passes again; `Heard` is what a window can know of the past.
-/

namespace SecureGateway.ReplayWindow
variable {κ : Type} [Ord κ] [Std.TransOrd κ]

structure Window (κ : Type) [Ord κ] where
  seen : Std.ExtTreeMap κ Int64 compare
  lastTs : Int64
  primed : Bool

namespace Window

def empty : Window κ := ⟨∅,0,false⟩

def advanceTs (w : Window κ) (ts : Int64) : Int64 :=
  if !w.primed || ts > w.lastTs then ts else w.lastTs

def Allows (width : Int64) (w : Window κ) (k : κ) (ts : Int64) : Prop :=
  ¬ (w.primed=true ∧ ts < w.lastTs - width) ∧ w.seen[k]? = none

def accept (width : Int64) (w : Window κ) (k : κ) (ts : Int64) : Window κ where
  seen := (w.seen.insert k ts).filter fun _ t => !(t < w.advanceTs ts - width)
  lastTs := w.advanceTs ts
  primed := true

variable {width : Int64} {w : Window κ} {k k' : κ} {ts ts' : Int64}

theorem seen_accept [Std.LawfulEqOrd κ] [DecidableEq κ] :
    (w.accept width k' ts).seen[k]? =
      (if k'=k then some ts else w.seen[k]?).filter fun t => !(t<w.advanceTs ts - width) := by
  simp [accept,Std.ExtTreeMap.getElem?_insert]

omit [Std.TransOrd κ] in
theorem ts_le_advanceTs : ts≤w.advanceTs ts := by
  unfold advanceTs
  split
  · exact Int64.le_refl ts
  next h =>
    simp only [Bool.or_eq_true,Bool.not_eq_true',decide_eq_true_eq,not_or] at h
    exact Int64.not_lt.mp h.2

omit [Std.TransOrd κ] in
theorem lastTs_le_advanceTs (hp : w.primed=true) : w.lastTs≤w.advanceTs ts := by
  unfold advanceTs
  split
  next h =>
    simp only [hp,Bool.not_true,Bool.false_or,decide_eq_true_eq] at h
    exact Int64.le_of_lt h
  · exact Int64.le_refl w.lastTs

/-! ### Spent envelopes -/

/-- The key is remembered, or the time is already behind the window. -/
def Spent (width : Int64) (w : Window κ) (k : κ) (ts : Int64) : Prop :=
  w.primed = true ∧ ts≤w.lastTs ∧ (w.seen[k]? = some ts ∨ ts < w.lastTs - width)

theorem not_allows_of_spent (h : w.Spent width k ts) : ¬ w.Allows width k ts := by
  intro hallows
  obtain ⟨hp,-,hs⟩:=h
  cases hs with
  | inl hseen =>
    rw [hallows.2] at hseen
    cases hseen
  | inr hlate => exact hallows.1 ⟨hp,hlate⟩

theorem spent_accept [Std.LawfulEqOrd κ] [DecidableEq κ] : (w.accept width k ts).Spent width k ts := by
  refine ⟨rfl,ts_le_advanceTs,?_⟩
  rw [seen_accept]
  by_cases h : ts<w.advanceTs ts - width
  · exact Or.inr h
  · simp [h]

omit [Std.TransOrd κ] in
/- The floor moves forward also where the subtraction wraps around: a time behind the
wrapped floor can only be followed by times above it. -/
theorem behind_floor_accept (hwidth : 0≤width) (hp : w.primed=true) (hle : ts≤w.lastTs)
    (hts : ts<w.lastTs - width) (hok : ¬ ts'<w.lastTs - width) : ts<w.advanceTs ts' - width := by
  have hzero : (0 : Int64).toInt=0 := by decide
  have h1:=w.lastTs.le_toInt
  have h2:=w.lastTs.toInt_lt
  have h3:=ts'.le_toInt
  have h4:=ts'.toInt_lt
  have h5:=width.toInt_lt
  unfold advanceTs
  split
  next hnew =>
    simp only [hp,Bool.not_true,Bool.false_or,decide_eq_true_eq] at hnew
    simp only [Int64.lt_iff_toInt_lt,Int64.le_iff_toInt_le,Int64.toInt_sub,hzero,
      Int.bmod_def] at *
    omega
  · exact hts

theorem spent_of_accept [Std.LawfulEqOrd κ] [DecidableEq κ] (hwidth : 0≤width)
    (h : w.Spent width k ts) (hallows : w.Allows width k' ts') : (w.accept width k' ts').Spent width k ts := by
  obtain ⟨hp,hle,hs⟩:=h
  refine ⟨rfl,Int64.le_trans hle (lastTs_le_advanceTs hp),?_⟩
  cases hs with
  | inl hseen =>
    have hne : k'≠k := by
      intro hk
      rw [← hk,hallows.2] at hseen
      cases hseen
    rw [seen_accept,if_neg hne,hseen]
    by_cases hf : ts<w.advanceTs ts' - width
    · exact Or.inr hf
    · simp [hf]
  | inr hlate =>
    have hok : ¬ ts'<w.lastTs - width := fun hlt => hallows.1 ⟨hp,hlt⟩
    exact Or.inr (behind_floor_accept hwidth hp hle hlate hok)

/-! ### What a window has heard -/

def Heard (w : Window κ) (past : κ → Int64 → Prop) : Prop :=
  (∀ k, w.seen[k]? ≠ none → ∃ ts, past k ts) ∧ (w.primed=true → ∃ k, past k w.lastTs)

variable {past past' : κ → Int64 → Prop}

theorem heard_empty : (empty : Window κ).Heard past := by
  constructor
  · intro k h
    simp [empty] at h
  · intro h
    cases h

theorem Heard.mono (h : w.Heard past) (hsub : ∀ k ts,past k ts → past' k ts) : w.Heard past' := by
  constructor
  · intro k hk
    obtain ⟨t,ht⟩:=h.1 k hk
    exact ⟨t,hsub k t ht⟩
  · intro hp
    obtain ⟨k,hk⟩:=h.2 hp
    exact ⟨k,hsub k _ hk⟩

theorem heard_accept [Std.LawfulEqOrd κ] [DecidableEq κ] (h : w.Heard past) (k : κ) (ts : Int64) :
    (w.accept width k ts).Heard fun k' t => past k' t ∨ k'=k ∧ t=ts := by
  constructor
  · intro k' hk'
    rw [seen_accept] at hk'
    by_cases hk : k=k'
    · exact ⟨ts,.inr ⟨hk.symm,rfl⟩⟩
    rw [if_neg hk] at hk'
    have hseen : w.seen[k']? ≠ none := by
      intro hnone
      rw [hnone] at hk'
      exact hk' rfl
    obtain ⟨t,ht⟩:=h.1 k' hseen
    exact ⟨t,.inl ht⟩
  · intro _
    show ∃ k',past k' (w.advanceTs ts) ∨ k'=k ∧ w.advanceTs ts=ts
    unfold advanceTs
    split
    · exact ⟨k,.inr ⟨rfl,rfl⟩⟩
    next hold =>
      have hp : w.primed=true := by
        cases hp : w.primed with
        | false => simp [hp] at hold
        | true => rfl
      obtain ⟨k',hk'⟩:=h.2 hp
      exact ⟨k',.inl hk'⟩

omit [Ord κ] [Std.TransOrd κ] in
theorem not_lt_sub_width {last : Int64} (hwidth : 0≤width) (hlast : 0≤last)
    (hts : last.toInt - width.toInt≤ts.toInt) : ¬ ts<last - width := by
  have hzero : (0 : Int64).toInt=0 := by decide
  have hlt:=last.toInt_lt
  have hlt':=width.toInt_lt
  rw [Int64.le_iff_toInt_le,hzero] at hlast hwidth
  simp only [Int64.lt_iff_toInt_lt,Int64.toInt_sub,Int.bmod_def]
  omega

theorem allows_of_heard (hwidth : 0≤width) (h : w.Heard past) (hnew : ∀ t,¬ past k t)
    (htime : ∀ k' t,past k' t → 0≤t ∧ t.toInt - width.toInt≤ts.toInt) : w.Allows width k ts := by
  constructor
  · intro hstale
    obtain ⟨k',hk'⟩:=h.2 hstale.1
    have hlast:=htime k' _ hk'
    exact not_lt_sub_width hwidth hlast.1 hlast.2 hstale.2
  · by_contra hseen
    obtain ⟨t,ht⟩:=h.1 k hseen
    exact hnew t ht

end Window
end SecureGateway.ReplayWindow
