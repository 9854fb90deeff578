import Mathlib.Data.List.Basic

/-!
# Readings that still stand

Several parties act on one state, each on what it has read before. `standing i` is the last
reading of party `i` in a history, unless an entry that spoils it came later. Where readings
are true when made and only spoiling entries make them false, a reading that stands is true.
-/

namespace SecureGateway.Standing
variable {ε ρ : Type} (reading : ε → Option ρ) (spoils : ℕ × ε → List (ℕ × ε) → Bool)

def standing (i : ℕ) : List (ℕ × ε) → Option ρ
  | [] => none
  | x :: history =>
    match (if x.1=i then reading x.2 else none) with
    | some r => some r
    | none => if spoils x history then none else standing i history

variable {reading spoils}

theorem standing_cons {i : ℕ} {x : ℕ × ε} {history : List (ℕ × ε)} {r : ρ}
    (h : standing reading spoils i (x::history)=some r) :
    (x.1=i ∧ reading x.2=some r) ∨
      (spoils x history=false ∧ standing reading spoils i history=some r) := by
  unfold standing at h
  split at h
  · next r' hread =>
    cases h
    split at hread
    · next hi => exact .inl ⟨hi,hread⟩
    · cases hread
  · split at h
    · cases h
    · next hspoils => exact .inr ⟨by simpa using hspoils,h⟩

theorem read_of_standing {i : ℕ} {history : List (ℕ × ε)} {r : ρ}
    (h : standing reading spoils i history=some r) : ∃ e,(i,e)∈history ∧ reading e=some r := by
  induction history with
  | nil => cases h
  | cons x history ih =>
    rcases standing_cons h with ⟨hi,hread⟩ | ⟨-,hold⟩
    · subst hi
      exact ⟨x.2,List.mem_cons_self,hread⟩
    · obtain ⟨e,he,hread⟩:=ih hold
      exact ⟨e,List.mem_cons_of_mem x he,hread⟩

end SecureGateway.Standing
