import Mathlib.Data.List.Basic
import Mathlib.Algebra.Order.Group.Nat

/-!
# Counting since a mark

`since mark l` is the number of counted entries of a history that no marked entry follows:
those since the last mark, or all of them if there is none. Two kinds of marks give the
same count exactly if no counted entry lies between the last ones (`since_eq_iff`).
-/

namespace SecureGateway.Since
variable {α : Type} (counted : α → Bool) (mark mark' : α → Bool)

def since : List α → ℕ
  | [] => 0
  | e :: l => (if counted e && !l.any mark then 1 else 0) + since l

@[simp] theorem since_nil : since counted mark []=0 := rfl

theorem since_append (l l' : List α) :
    since counted mark (l++l') =
      (if l'.any mark then 0 else since counted mark l)+since counted mark l' := by
  induction l with
  | nil => cases l'.any mark <;> simp
  | cons e l ih =>
    rw [List.cons_append,since,since,ih,List.any_append]
    cases l'.any mark with
    | true => simp
    | false =>
      rw [Bool.or_false]
      simp only [Bool.false_eq_true,if_false]
      omega

variable (l : List α)

theorem since_of_forall (h : ∀ e∈l,counted e=false) : since counted mark l=0 := by
  induction l with
  | nil => rfl
  | cons e l ih =>
    rw [since,h e List.mem_cons_self,ih fun e' he' => h e' (List.mem_cons_of_mem e he')]
    rfl

theorem since_le : since counted mark l≤l.countP counted := by
  induction l with
  | nil => exact Nat.le_refl 0
  | cons e l ih =>
    rw [since,List.countP_cons]
    cases counted e with
    | true => split <;> simp only [if_true] <;> omega
    | false => simpa using ih

theorem since_of_unmarked (h : l.any mark=false) : since counted mark l=l.countP counted := by
  induction l with
  | nil => rfl
  | cons e l ih =>
    rw [List.any_cons,Bool.or_eq_false_iff] at h
    rw [since,List.countP_cons,ih h.2,h.2,Bool.not_false,Bool.and_true]
    omega

theorem since_lt (h : l.any mark=false) : since counted mark' l<1+since counted mark l := by
  rw [since_of_unmarked counted mark l h]
  have hle:=since_le counted mark' l
  omega

theorem since_eq_iff :
    since counted mark l=since counted mark' l ↔
      ∀ x e y,l=x++e::y → counted e=true → y.any mark=y.any mark' := by
  induction l with
  | nil =>
    constructor
    · intro _ x e y h
      simp at h
    · intro _
      rfl
  | cons d l ih =>
    have htail : (∀ x e y,d::l=x++e::y → counted e=true → y.any mark=y.any mark') ↔
        (counted d=true → l.any mark=l.any mark') ∧
          ∀ x e y,l=x++e::y → counted e=true → y.any mark=y.any mark' := by
      constructor
      · intro h
        constructor
        · exact h [] d l rfl
        · intro x e y hl
          exact h (d::x) e y (by rw [hl,List.cons_append])
      · intro h x e y hl
        cases x with
        | nil =>
          obtain ⟨rfl,rfl⟩:=List.cons.inj hl
          exact h.1
        | cons d' x => exact h.2 x e y (List.cons.inj hl).2
    rw [htail,← ih,since,since]
    cases hd : counted d with
    | false => simp
    | true =>
      have hlt:=since_lt counted mark mark' l
      have hlt':=since_lt counted mark' mark l
      cases hm : l.any mark with
      | true =>
        cases hm' : l.any mark' with
        | true => simp
        | false =>
          have := hlt' hm'
          simp only [Bool.not_true,Bool.and_false,Bool.not_false,Bool.and_true,if_true,
            Bool.false_eq_true,if_false]
          constructor
          · intro h
            omega
          · intro h
            cases h.1 trivial
      | false =>
        cases hm' : l.any mark' with
        | true =>
          have := hlt hm
          simp only [Bool.not_true,Bool.and_false,Bool.not_false,Bool.and_true,if_true,
            Bool.false_eq_true,if_false]
          constructor
          · intro h
            omega
          · intro h
            cases h.1 trivial
        | false => simp

end SecureGateway.Since
