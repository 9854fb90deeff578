import Mathlib.Algebra.Order.Field.Rat
import Mathlib.Tactic.Linarith
import Mathlib.Tactic.Ring

/-!
# Token buckets

A bucket holds at most `burst` tokens and gains `rate` of them for each unit of
time; whoever finds a whole token takes it. `level` is what the bucket would hold
at an instant: an idle stretch adds at most `rate` times its length, a token taken
costs one, and a bucket left alone long enough is full.
-/

namespace SecureGateway

structure Bucket where
  tokens : ℚ
  last : ℤ

namespace Bucket
variable (rate burst : ℚ)

def level (b : Bucket) (t : ℤ) : ℚ := min burst (b.tokens + rate * (t - b.last))

/- A refused attempt leaves the bucket as it was. -/
def take (b : Bucket) (t : ℤ) : Bool × Bucket :=
  if 1 ≤ b.level rate burst t then (true,⟨b.level rate burst t - 1,t⟩) else (false,b)

variable {rate burst} {b : Bucket} {t t' : ℤ}

theorem level_le : b.level rate burst t≤burst := min_le_left _ _

theorem level_nonneg (hrate : 0≤rate) (hburst : 0≤burst) (htokens : 0≤b.tokens)
    (hlast : b.last≤t) : 0≤b.level rate burst t := by
  have hidle : (0 : ℚ)≤t - b.last := sub_nonneg.2 (Int.cast_le.2 hlast)
  exact le_min hburst (add_nonneg htokens (mul_nonneg hrate hidle))

theorem level_later (hrate : 0≤rate) (ht : t≤t') :
    b.level rate burst t'≤b.level rate burst t+rate*(t' - t) := by
  have hgain : 0≤rate*((t' : ℚ) - t) := mul_nonneg hrate (sub_nonneg.2 (Int.cast_le.2 ht))
  unfold level
  rw [min_add]
  refine min_le_min (by linarith) (le_of_eq ?_)
  ring

theorem level_full (htokens : 0≤b.tokens) (hidle : burst≤rate*(t - b.last)) :
    b.level rate burst t=burst :=
  min_eq_left (by linarith)

theorem level_take :
    (b.take rate burst t).2.level rate burst t =
      b.level rate burst t - if (b.take rate burst t).1 then 1 else 0 := by
  unfold take
  split
  · have hle : b.level rate burst t≤burst := level_le
    rw [if_pos rfl]
    show min burst (b.level rate burst t - 1+rate*(t - t)) = _
    rw [sub_self,mul_zero,add_zero,min_eq_right (by linarith)]
  · rw [if_neg Bool.false_ne_true,sub_zero]

theorem take_tokens (htokens : 0≤b.tokens) : 0≤(b.take rate burst t).2.tokens := by
  unfold take
  split
  · next hone => exact sub_nonneg.2 hone
  · exact htokens

theorem take_last (rate burst : ℚ) (hlast : b.last≤t) : (b.take rate burst t).2.last≤t := by
  unfold take
  split
  · exact le_rfl
  · exact hlast

end Bucket
end SecureGateway
