import Mathlib.Algebra.Order.Group.Int
import Mathlib.Algebra.Ring.Int.Defs
import Mathlib.Logic.Function.Iterate

/-!
An integer that moves half of the way to a target, with the half rounded to zero or down.
Rounded to zero it stops one off the target, on the side that it started from; rounded down
it reaches a target from above and stops one below it otherwise.
-/

namespace Halving

/-- Half of the way, rounded to zero. -/
def toward (target value : Int) : Int := value + (target - value).tdiv 2

/-- Half of the way, rounded down. -/
def downward (target value : Int) : Int := value + (target - value) / 2

theorem toward_below (target value : Int) (below : value ≤ target) :
    toward target value = downward target value := by
  rw [toward, Int.tdiv_eq_ediv_of_nonneg (by omega)]
  rfl

theorem toward_above (target value : Int) (above : target ≤ value) :
    toward target value = value - (value - target) / 2 := by
  have flipped : (target - value).tdiv 2 = -((value - target) / 2) := by
    rw [← Int.neg_sub, Int.neg_tdiv, Int.tdiv_eq_ediv_of_nonneg (by omega)]
  rw [toward, flipped]
  omega

def Within (low high value : Int) : Prop := low ≤ value ∧ value ≤ high

theorem downward_within {low high target value : Int} (targetWithin : Within low high target)
    (valueWithin : Within low high value) : Within low high (downward target value) := by
  rcases targetWithin with ⟨targetLow, targetHigh⟩
  rcases valueWithin with ⟨valueLow, valueHigh⟩
  rw [downward]
  constructor <;> omega

/-- A value between bounds stays between them while its targets do. -/
theorem toward_within {low high target value : Int} (targetWithin : Within low high target)
    (valueWithin : Within low high value) : Within low high (toward target value) := by
  rcases le_total value target with below | above
  · rw [toward_below target value below]
    exact downward_within targetWithin valueWithin
  · rcases targetWithin with ⟨targetLow, targetHigh⟩
    rcases valueWithin with ⟨valueLow, valueHigh⟩
    rw [toward_above target value above]
    constructor <;> omega

/-- What halves with every step is at most one after as many steps as it has binary digits. -/
theorem halved_iterate (step : Int → Int) (side : Int → Prop) (gap : Int → Int)
    (halves : ∀ value bound, side value → gap value ≤ bound * 2 →
      side (step value) ∧ gap (step value) ≤ bound)
    (count : Nat) (value : Int) (start : side value) (near : gap value ≤ 2 ^ count) :
    side (step^[count] value) ∧ gap (step^[count] value) ≤ 1 := by
  induction count generalizing value with
  | zero => exact ⟨start, near.trans_eq (pow_zero 2)⟩
  | succ count induction =>
      rw [pow_succ] at near
      have next := halves value (2 ^ count) start near
      rw [Function.iterate_succ_apply]
      exact induction (step value) next.1 next.2

theorem downward_from_below (count : Nat) (target value : Int) (below : value < target)
    (near : target - value ≤ 2 ^ count) : (downward target)^[count] value = target - 1 := by
  have settled := halved_iterate (downward target) (fun value => value < target)
    (fun value => target - value)
    (fun value bound below near => by
      simp only [downward] at below near ⊢
      omega)
    count value below near
  omega

theorem downward_from_above (count : Nat) (target value : Int) (above : target ≤ value)
    (near : value - target < 2 ^ count) : (downward target)^[count] value = target := by
  have settled := halved_iterate (downward target) (fun value => target ≤ value)
    (fun value => value - target + 1)
    (fun value bound above near => by
      simp only [downward] at above near ⊢
      omega)
    count value above near
  omega

theorem toward_from_below (count : Nat) (target value : Int) (below : value < target)
    (near : target - value ≤ 2 ^ count) : (toward target)^[count] value = target - 1 := by
  have settled := halved_iterate (toward target) (fun value => value < target)
    (fun value => target - value)
    (fun value bound below near => by
      simp only [toward_below target value below.le, downward] at below near ⊢
      omega)
    count value below near
  omega

theorem toward_from_above (count : Nat) (target value : Int) (above : target < value)
    (near : value - target ≤ 2 ^ count) : (toward target)^[count] value = target + 1 := by
  have settled := halved_iterate (toward target) (fun value => target < value)
    (fun value => value - target)
    (fun value bound above near => by
      simp only [toward_above target value above.le] at above near ⊢
      omega)
    count value above near
  omega

theorem toward_self (target : Int) : toward target target = target := by
  rw [toward_below target target le_rfl, downward]
  omega

end Halving
