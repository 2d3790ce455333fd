import Mathlib.Algebra.Order.Floor.Ring
import Mathlib.Data.Rat.Floor
import TokenVault.Clock

/-!
# Times as exact integers

A sum of times that stops at an end of the range still keeps its side of every bound that no
reading of a clock crosses, and whole seconds are the floor of the milliseconds.  So what is
decided with 64-bit times can be said of exact integers.
-/

namespace TokenVault

/-- Whether an integer is a time. -/
def FitsTime (n : Int) : Prop := leastTime ≤ n ∧ n ≤ greatestTime

instance (n : Int) : Decidable (FitsTime n) :=
  inferInstanceAs (Decidable (leastTime ≤ n ∧ n ≤ greatestTime))

theorem toInt_span (n : UInt64) : (span n).toInt = min (n.toNat : Int) greatestTime := by
  rw [span, toInt_saturate, leastTime, greatestTime]
  omega

/-! ### Sums that stop at the ends of the range -/

/-- A sum that stops at the end of the range is on the same side of a time that is not the
greatest. -/
theorem lt_saturate_iff {now : Int64} {n : Int} (hnow : now.toInt < greatestTime)
    (hlow : leastTime ≤ n) : now < saturate n ↔ now.toInt < n := by
  rw [Int64.lt_iff_toInt_lt, toInt_saturate]
  omega

theorem saturate_le_iff {now : Int64} {n : Int} (hhigh : n ≤ greatestTime) :
    saturate n ≤ now ↔ n ≤ now.toInt := by
  have hnow : leastTime ≤ now.toInt := now.le_toInt
  rw [Int64.le_iff_toInt_le, toInt_saturate]
  omega

/-! ### Clocks -/

namespace FixedClock

theorem toInt_seconds_eq_ediv (clock : FixedClock) :
    clock.seconds.toInt = clock.millis.toInt / 1000 := by
  rw [clock.toInt_seconds, Int.fdiv_eq_ediv_of_nonneg _ (by decide)]

/-- The seconds that a clock shows are the milliseconds over a thousand, rounded down. -/
theorem seconds_eq_floor (clock : FixedClock) :
    clock.seconds.toInt = ⌊(clock.millis.toInt : ℚ) / 1000⌋ := by
  have hfloor := Rat.floor_intCast_div_natCast clock.millis.toInt 1000
  rw [clock.toInt_seconds_eq_ediv]
  exact_mod_cast hfloor.symm

/-- A clock shows no time near the ends of the range. -/
theorem seconds_bounds (clock : FixedClock) :
    leastTime / 1000 ≤ clock.seconds.toInt ∧ clock.seconds.toInt ≤ greatestTime / 1000 := by
  have hlow := clock.millis.le_toInt
  have hhigh := clock.millis.toInt_lt
  rw [clock.toInt_seconds_eq_ediv, leastTime, greatestTime]
  omega

theorem seconds_lt_greatestTime (clock : FixedClock) : clock.seconds.toInt < greatestTime := by
  obtain ⟨-, hclock⟩ := clock.seconds_bounds
  rw [greatestTime] at hclock ⊢
  omega

end FixedClock

end TokenVault
