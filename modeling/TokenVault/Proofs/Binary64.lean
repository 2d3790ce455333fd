import Mathlib.Algebra.Group.Nat.Defs
import TokenVault.Binary64.Shortest

/-!
# Shortest decimals are not zero

The search for the shortest decimal of a number that is not zero never ends at zero: zero is not
in the rounding interval, and the grid on which the search gives up is fine enough.
-/

namespace TokenVault.Binary64

/-! ### The number of digits -/

/-- Ten bits make three digits at least. -/
theorem pow_le_two_pow (bits : Nat) : 10 ^ (3 * bits / 10) ≤ 2 ^ bits := by
  have hpow : (10 ^ (3 * bits / 10)) ^ 10 ≤ (2 ^ bits) ^ 10 :=
    calc (10 ^ (3 * bits / 10)) ^ 10 = 10 ^ (3 * bits / 10 * 10) := (Nat.pow_mul _ _ _).symm
      _ ≤ 10 ^ (3 * bits) := Nat.pow_le_pow_right (by decide) (by omega)
      _ = (10 ^ 3) ^ bits := Nat.pow_mul _ _ _
      _ ≤ (2 ^ 10) ^ bits := Nat.pow_le_pow_left (by decide) bits
      _ = (2 ^ bits) ^ 10 := by rw [← Nat.pow_mul, ← Nat.pow_mul, Nat.mul_comm]
  exact (Nat.pow_le_pow_iff_left (by decide)).1 hpow

theorem pow_countFrom_le {n : Nat} (fuel places : Nat) (h : 10 ^ (places - 1) ≤ n) :
    10 ^ (countFrom n fuel places - 1) ≤ n := by
  induction fuel generalizing places with
  | zero => exact h
  | succ fuel ih =>
    rw [countFrom]
    split
    · exact h
    · next hnot => exact ih (places + 1) (Nat.le_of_not_lt hnot)

/-- A number has no more digits than are counted. -/
theorem pow_digitCount_le {n : Nat} (h : n ≠ 0) : 10 ^ (digitCount n - 1) ≤ n := by
  refine pow_countFrom_le _ _ ?_
  calc 10 ^ (3 * n.log2 / 10 + 1 - 1) ≤ 2 ^ n.log2 := pow_le_two_pow n.log2
    _ ≤ n := Nat.log2_self_le h

/-! ### The search -/

variable {x : Binary64}

theorem pow_ten_ne_zero (n : Nat) : Nat.pow 10 n ≠ 0 := Nat.ne_of_gt (Nat.pow_pos (Nat.succ_pos 9))

/-- Zero does not round to a number that is not zero. -/
theorem not_contains_zero (h : x.units ≠ 0) : x.interval.contains 0 = false := by
  have hmantissa : x.mantissa ≠ 0 := by
    intro hzero
    simp [units, hzero] at h
  have hscale := Nat.two_pow_pos x.scale
  have hle : 2 ^ x.scale ≤ x.mantissa * 2 ^ x.scale :=
    Nat.le_mul_of_pos_left _ (Nat.pos_of_ne_zero hmantissa)
  have hlow : x.interval.low ≠ 0 := by
    simp only [interval, units, Nat.shiftLeft_eq]
    split <;> omega
  have hhigh : x.interval.high ≠ 0 := by
    simp only [interval, Nat.shiftLeft_eq]
    omega
  have hscaled (n : Nat) (hn : n ≠ 0) : n * Nat.pow 10 shift ≠ 0 :=
    Nat.mul_ne_zero hn (pow_ten_ne_zero shift)
  rw [Interval.contains]
  simp only [Nat.zero_shiftLeft, Nat.not_lt_zero, decide_false, Bool.false_and,
    hscaled _ hlow, Ne.symm (hscaled _ hhigh), Bool.or_false, Bool.and_false]

/-- The point above is never zero, and the point below is chosen only if it is in the interval. -/
theorem choosePoint_ne_zero {belowIn aboveIn : Bool} {below distanceBelow distanceAbove : Nat}
    (hbelow : below = 0 → belowIn = false) {coefficient : Nat}
    (hchosen : choosePoint belowIn aboveIn below distanceBelow distanceAbove =
      some coefficient) : coefficient ≠ 0 := by
  rintro rfl
  cases belowIn with
  | false => cases aboveIn <;> simp [choosePoint] at hchosen
  | true =>
    have hpos : below ≠ 0 := fun hzero => Bool.noConfusion (hbelow hzero)
    cases aboveIn with
    | false => exact hpos (Option.some.inj hchosen)
    | true =>
      rw [choosePoint] at hchosen
      split at hchosen
      · exact hpos (Option.some.inj hchosen)
      · exact Nat.succ_ne_zero below (Option.some.inj hchosen)

theorem onGrid?_ne_zero (h : x.units ≠ 0) {place coefficient : Nat}
    (hgrid : x.onGrid? place = some coefficient) : coefficient ≠ 0 := by
  unfold onGrid? at hgrid
  refine choosePoint_ne_zero ?_ hgrid
  intro hbelow
  rw [hbelow, Nat.zero_mul]
  exact not_contains_zero h

theorem firstPoint_ne_zero {point? : Nat → Option Nat} {last : Nat → Nat} {scaled : Nat}
    (hpoint : ∀ place coefficient, point? place = some coefficient → coefficient ≠ 0)
    (hlast : ∀ place, 10 ^ place ≤ scaled → last place ≠ 0) (fuel place : Nat)
    (hplace : 10 ^ place ≤ scaled) : (firstPoint point? last fuel place).coefficient ≠ 0 := by
  induction fuel generalizing place with
  | zero => exact hlast place hplace
  | succ fuel ih =>
    rw [firstPoint]
    split
    · next coefficient hsome => exact hpoint place coefficient hsome
    · have hfiner := Nat.pow_le_pow_right (Nat.succ_pos 9) (Nat.sub_le place 1)
      exact ih (place - 1) (Nat.le_trans hfiner hplace)

theorem trimmed_ne_zero (fuel : Nat) {d : Decimal} (h : d.coefficient ≠ 0) :
    (d.trimmed fuel).coefficient ≠ 0 := by
  induction fuel generalizing d with
  | zero => exact h
  | succ fuel ih =>
    rw [Decimal.trimmed]
    split
    · next hends => exact ih (by show d.coefficient / 10 ≠ 0; omega)
    · exact h

/-- A decimal digit makes three bits at least. -/
theorem two_pow_le_pow (digits : Nat) : 2 ^ (3 * digits) ≤ 10 ^ digits :=
  calc 2 ^ (3 * digits) = (2 ^ 3) ^ digits := Nat.pow_mul 2 3 digits
    _ ≤ 10 ^ digits := Nat.pow_le_pow_left (by decide) digits

theorem shifted_ne_zero {n bits digits : Nat} (hn : n ≠ 0) (h : bits ≤ 3 * digits) :
    (n * Nat.pow 10 digits) >>> bits ≠ 0 := by
  have hlarge : 2 ^ bits ≤ n * Nat.pow 10 digits :=
    calc 2 ^ bits ≤ 2 ^ (3 * digits) := Nat.pow_le_pow_right (by decide) h
      _ ≤ 10 ^ digits := two_pow_le_pow digits
      _ ≤ n * 10 ^ digits := Nat.le_mul_of_pos_left _ (Nat.pos_of_ne_zero hn)
  rw [Nat.shiftRight_eq_div_pow]
  exact Nat.ne_of_gt (Nat.div_pos hlarge (Nat.two_pow_pos bits))

theorem scaled_ne_zero (h : x.units ≠ 0) : x.scaled ≠ 0 := shifted_ne_zero h (by decide)

theorem search_ne_zero (h : x.units ≠ 0) (fuel place : Nat) (hplace : 10 ^ place ≤ x.scaled) :
    (x.search fuel place).coefficient ≠ 0 := by
  rw [search]
  refine firstPoint_ne_zero (fun _ _ => onGrid?_ne_zero h) ?_ fuel place hplace
  intro place hplace
  exact Nat.ne_of_gt (Nat.div_pos hplace (Nat.pos_of_ne_zero (pow_ten_ne_zero place)))

/-- A decimal that is zero has the exponent zero. -/
theorem exponent_of_shortest (h : x.shortest.coefficient = 0) : x.shortest.exponent = 0 := by
  by_cases hunits : x.units = 0
  · rw [shortest, if_pos hunits]
  · have hsearch := search_ne_zero hunits 17 _ (pow_digitCount_le (scaled_ne_zero hunits))
    have hshortest : x.shortest = (x.search 17 (digitCount x.scaled - 1)).trimmed 18 := by
      rw [shortest, if_neg hunits]
    rw [hshortest] at h
    exact absurd h (trimmed_ne_zero 18 hsearch)

end TokenVault.Binary64
