import Mathlib.Algebra.Order.BigOperators.Group.List
import TokenVault.Proofs.Time

/-!
# Moving a clock on

Each move stops at the ends of the range by itself, but where it leads goes round.  Moves that
together stay in the range lead to their exact sum (`FixedClock.toInt_advanceAll_of_fits`), so a
clock that is moved on does not go back (`FixedClock.le_advanceAll`).  A move that passes the end
takes it back to before the epoch (`FixedClock.advance_past_end`).
-/

namespace TokenVault

theorem toInt_millisOf (seconds : Int64) :
    (millisOf seconds).toInt = max leastTime (min (1000 * seconds.toInt) greatestTime) := by
  rw [millisOf, toInt_saturate, Int.mul_comm]

namespace FixedClock

/-- The clock after some moves, one after the other. -/
def advanceAll (clock : FixedClock) (moves : List Int64) : FixedClock := moves.foldl advance clock

/-- Where some moves would lead, in milliseconds, if a clock could show every integer.  Each of
them is cut off at the ends of the range by itself. -/
def ahead (clock : FixedClock) (moves : List Int64) : Int :=
  clock.millis.toInt +
    (moves.map fun seconds => max leastTime (min (1000 * seconds.toInt) greatestTime)).sum

variable {clock : FixedClock} {seconds : Int64} {moves : List Int64}

theorem advanceAll_singleton (clock : FixedClock) (seconds : Int64) :
    clock.advanceAll [seconds] = clock.advance seconds := rfl

theorem ahead_singleton (clock : FixedClock) (seconds : Int64) :
    clock.ahead [seconds] =
      clock.millis.toInt + max leastTime (min (1000 * seconds.toInt) greatestTime) := by
  rw [ahead, List.map_singleton, List.sum_singleton]

/-! ### Where moves lead -/

/-- A move goes round at the ends of the range. -/
theorem toInt_advance (clock : FixedClock) (seconds : Int64) :
    (clock.advance seconds).millis.toInt = (clock.ahead [seconds]).bmod (2 ^ 64) := by
  rw [ahead_singleton, ← toInt_millisOf]
  exact Int64.toInt_add _ _

/-- So do any number of moves, in either direction: going round at each of them is going round once
at the end. -/
theorem toInt_advanceAll (clock : FixedClock) (moves : List Int64) :
    (clock.advanceAll moves).millis.toInt = (clock.ahead moves).bmod (2 ^ 64) := by
  induction moves generalizing clock with
  | nil =>
    rw [ahead, List.map_nil, List.sum_nil, Int.add_zero]
    exact clock.millis.toInt_bmod.symm
  | cons seconds rest ih =>
    calc (clock.advanceAll (seconds :: rest)).millis.toInt
        = ((clock.advance seconds).ahead rest).bmod (2 ^ 64) := ih _
      _ = (clock.ahead (seconds :: rest)).bmod (2 ^ 64) := by
        rw [ahead, toInt_advance, Int.bmod_add_bmod, ahead_singleton, ahead, List.map_cons,
          List.sum_cons, Int.add_assoc]

/-- Moves that together stay in the range lead where they should. -/
theorem toInt_advanceAll_of_fits (h : FitsTime (clock.ahead moves)) :
    (clock.advanceAll moves).millis.toInt = clock.ahead moves := by
  obtain ⟨hlow, hhigh⟩ := h
  rw [leastTime] at hlow
  rw [greatestTime] at hhigh
  rw [toInt_advanceAll]
  exact Int.bmod_eq_of_le (by omega) (by omega)

/-- A move of which nothing is cut off counts whole seconds and leaves the part of a second. -/
theorem advance_exact (hspan : FitsTime (1000 * seconds.toInt))
    (hsum : FitsTime (clock.millis.toInt + 1000 * seconds.toInt)) :
    (clock.advance seconds).seconds.toInt = clock.seconds.toInt + seconds.toInt ∧
      (clock.advance seconds).millis.toInt % 1000 = clock.millis.toInt % 1000 := by
  have hahead : clock.ahead [seconds] = clock.millis.toInt + 1000 * seconds.toInt := by
    obtain ⟨hlow, hhigh⟩ := hspan
    rw [ahead_singleton, Int.min_eq_left hhigh, Int.max_eq_right hlow]
  have hmillis : (clock.advance seconds).millis.toInt =
      clock.millis.toInt + 1000 * seconds.toInt := by
    rw [← hahead] at hsum ⊢
    exact toInt_advanceAll_of_fits hsum
  rw [toInt_seconds_eq_ediv, toInt_seconds_eq_ediv, hmillis]
  omega

/-! ### Moving on -/

/-- A clock that shows a later time in milliseconds shows no earlier one in seconds. -/
theorem seconds_mono {later : FixedClock} (h : clock.millis ≤ later.millis) :
    clock.seconds ≤ later.seconds := by
  rw [Int64.le_iff_toInt_le] at h ⊢
  rw [toInt_seconds_eq_ediv, toInt_seconds_eq_ediv]
  exact Int.ediv_le_ediv (by decide) h

theorem le_ahead (hmoves : ∀ seconds ∈ moves, 0 ≤ seconds) :
    clock.millis.toInt ≤ clock.ahead moves := by
  rw [ahead]
  refine Int.le_add_of_nonneg_right (List.sum_nonneg fun millis hmillis => ?_)
  obtain ⟨seconds, hseconds, rfl⟩ := List.mem_map.1 hmillis
  have hnonneg := Int64.le_iff_toInt_le.1 (hmoves seconds hseconds)
  rw [Int64.toInt_zero] at hnonneg
  rw [leastTime, greatestTime]
  omega

theorem fits_ahead (hmoves : ∀ seconds ∈ moves, 0 ≤ seconds)
    (hroom : clock.ahead moves ≤ greatestTime) : FitsTime (clock.ahead moves) := by
  have hlow : leastTime ≤ clock.millis.toInt := clock.millis.le_toInt
  exact ⟨hlow.trans (le_ahead hmoves), hroom⟩

/-- A clock that is moved on and does not pass the end of the range does not go back. -/
theorem le_advanceAll (hmoves : ∀ seconds ∈ moves, 0 ≤ seconds)
    (hroom : clock.ahead moves ≤ greatestTime) :
    clock.millis ≤ (clock.advanceAll moves).millis := by
  rw [Int64.le_iff_toInt_le, toInt_advanceAll_of_fits (fits_ahead hmoves hroom)]
  exact le_ahead hmoves

/-- A move that passes the end of the range takes a clock that shows a time after the epoch to one
before it. -/
theorem advance_past_end (hpast : greatestTime < clock.ahead [seconds]) :
    (clock.advance seconds).millis.toInt = clock.ahead [seconds] - 2 ^ 64 ∧
      (clock.advance seconds).seconds.toInt < 0 ∧ 0 ≤ clock.seconds.toInt := by
  have hhigh := clock.millis.toInt_lt
  have hmove := clock.ahead_singleton seconds
  rw [leastTime, greatestTime] at hmove
  rw [greatestTime] at hpast
  -- one move adds less than the whole range, so the clock goes round once
  have hbounds : 0 < clock.millis.toInt ∧ clock.ahead [seconds] < 2 ^ 64 := by omega
  have hmillis : (clock.advance seconds).millis.toInt = clock.ahead [seconds] - 2 ^ 64 := by
    rw [toInt_advance, ← Int.sub_bmod_right]
    exact Int.bmod_eq_of_le (by omega) (by omega)
  refine ⟨hmillis, ?_⟩
  rw [toInt_seconds_eq_ediv, toInt_seconds_eq_ediv, hmillis]
  omega

end FixedClock

end TokenVault
