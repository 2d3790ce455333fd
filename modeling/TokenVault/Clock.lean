/-!
# Clocks

Times are signed integers of 64 bits.  A sum or product that does not fit stops at the
nearest end of the range, so it keeps its side of every bound: `toInt_saturate`.  Whatever
depends on the time takes a reading of a clock.  A pinned clock stands still until it is
moved.
-/

namespace TokenVault

/-! ### Saturating arithmetic -/

/-- The least time. -/
def leastTime : Int := -0x8000000000000000

/-- The greatest time. -/
def greatestTime : Int := 0x7FFFFFFFFFFFFFFF

/-- The 64-bit integer nearest to an integer. -/
def saturate (n : Int) : Int64 := Int64.ofInt (max leastTime (min n greatestTime))

@[simp] theorem toInt_saturate (n : Int) :
    (saturate n).toInt = max leastTime (min n greatestTime) := by
  unfold saturate leastTime greatestTime
  exact Int64.toInt_ofInt_of_le (by omega) (by omega)

theorem toInt_saturate_of_fits {n : Int} (hlow : leastTime ≤ n) (hhigh : n ≤ greatestTime) :
    (saturate n).toInt = n := by
  rw [toInt_saturate]
  omega

/-- A number of seconds as a signed number; one that does not fit is as long as possible. -/
def span (n : UInt64) : Int64 := saturate n.toNat

/-! ### Durations

A duration has whole seconds and a part of a second.  Comparisons with clocks use the whole
seconds only. -/

/-- A span of time that is not negative. -/
structure Duration where
  seconds : UInt64
  nanos : Nat
  nanos_lt : nanos < 1000000000 := by decide
  deriving DecidableEq

namespace Duration

/-- A duration of whole seconds. -/
def ofSeconds (seconds : UInt64) : Duration where
  seconds := seconds
  nanos := 0

/-- A duration of seconds and billionths of a second, which may make up more seconds. -/
def ofParts (seconds : UInt64) (nanos : Nat) : Duration where
  seconds := seconds + UInt64.ofNat (nanos / 1000000000)
  nanos := nanos % 1000000000
  nanos_lt := Nat.mod_lt _ (by decide)

/-- The whole seconds as a signed number, or the greatest one. -/
def wholeSeconds (d : Duration) : Int64 := span d.seconds

end Duration

/-! ### Readings -/

/-- What a clock shows: the time since the epoch in seconds and in milliseconds. -/
structure Reading where
  seconds : Int64
  millis : Int64
  deriving DecidableEq

/-- Milliseconds in some seconds. -/
def millisOf (seconds : Int64) : Int64 := saturate (seconds.toInt * 1000)

/-- The reading of a clock that only knows seconds. -/
def Reading.ofSeconds (seconds : Int64) : Reading := ⟨seconds, millisOf seconds⟩

/-- A clock that stands at a number of milliseconds since the epoch. -/
structure FixedClock where
  millis : Int64
  deriving DecidableEq

namespace FixedClock

/-- A clock that stands at the epoch. -/
def epoch : FixedClock := ⟨0⟩

/-- A clock that stands at a number of seconds. -/
def ofSeconds (seconds : Int64) : FixedClock := ⟨millisOf seconds⟩

/-- Whole seconds since the epoch, rounded down. -/
def seconds (clock : FixedClock) : Int64 := Int64.ofInt (clock.millis.toInt.fdiv 1000)

/-- What the clock shows. -/
def reading (clock : FixedClock) : Reading := ⟨clock.seconds, clock.millis⟩

/-- Moves the clock to a number of seconds. -/
def set (_ : FixedClock) (seconds : Int64) : FixedClock := ofSeconds seconds

/-- Moves the clock by a number of seconds.  The move stops at the ends of the range, but
the sum goes round. -/
def advance (clock : FixedClock) (seconds : Int64) : FixedClock :=
  ⟨clock.millis + millisOf seconds⟩

theorem toInt_seconds (clock : FixedClock) :
    clock.seconds.toInt = clock.millis.toInt.fdiv 1000 := by
  have hlow := clock.millis.le_toInt
  have hhigh := clock.millis.toInt_lt
  have hdiv : clock.millis.toInt.fdiv 1000 = clock.millis.toInt / 1000 :=
    Int.fdiv_eq_ediv_of_nonneg _ (by decide)
  rw [seconds, hdiv]
  exact Int64.toInt_ofInt_of_le (by omega) (by omega)

end FixedClock

end TokenVault
