import TokenVault.Binary64.Basic

/-!
# Shortest decimals

Every finite number has decimals that round back to it, and among them some with the
fewest digits.  The grid of `n` digits is tried for `n` from one on: the first grid with a
point in the rounding interval gives the digits, the nearer of two points, the even one of
two equally near ones.  Seventeen digits always suffice.
-/

namespace TokenVault.Binary64

/-- The decimal `coefficient * 10 ^ exponent`. -/
structure Decimal where
  coefficient : Nat
  exponent : Int
  deriving DecidableEq, Repr

/-- Counts up from `places` to the first power of ten above a number. -/
def countFrom (n : Nat) : (fuel places : Nat) → Nat
  | 0, places => places
  | fuel + 1, places => if n < Nat.pow 10 places then places else countFrom n fuel (places + 1)

/-- Decimal digits of a number; zero has one.  Ten bits make three digits at least, so the
count starts there. -/
def digitCount (n : Nat) : Nat := countFrom n (n.log2 + 1) (3 * n.log2 / 10 + 1)

example : digitCount 0 = 1 ∧ digitCount 999 = 3 ∧ digitCount 1000 = 4 ∧
    digitCount 1023 = 4 ∧ digitCount 1024 = 4 := by decide +kernel

/-- Every finite number times `10 ^ shift` has many digits before the point. -/
def shift : Nat := 400

/-- The numbers that round to a given one, in quarters of 2^-1074: the ends, and whether
they belong to it. -/
structure Interval where
  low : Nat
  high : Nat
  closed : Bool

/-- The rounding interval of the magnitude.  Below a power of two the numbers lie twice as
close. -/
def interval (x : Binary64) : Interval where
  low := 4 * x.units - (if x.mantissa = 0x10000000000000 ∧ x.scale ≠ 0 then 1 else 2) <<< x.scale
  high := 4 * x.units + 2 <<< x.scale
  closed := x.mantissa % 2 = 0

/-- Whether a multiple of `10 ^ -shift` lies in an interval. -/
def Interval.contains (i : Interval) (point : Nat) : Bool :=
  let y := point <<< 1076
  let low := i.low * Nat.pow 10 shift
  let high := i.high * Nat.pow 10 shift
  (low < y && y < high) || (i.closed && (low = y || y = high))

/-- Of two points, one below and the next above, the one that is in the interval; of two that
are, the nearer, and the even one of two equally near ones. -/
def choosePoint (belowIn aboveIn : Bool) (below distanceBelow distanceAbove : Nat) :
    Option Nat :=
  match belowIn, aboveIn with
  | true, true =>
    if distanceBelow < distanceAbove ∨ distanceBelow = distanceAbove ∧ below % 2 = 0 then
      some below
    else some (below + 1)
  | true, false => some below
  | false, true => some (below + 1)
  | false, false => none

/-- The decimal on the grid of `10 ^ place` that lies in the interval of `x`, if there is
one: of the two grid points around `x`, the nearer. -/
def onGrid? (x : Binary64) (place : Nat) : Option Nat :=
  let i := x.interval
  let exact := 4 * x.units * Nat.pow 10 shift
  let step := Nat.pow 10 place
  let below := exact / (step <<< 1076)
  let above := below + 1
  choosePoint (i.contains (below * step)) (i.contains (above * step)) below
    (exact - (below * step) <<< 1076) ((above * step) <<< 1076 - exact)

/-- The first of `fuel` grids with a point, from the one of `10 ^ place` on, each ten times finer
than the one before; `last` gives a point of the grid after them. -/
def firstPoint (point? : (place : Nat) → Option Nat) (last : (place : Nat) → Nat) :
    (fuel place : Nat) → Decimal
  | 0, place => ⟨last place, place - shift⟩
  | fuel + 1, place =>
    match point? place with
    | some coefficient => ⟨coefficient, place - shift⟩
    | none => firstPoint point? last fuel (place - 1)

/-- The magnitude in multiples of `10 ^ -shift`, rounded down. -/
def scaled (x : Binary64) : Nat := (x.units * Nat.pow 10 shift) >>> 1074

/-- The first grid with a point, trying `fuel` grids from the one of `10 ^ place` on. -/
def search (x : Binary64) : (fuel place : Nat) → Decimal :=
  firstPoint x.onGrid? fun place => x.scaled / Nat.pow 10 place

/-- The same decimal without zeros at the end of its coefficient. -/
def Decimal.trimmed : (fuel : Nat) → Decimal → Decimal
  | fuel + 1, d =>
    if d.coefficient ≠ 0 ∧ d.coefficient % 10 = 0 then
      trimmed fuel ⟨d.coefficient / 10, d.exponent + 1⟩
    else d
  | 0, d => d

/-- The shortest decimal that rounds to the magnitude of `x`. -/
def shortest (x : Binary64) : Decimal :=
  if x.units = 0 then ⟨0, 0⟩
  else
    let digits := digitCount x.scaled
    (search x 17 (digits - 1)).trimmed 18

/-- The number that a decimal rounds to. -/
def Decimal.nearest? (d : Decimal) : Option Binary64 :=
  if 0 ≤ d.exponent then Binary64.nearest? (d.coefficient * Nat.pow 10 d.exponent.toNat) 1
  else Binary64.nearest? d.coefficient (Nat.pow 10 (-d.exponent).toNat)

example : (Binary64.nearest? 1 10).map shortest = some ⟨1, -1⟩ := by decide +kernel

example : (Binary64.nearest? 3 1).map shortest = some ⟨3, 0⟩ := by decide +kernel

end TokenVault.Binary64
