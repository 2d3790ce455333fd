/-!
# Binary floating point

The finite numbers with a sign, 53 significant bits and a power of two, in units of
2^-1074.  A quotient of natural numbers is rounded to the nearest of them, a tie to the
even one.  `nearest?` yields nothing exactly when the result would have no finite form.
-/

namespace TokenVault

/-- The number `mantissa * 2 ^ scale` in units of 2^-1074, with a sign.  Each value has
one form: the mantissa is full unless the scale is at its end. -/
structure Binary64 where
  negative : Bool
  mantissa : Nat
  scale : Nat
  mantissa_lt : mantissa < 0x20000000000000
  scale_le : scale ≤ 2045
  normal : scale = 0 ∨ 0x10000000000000 ≤ mantissa
  deriving DecidableEq

namespace Binary64

/-- The magnitude in units of 2^-1074. -/
def units (x : Binary64) : Nat := x.mantissa <<< x.scale

/-- Zero, with a sign. -/
def zero (negative : Bool) : Binary64 where
  negative := negative
  mantissa := 0
  scale := 0
  mantissa_lt := by decide
  scale_le := by decide
  normal := .inl rfl

/-- The same magnitude with another sign. -/
def withSign (negative : Bool) (x : Binary64) : Binary64 := { x with negative }

/-- The natural number nearest to a quotient, of two equally near ones the even one. -/
def roundQuotient (num den : Nat) : Nat :=
  let q := num / den
  let r := num % den
  if 2 * r < den ∨ 2 * r = den ∧ q % 2 = 0 then q else q + 1

theorem le_roundQuotient (num den : Nat) : num / den ≤ roundQuotient num den := by
  unfold roundQuotient
  simp only
  split <;> omega

/-- The scale at which the quotient has at most 53 bits before the point. -/
def scaleOf (num den : Nat) : Nat := (num / den).log2 - 52

theorem normal_of_round (num den : Nat) :
    scaleOf num den = 0 ∨ 0x10000000000000 ≤ roundQuotient num (den <<< scaleOf num den) := by
  by_cases hzero : scaleOf num den = 0
  · exact .inl hzero
  · right
    refine Nat.le_trans ?_ (le_roundQuotient _ _)
    have hscale : scaleOf num den = (num / den).log2 - 52 := rfl
    have hne : num / den ≠ 0 := by
      intro h
      simp [hscale, h] at hzero
    have hlog := Nat.log2_self_le hne
    have hsum : (num / den).log2 = 52 + scaleOf num den := by omega
    have hfull : Nat.pow 2 52 = 0x10000000000000 := rfl
    rw [hsum, Nat.pow_add, ← Nat.pow_eq, hfull] at hlog
    rw [Nat.shiftLeft_eq]
    rw [← Nat.div_div_eq_div_mul, Nat.le_div_iff_mul_le (Nat.two_pow_pos _)]
    exact hlog

/-- The number nearest to `num / den`; none if it has no finite form. -/
def nearest? (num den : Nat) : Option Binary64 :=
  if den = 0 then none
  else
    let scaled := num <<< 1074
    let scale := scaleOf scaled den
    let mantissa := roundQuotient scaled (den <<< scale)
    if hlt : mantissa < 0x20000000000000 then
      if hle : scale ≤ 2045 then
        some ⟨false, mantissa, scale, hlt, hle, normal_of_round scaled den⟩
      else none
    else
      if hle : scale + 1 ≤ 2045 then
        some ⟨false, 0x10000000000000, scale + 1, by decide, hle, .inr (by decide)⟩
      else none

/-- The number nearest to a natural number. -/
def ofNat? (n : Nat) : Option Binary64 := nearest? n 1

/-- The product, rounded; none if it has no finite form. -/
def mul? (x y : Binary64) : Option Binary64 :=
  (nearest? (x.units * y.units) (1 <<< 2148)).map (withSign (x.negative != y.negative))

/-- The quotient, rounded; none if it has no finite form. -/
def div? (x y : Binary64) : Option Binary64 :=
  (nearest? x.units y.units).map (withSign (x.negative != y.negative))

/-- Whether two numbers are equal as numbers: the zeros are, whatever their signs. -/
def alike (x y : Binary64) : Bool :=
  x.units == y.units && (x.negative == y.negative || x.units == 0)

end Binary64

end TokenVault
