/-!
# Numerals

Decimal numerals of unsigned 64-bit integers, with an optional plus sign.  The first thing
that is wrong, from the left, is reported.
-/

namespace TokenVault.Numeral

/-- What is wrong with a numeral. -/
inductive Fault
  | empty
  | noDigit
  | tooLarge
  deriving DecidableEq, Repr

/-- The wording of a fault. -/
def Fault.message : Fault → String
  | empty => "cannot parse integer from empty string"
  | noDigit => "invalid digit found in string"
  | tooLarge => "number too large to fit in target type"

/-- One more than the greatest number. -/
def limit : Nat := 0x10000000000000000

/-- Reads digits that follow a value. -/
def digits (value : Nat) : List Char → Except Fault Nat
  | [] => .ok value
  | c :: rest =>
    if c.isDigit then
      let next := value * 10 + (c.toNat - '0'.toNat)
      if next < limit then digits next rest else .error .tooLarge
    else .error .noDigit

/-- Reads a numeral. -/
def read : List Char → Except Fault Nat
  | [] => .error .empty
  | ['+'] => .error .noDigit
  | '+' :: rest => digits 0 rest
  | chars => digits 0 chars

theorem lt_limit_of_digits {value n : Nat} {chars : List Char} (hvalue : value < limit)
    (h : digits value chars = .ok n) : n < limit := by
  induction chars generalizing value with
  | nil =>
    simp only [digits, Except.ok.injEq] at h
    exact h ▸ hvalue
  | cons c rest ih =>
    unfold digits at h
    split at h
    · dsimp only at h
      split at h
      · exact ih ‹_› h
      · simp at h
    · simp at h

/-- A number that has been read fits. -/
theorem lt_limit_of_read {n : Nat} {chars : List Char} (h : read chars = .ok n) :
    n < limit := by
  have hzero : 0 < limit := by decide
  unfold read at h
  split at h
  · simp at h
  · simp at h
  · exact lt_limit_of_digits hzero h
  · exact lt_limit_of_digits hzero h

/-- The number that a text spells. -/
def ofText (text : String) : Except Fault UInt64 := (read text.toList).map UInt64.ofNat

example : (ofText "+007").toOption = some 7 ∧ (ofText "18446744073709551616").toOption = none ∧
    (ofText "-1").toOption = none := by decide +kernel

end TokenVault.Numeral
