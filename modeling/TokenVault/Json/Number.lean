import TokenVault.Binary64.Shortest
import TokenVault.Text.Bytes

/-!
# Numbers of a document

A number is an integer if it is written as one and fits into 64 bits, with a sign or
without; any other is a binary floating-point number.  Reading one is deliberately crude:
the digits are gathered in a 64-bit significand, what no longer fits only counts as powers
of ten, and the significand is multiplied or divided once by a power of ten.
-/

namespace TokenVault.Json

/-- A number: an integer of 64 bits, or a floating-point number. -/
inductive Number
  | integer (value : Int) (in_range : -0x8000000000000000 ≤ value ∧ value < 0x10000000000000000)
  | float (value : Binary64)
  deriving DecidableEq

namespace Number

/-- Whether two numbers are equal as numbers of their kind. -/
def alike : Number → Number → Bool
  | integer a _, integer b _ => a = b
  | float a, float b => a.alike b
  | _, _ => false

/-- The number that a signed 64-bit integer is. -/
def ofInt64 (n : Int64) : Number :=
  .integer n.toInt ⟨by have := n.le_toInt; omega, by have := n.toInt_lt; omega⟩

/-! ### Writing -/

/-- The least and the greatest decimal exponent of a number that is written without an
exponent. -/
def plainExponents : Int × Int := (-5, 15)

/-- Digits with a point after the first `whole` of them, filled up with zeros on either
side so that the point has digits around it. -/
def pointed (digits : List Char) (whole : Int) : List Char :=
  if whole ≤ 0 then ['0', '.'] ++ List.replicate (-whole).toNat '0' ++ digits
  else if digits.length ≤ whole.toNat then
    digits ++ List.replicate (whole.toNat - digits.length) '0' ++ ['.', '0']
  else digits.take whole.toNat ++ ['.'] ++ digits.drop whole.toNat

/-- Digits with a point after the first one, if there are more, and an exponent. -/
def scientific (digits : List Char) (exponent : Int) : List Char :=
  digits.take 1 ++ (if digits.length ≤ 1 then [] else '.' :: digits.drop 1) ++
    ['e', if exponent < 0 then '-' else '+'] ++ Nat.toDigits 10 exponent.natAbs

/-- A floating-point number by its shortest digits. -/
def floatChars (x : Binary64) : List Char :=
  let d := x.shortest
  let digits := Nat.toDigits 10 d.coefficient
  let exponent := digits.length - 1 + d.exponent
  (if x.negative then ['-'] else []) ++
    if plainExponents.1 ≤ exponent ∧ exponent ≤ plainExponents.2 then
      pointed digits (exponent + 1)
    else scientific digits exponent

/-- An integer in decimal. -/
def integerChars (n : Int) : List Char :=
  (if n < 0 then ['-'] else []) ++ Nat.toDigits 10 n.natAbs

/-- A number as it is written. -/
def chars : Number → List Char
  | integer value _ => integerChars value
  | float value => floatChars value

/-- A number as it is written. -/
def text (n : Number) : String := String.ofList n.chars

/-! ### Reading -/

/-- The digit that an octet stands for. -/
def digit (octet : UInt8) : Nat := octet.toNat - 0x30

/-- Whether an octet is a decimal digit. -/
def isDigit (octet : UInt8) : Bool := 0x30 ≤ octet && octet ≤ 0x39

/-- Appends digits to a significand as long as it fits into 64 bits: the significand, and
the digits from the first one that did not fit. -/
def gather (significand : Nat) : Bytes → Nat × Bytes
  | [] => (significand, [])
  | octet :: rest =>
    let next := significand * 10 + digit octet
    if next < 0x10000000000000000 then gather next rest else (significand, octet :: rest)

/-- The exponent of the largest power of ten with a finite form. -/
def largestPower : Nat := 308

/-- The number nearest to a power of ten. -/
def powerOfTen (tens : Nat) : Option Binary64 := Binary64.ofNat? (Nat.pow 10 tens)

/-- Divides `count` times.  Zero stays zero. -/
def divideTimes (divisor : Binary64) : (count : Nat) → Binary64 → Option Binary64
  | 0, x => some x
  | count + 1, x =>
    if x.units = 0 then some x else (x.div? divisor).bind (divideTimes divisor count)

/-- Divides by a power of ten, by the largest one as long as the exponent is above it. -/
def divideByTens (x : Binary64) (tens : Nat) : Option Binary64 := do
  let count := (tens - 1) / largestPower
  let y ← divideTimes (← powerOfTen largestPower) count x
  y.div? (← powerOfTen (tens - count * largestPower))

/-- The number nearest to the significand, times or over the number nearest to the power
of ten; none if it has no finite form. -/
def scaled (significand : Nat) (exponent : Int) : Option Binary64 := do
  let x ← Binary64.ofNat? significand
  if exponent < 0 then divideByTens x exponent.natAbs
  else if largestPower < exponent then if x.units = 0 then some x else none
  else (powerOfTen exponent.natAbs).bind x.mul?

/-- The exponent that digits spell, or the number of digits after which it no longer fits
into 31 bits. -/
def exponentValue (seen value : Nat) : Bytes → Except Nat Nat
  | [] => .ok value
  | octet :: rest =>
    let next := value * 10 + digit octet
    if next < 0x80000000 then exponentValue (seen + 1) next rest else .error (seen + 1)

/-- The parts of a number as it is written. -/
structure Spelling where
  negative : Bool
  whole : Bytes
  fraction : Option Bytes
  /-- Whether the exponent is negative, and its digits. -/
  exponent : Option (Bool × Bytes)

/-- Splits an exponent into its sign and its digits. -/
def exponentSpelling : Bytes → Bool × Bytes
  | 0x2D :: digits => (true, digits)
  | 0x2B :: digits => (false, digits)
  | digits => (false, digits)

/-- The parts of a number; `raw` is well formed. -/
def Spelling.ofOctets (raw : Bytes) : Spelling :=
  let negative := raw.head? = some 0x2D
  let unsigned := if negative then raw.drop 1 else raw
  let rest := unsigned.dropWhile isDigit
  let (fraction, rest) :=
    if rest.head? = some 0x2E then
      (some ((rest.drop 1).takeWhile isDigit), (rest.drop 1).dropWhile isDigit)
    else (none, rest)
  { negative
    whole := unsigned.takeWhile isDigit
    fraction
    exponent := if rest = [] then none else some (exponentSpelling (rest.drop 1)) }

/-- A number without fraction and exponent that fits into 64 bits: negative zero and what
is below the least signed integer are floating-point numbers. -/
def ofSignificand (negative : Bool) (significand : Nat) (h : significand < 0x10000000000000000) :
    Option Number :=
  if negative then
    if hin : significand ≠ 0 ∧ significand ≤ 0x8000000000000000 then
      some (.integer (-significand) ⟨by omega, by omega⟩)
    else (Binary64.ofNat? significand).map fun x => .float (x.withSign true)
  else some (.integer significand ⟨by omega, by omega⟩)

theorem gather_lt (significand : Nat) (digits : Bytes) (h : significand < 0x10000000000000000) :
    (gather significand digits).1 < 0x10000000000000000 := by
  induction digits generalizing significand with
  | nil => simpa [gather] using h
  | cons octet rest ih =>
    unfold gather
    simp only
    split
    · next hnext => exact ih _ hnext
    · exact h

/-- The number that `raw` spells, or how many octets of it have been read when its value
turns out to be out of range. -/
def ofOctets (raw : Bytes) : Except Nat Number :=
  let s := Spelling.ofOctets raw
  let whole := gather 0 s.whole
  match s.fraction, s.exponent, whole.2 with
  | none, none, [] =>
    match ofSignificand s.negative whole.1 (gather_lt 0 s.whole (by decide)) with
    | some n => .ok n
    | none => .error raw.length
  | fraction, exponent, dropped =>
    let digits := fraction.getD []
    let (significand, rest) := gather whole.1 digits
    let places : Int := dropped.length - (digits.length - rest.length : Nat)
    let float (value : Option Binary64) : Except Nat Number :=
      match value with
      | some x => .ok (.float (x.withSign s.negative))
      | none => .error raw.length
    match exponent with
    | none => float (scaled significand places)
    | some (down, tens) =>
      match exponentValue 0 0 tens with
      | .ok value => float (scaled significand (if down then places - value else places + value))
      | .error seen =>
        if significand ≠ 0 ∧ ¬down then .error (raw.length - tens.length + seen)
        else .ok (.float (Binary64.zero s.negative))

end Number

end TokenVault.Json
