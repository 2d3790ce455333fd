import Mathlib.Data.List.Basic
import Mathlib.Data.List.Induction
import Mathlib.Data.List.TakeWhile
import TokenVault.Proofs.Binary64
import TokenVault.Proofs.Json.Grammar

/-!
# Numbers as they are written

An integer of 64 bits, signed or not, is written in decimal and read as itself:
`ofOctets_integer`.  Only a number with a fraction or an exponent, minus zero, or an integer out of
that range is read as a floating-point one: `form_of_float`.  So what is read as an integer is
written just as that integer is: `ofOctets_eq_integer_iff`.  Every number, the floating-point ones
too, is written in the form that a document has for numbers: `form_chars`.
-/

namespace TokenVault.Json.Number

/-! ### Decimal digits -/

/-- The octet of a digit. -/
def digitOctet (d : Nat) : UInt8 := UInt8.ofNat (0x30 + d)

/-- The decimal digits of a number, as octets. -/
def decimal (n : Nat) : Bytes := ascii (Nat.toDigits 10 n)

theorem digitOctet_spec (d : Nat) (h : d < 10) :
    UInt8.ofNat (Nat.digitChar d).toNat = digitOctet d ∧ isDigit (digitOctet d) = true ∧
      digit (digitOctet d) = d ∧ (digitOctet d = 0x30 ↔ d = 0) := by
  have hall : ∀ d < 10, UInt8.ofNat (Nat.digitChar d).toNat = digitOctet d ∧
      isDigit (digitOctet d) = true ∧ digit (digitOctet d) = d ∧
        (digitOctet d = 0x30 ↔ d = 0) := by
    decide
  exact hall d h

theorem decimal_of_lt {n : Nat} (h : n < 10) : decimal n = [digitOctet n] := by
  rw [decimal, Nat.toDigits_of_lt_base h, ascii, List.map_singleton, (digitOctet_spec n h).1]

/-- The last digit is the remainder, and the digits before it are those of the quotient. -/
theorem decimal_of_le {n : Nat} (h : 10 ≤ n) :
    decimal n = decimal (n / 10) ++ [digitOctet (n % 10)] := by
  have hlast := (digitOctet_spec (n % 10) (Nat.mod_lt n (by decide))).1
  rw [decimal, Nat.toDigits_of_base_le (by decide) h, ascii, List.map_append, ← ascii, ← decimal,
    List.map_singleton, hlast]

/-- What holds of single digits and passes on to longer numbers holds of all. -/
theorem decimal_induction {motive : Nat → Prop} (short : ∀ n < 10, motive n)
    (long : ∀ n, 10 ≤ n → motive (n / 10) → motive n) (n : Nat) : motive n := by
  induction n using Nat.strongRecOn with
  | _ n ih =>
    by_cases h : n < 10
    · exact short n h
    · exact long n (by omega) (ih (n / 10) (by omega))

theorem decimal_ne_nil (n : Nat) : decimal n ≠ [] := by
  by_cases h : n < 10
  · simp [decimal_of_lt h]
  · simp [decimal_of_le (Nat.le_of_not_lt h)]

theorem isDigit_of_mem_decimal {n : Nat} : ∀ octet ∈ decimal n, isDigit octet = true := by
  induction n using decimal_induction with
  | short n h =>
    rw [decimal_of_lt h]
    simpa using (digitOctet_spec n h).2.1
  | long n h ih =>
    rw [decimal_of_le h]
    intro octet hoctet
    rcases List.mem_append.1 hoctet with hoctet | hoctet
    · exact ih octet hoctet
    · obtain rfl := List.mem_singleton.1 hoctet
      exact (digitOctet_spec (n % 10) (Nat.mod_lt n (by decide))).2.1

/-- Only zero starts with a zero. -/
theorem head?_decimal {n : Nat} (h : n ≠ 0) : (decimal n).head? ≠ some 0x30 := by
  induction n using decimal_induction with
  | short n hlt =>
    rw [decimal_of_lt hlt, List.head?_cons, Ne, Option.some.injEq, (digitOctet_spec n hlt).2.2.2]
    exact h
  | long n hle ih =>
    have hquotient := ih (by omega)
    rw [decimal_of_le hle, List.head?_append]
    cases hhead : (decimal (n / 10)).head? with
    | none => exact absurd (List.head?_eq_none_iff.1 hhead) (decimal_ne_nil (n / 10))
    | some octet =>
      rw [hhead] at hquotient
      simpa using hquotient

/-! ### Gathering digits -/

/-- The number that digits spell, after a significand. -/
def spelled (significand : Nat) (digits : Bytes) : Nat :=
  digits.foldl (fun acc octet => acc * 10 + digit octet) significand

theorem spelled_nil (significand : Nat) : spelled significand [] = significand := by
  rw [spelled, List.foldl_nil]

theorem spelled_cons (significand : Nat) (octet : UInt8) (rest : Bytes) :
    spelled significand (octet :: rest) = spelled (significand * 10 + digit octet) rest := by
  rw [spelled, spelled, List.foldl_cons]

theorem spelled_append (significand : Nat) (a b : Bytes) :
    spelled significand (a ++ b) = spelled (spelled significand a) b := by
  rw [spelled, spelled, spelled, List.foldl_append]

theorem le_spelled (significand : Nat) (digits : Bytes) :
    significand ≤ spelled significand digits := by
  induction digits generalizing significand with
  | nil => exact Nat.le_of_eq (spelled_nil significand).symm
  | cons octet rest ih =>
    have hrest := ih (significand * 10 + digit octet)
    rw [spelled_cons]
    omega

/-- Digits that spell a number of 64 bits are all gathered. -/
theorem gather_of_lt {significand : Nat} {digits : Bytes}
    (h : spelled significand digits < 0x10000000000000000) :
    gather significand digits = (spelled significand digits, []) := by
  induction digits generalizing significand with
  | nil => rw [spelled_nil, gather]
  | cons octet rest ih =>
    rw [spelled_cons] at h ⊢
    have hle := le_spelled (significand * 10 + digit octet) rest
    rw [gather, if_pos (by omega), ih h]

theorem spelled_decimal (n : Nat) : spelled 0 (decimal n) = n := by
  -- the digits before the last one spell the quotient by ten
  induction n using decimal_induction with
  | short n h =>
    rw [decimal_of_lt h, spelled_cons, (digitOctet_spec n h).2.2.1, spelled_nil]
    omega
  | long n h ih =>
    have hlast := (digitOctet_spec (n % 10) (Nat.mod_lt n (by decide))).2.2.1
    rw [decimal_of_le h, spelled_append, ih, spelled_cons, hlast, spelled_nil]
    omega

theorem gather_decimal {n : Nat} (h : n < 0x10000000000000000) :
    gather 0 (decimal n) = (n, []) := by
  have hspelled := spelled_decimal n
  rw [gather_of_lt (by omega), hspelled]

/-! ### Integers -/

/-- An integer as it is written: a sign and digits. -/
def integerOctets (n : Int) : Bytes := ascii (integerChars n)

theorem integerOctets_eq (n : Int) :
    integerOctets n = (if n < 0 then [0x2D] else []) ++ decimal n.natAbs := by
  rw [integerOctets, integerChars, ascii, List.map_append]
  split <;> rfl

theorem dropWhile_decimal (n : Nat) : (decimal n).dropWhile isDigit = [] := by
  rw [List.dropWhile_eq_nil_iff]
  exact isDigit_of_mem_decimal

theorem takeWhile_decimal (n : Nat) : (decimal n).takeWhile isDigit = decimal n := by
  rw [List.takeWhile_eq_self_iff]
  exact isDigit_of_mem_decimal

theorem head?_decimal_ne_minus (n : Nat) : (decimal n).head? ≠ some 0x2D := by
  intro hhead
  have hdigit := isDigit_of_mem_decimal (n := n) 0x2D (List.mem_of_head? hhead)
  exact absurd hdigit (by decide)

theorem spelling_integer (n : Int) :
    Spelling.ofOctets (integerOctets n) = ⟨n < 0, decimal n.natAbs, none, none⟩ := by
  have hhead := head?_decimal_ne_minus n.natAbs
  rw [integerOctets_eq, Spelling.ofOctets]
  by_cases h : n < 0
  · simp [h, dropWhile_decimal, takeWhile_decimal]
  · simp [h, hhead, dropWhile_decimal, takeWhile_decimal]

theorem integer_congr {m n : Int} (h : m = n)
    (hm : -0x8000000000000000 ≤ m ∧ m < 0x10000000000000000)
    (hn : -0x8000000000000000 ≤ n ∧ n < 0x10000000000000000) :
    Number.integer m hm = .integer n hn := by
  subst h
  rfl

theorem ofSignificand_natAbs (n : Int)
    (h : -0x8000000000000000 ≤ n ∧ n < 0x10000000000000000)
    (habs : n.natAbs < 0x10000000000000000) :
    ofSignificand (n < 0) n.natAbs habs = some (.integer n h) := by
  unfold ofSignificand
  by_cases hneg : n < 0
  · -- what would not fit is read as a floating-point number, and so is minus zero
    have hfits : n.natAbs ≠ 0 ∧ n.natAbs ≤ 0x8000000000000000 := by omega
    have hvalue : -(n.natAbs : Int) = n := by omega
    rw [if_pos (decide_eq_true hneg), dif_pos hfits]
    exact congrArg some (integer_congr hvalue _ _)
  · have hvalue : (n.natAbs : Int) = n := by omega
    rw [if_neg (by simp [hneg])]
    exact congrArg some (integer_congr hvalue _ _)

/-- An integer is read back from its decimal form. -/
theorem ofOctets_integer (n : Int)
    (h : -0x8000000000000000 ≤ n ∧ n < 0x10000000000000000) :
    ofOctets (integerOctets n) = .ok (.integer n h) := by
  have habs : n.natAbs < 0x10000000000000000 := by omega
  have hgather := gather_decimal habs
  have hvalue := ofSignificand_natAbs n h habs
  unfold ofOctets
  simp only [spelling_integer, hgather, hvalue]

theorem ofInt64_inj {a b : Int64} (h : ofInt64 a = ofInt64 b) : a = b := by
  rw [ofInt64, ofInt64, Number.integer.injEq] at h
  exact Int64.toInt_inj.1 h

/-! ### What is read as an integer -/

theorem digitOctet_digit {octet : UInt8} (h : isDigit octet = true) :
    digit octet < 10 ∧ digitOctet (digit octet) = octet := by
  simp only [isDigit, Bool.and_eq_true, decide_eq_true_eq] at h
  have hlow : 0x30 ≤ octet.toNat := UInt8.le_iff_toNat_le.1 h.1
  have hhigh : octet.toNat ≤ 0x39 := UInt8.le_iff_toNat_le.1 h.2
  refine ⟨by rw [digit]; omega, ?_⟩
  rw [digitOctet, digit, Nat.add_sub_of_le hlow, UInt8.ofNat_toNat]

/-- Digits of which the first is no zero, unless it is the only one, are the decimal digits of
the number that they spell. -/
theorem decimal_spelled {whole : Bytes} (h : Whole whole) : decimal (spelled 0 whole) = whole := by
  induction whole using List.reverseRecOn with
  | nil => exact absurd rfl h.1.1
  | append_singleton init octet ih =>
    obtain ⟨hlt, hoctet⟩ := digitOctet_digit (h.1.2 octet (by simp))
    by_cases hinit : init = []
    · subst hinit
      rw [List.nil_append, spelled_cons, spelled_nil, Nat.zero_mul, Nat.zero_add,
        decimal_of_lt hlt, hoctet]
    · have hhead : init.head? ≠ some 0x30 := fun hzero => by
        have hall := h.2 (by rw [List.head?_append_of_ne_nil init hinit, hzero])
        have hlength := congrArg List.length hall
        have hpos := List.length_pos_iff.2 hinit
        simp only [List.length_append, List.length_singleton] at hlength
        omega
      have hdecimal := ih ⟨⟨hinit, fun o ho => h.1.2 o (List.mem_append_left _ ho)⟩,
        fun hzero => absurd hzero hhead⟩
      have hpos : spelled 0 init ≠ 0 := fun hzero => by
        rw [hzero] at hdecimal
        exact hhead (hdecimal ▸ rfl)
      have hspelled : spelled 0 (init ++ [octet]) = spelled 0 init * 10 + digit octet := by
        rw [spelled_append, spelled_cons, spelled_nil]
      have hquotient : (spelled 0 init * 10 + digit octet) / 10 = spelled 0 init := by omega
      have hremainder : (spelled 0 init * 10 + digit octet) % 10 = digit octet := by omega
      rw [hspelled, decimal_of_le (by omega), hquotient, hremainder, hdecimal, hoctet]

/-- A number without fraction and exponent that fits into 64 bits, other than minus zero, is read
as an integer. -/
theorem ofOctets_whole {sign whole : Bytes} (hsign : sign = [] ∨ sign = [0x2D])
    (hwhole : Whole whole) (hzero : sign ++ whole ≠ [0x2D, 0x30])
    (hrange : spelled 0 whole < if sign = [] then 0x10000000000000000 else 0x8000000000000001) :
    ∃ n hn, ofOctets (sign ++ whole) = .ok (.integer n hn) := by
  have hdecimal := decimal_spelled hwhole
  rcases hsign with rfl | rfl
  · rw [if_pos rfl] at hrange
    have hraw : integerOctets (spelled 0 whole : Int) = [] ++ whole := by
      rw [integerOctets_eq, if_neg (by omega), Int.natAbs_natCast, hdecimal]
    exact ⟨_, by omega, hraw ▸ ofOctets_integer (spelled 0 whole : Int) (by omega)⟩
  · rw [if_neg (by simp)] at hrange
    have hpos : spelled 0 whole ≠ 0 := fun h => by
      rw [h] at hdecimal
      exact hzero (hdecimal ▸ rfl)
    have hraw : integerOctets (-(spelled 0 whole : Int)) = [0x2D] ++ whole := by
      rw [integerOctets_eq, if_pos (by omega), Int.natAbs_neg, Int.natAbs_natCast, hdecimal]
    exact ⟨_, by omega, hraw ▸ ofOctets_integer (-(spelled 0 whole : Int)) (by omega)⟩

/-- Only a number with a fraction or an exponent, minus zero, or an integer that does not fit into
64 bits is read as a floating-point number. -/
theorem form_of_float {raw : Bytes} (hform : Form raw) {x : Binary64}
    (h : ofOctets raw = .ok (.float x)) :
    ∃ sign whole fraction exponent, raw = sign ++ (whole ++ (fraction ++ exponent)) ∧
      (sign = [] ∨ sign = [0x2D]) ∧ Whole whole ∧ Fraction fraction ∧ Exponent exponent ∧
        (fraction ≠ [] ∨ exponent ≠ [] ∨ raw = [0x2D, 0x30] ∨
          (if sign = [] then 0x10000000000000000 else 0x8000000000000001) ≤ spelled 0 whole) := by
  obtain ⟨sign, whole, fraction, exponent, hraw, hsign, hwhole, hfraction, hexponent⟩ := hform
  refine ⟨sign, whole, fraction, exponent, hraw, hsign, hwhole, hfraction, hexponent, ?_⟩
  by_contra hnot
  simp only [not_or, not_not, Nat.not_le] at hnot
  obtain ⟨rfl, rfl, hzero, hrange⟩ := hnot
  rw [List.append_nil, List.append_nil] at hraw
  subst hraw
  obtain ⟨n, hn, hread⟩ := ofOctets_whole hsign hwhole hzero hrange
  rw [hread] at h
  cases h

/-! ### How an integer is written -/

/-- Digits that are all gathered make the number that they spell. -/
theorem spelled_of_gather {significand : Nat} {digits : Bytes}
    (h : (gather significand digits).2 = []) :
    (gather significand digits).1 = spelled significand digits := by
  induction digits generalizing significand with
  | nil => rw [gather, spelled_nil]
  | cons octet rest ih =>
    rw [gather] at h ⊢
    split at h
    · next hfits =>
      rw [if_pos hfits, spelled_cons]
      exact ih h
    · exact absurd h (List.cons_ne_nil _ _)

/-- No digit follows the digits before the point. -/
theorem isDigit_head?_tail {fraction exponent : Bytes} (hfraction : Fraction fraction)
    (hexponent : Exponent exponent) :
    ∀ octet, (fraction ++ exponent).head? = some octet → isDigit octet = false := by
  intro octet hhead
  rcases hfraction with rfl | ⟨digits, rfl, -⟩
  · rcases hexponent with rfl | ⟨mark, sign, digits, rfl, rfl | rfl, -⟩
    · cases hhead
    · cases hhead; rfl
    · cases hhead; rfl
  · cases hhead; rfl

/-- Digits are taken up to the first octet that is none. -/
theorem span_digits {digits tail : Bytes} (hdigits : ∀ octet ∈ digits, isDigit octet = true)
    (htail : ∀ octet, tail.head? = some octet → isDigit octet = false) :
    (digits ++ tail).takeWhile isDigit = digits ∧ (digits ++ tail).dropWhile isDigit = tail := by
  have hstop : tail.takeWhile isDigit = [] ∧ tail.dropWhile isDigit = tail := by
    cases tail with
    | nil => exact ⟨rfl, rfl⟩
    | cons octet rest =>
      have hoctet := htail octet rfl
      simp [hoctet]
  rw [List.takeWhile_append_of_pos hdigits, List.dropWhile_append_of_pos hdigits, hstop.1,
    hstop.2, List.append_nil]
  exact ⟨rfl, rfl⟩

/-- A sign is split off before the other parts. -/
theorem spelling_signed {sign body : Bytes} (hsign : sign = [] ∨ sign = [0x2D])
    (hhead : body.head? ≠ some 0x2D) :
    Spelling.ofOctets (sign ++ body) =
      { Spelling.ofOctets body with negative := decide (sign = [0x2D]) } := by
  rcases hsign with rfl | rfl
  · simp [Spelling.ofOctets, hhead]
  · simp [Spelling.ofOctets, hhead]

/-- A number for which no fraction and no exponent is found is a sign and digits. -/
theorem spelling_of_form {sign whole fraction exponent : Bytes}
    (hsign : sign = [] ∨ sign = [0x2D]) (hwhole : Whole whole) (hfraction : Fraction fraction)
    (hexponent : Exponent exponent) {s : Spelling}
    (hs : Spelling.ofOctets (sign ++ (whole ++ (fraction ++ exponent))) = s)
    (hnoFraction : s.fraction = none) (hnoExponent : s.exponent = none) :
    fraction = [] ∧ exponent = [] ∧ s.negative = decide (sign = [0x2D]) ∧ s.whole = whole := by
  obtain ⟨htake, hdrop⟩ := span_digits hwhole.1.2 (isDigit_head?_tail hfraction hexponent)
  have hhead : (whole ++ (fraction ++ exponent)).head? ≠ some 0x2D := by
    obtain ⟨octet, rest, rfl⟩ := List.exists_cons_of_ne_nil hwhole.1.1
    have hoctet := hwhole.1.2 octet List.mem_cons_self
    simp only [List.cons_append, List.head?_cons, Ne, Option.some.injEq]
    rintro rfl
    cases hoctet
  rw [spelling_signed hsign hhead] at hs
  subst hs
  simp only [Spelling.ofOctets, hhead, decide_false, if_false, htake, hdrop]
    at hnoFraction hnoExponent ⊢
  obtain rfl : fraction = [] := by
    rcases hfraction with rfl | ⟨digits, rfl, -⟩
    · rfl
    · simp at hnoFraction
  have hpoint : exponent.head? ≠ some 0x2E := by
    rcases hexponent with rfl | ⟨mark, sign, digits, rfl, rfl | rfl, -⟩ <;> simp
  refine ⟨rfl, ?_, trivial, trivial⟩
  by_contra hne
  simp [hpoint, hne] at hnoExponent

/-- A significand is read as an integer with the sign that it was given, and minus zero is none. -/
theorem ofSignificand_eq_integer {negative : Bool} {significand : Nat}
    {h : significand < 0x10000000000000000} {n : Int}
    {hn : -0x8000000000000000 ≤ n ∧ n < 0x10000000000000000}
    (hvalue : ofSignificand negative significand h = some (.integer n hn)) :
    n = (if negative then -(significand : Int) else significand) ∧
      (negative = true → significand ≠ 0) := by
  unfold ofSignificand at hvalue
  cases negative with
  | false =>
    rw [if_neg Bool.false_ne_true, Option.some.injEq, Number.integer.injEq] at hvalue
    exact ⟨hvalue.symm, fun hfalse => absurd hfalse Bool.false_ne_true⟩
  | true =>
    rw [if_pos rfl] at hvalue
    split at hvalue
    · next hin =>
      rw [Option.some.injEq, Number.integer.injEq] at hvalue
      exact ⟨hvalue.symm, fun _ => hin.1⟩
    · simp at hvalue

/-- A number that is read as an integer has neither a fraction nor an exponent, and its digits
have all been gathered. -/
theorem spelling_of_integer {raw : Bytes} {n : Int}
    {hn : -0x8000000000000000 ≤ n ∧ n < 0x10000000000000000}
    (h : ofOctets raw = .ok (.integer n hn)) :
    (Spelling.ofOctets raw).fraction = none ∧ (Spelling.ofOctets raw).exponent = none ∧
      (gather 0 (Spelling.ofOctets raw).whole).2 = [] ∧
        ofSignificand (Spelling.ofOctets raw).negative (gather 0 (Spelling.ofOctets raw).whole).1
          (gather_lt 0 (Spelling.ofOctets raw).whole (by decide)) = some (.integer n hn) := by
  unfold ofOctets at h
  dsimp only at h
  split at h
  · next hfraction hexponent hgathered =>
    refine ⟨hfraction, hexponent, hgathered, ?_⟩
    split at h
    · next hvalue =>
      rw [Except.ok.injEq] at h
      rw [hvalue, h]
    · cases h
  -- whatever else there is, it is a floating-point number or too great for one
  · split at h
    · split at h <;> cases h
    · split at h
      · split at h <;> cases h
      · split at h <;> cases h

/-- Only an integer that is written without fraction and exponent is read as one. -/
theorem ofOctets_eq_integer_iff {raw : Bytes} (hform : Form raw) {n : Int}
    (hn : -0x8000000000000000 ≤ n ∧ n < 0x10000000000000000) :
    ofOctets raw = .ok (.integer n hn) ↔ raw = integerOctets n := by
  refine ⟨fun h => ?_, fun h => h ▸ ofOctets_integer n hn⟩
  obtain ⟨hnoFraction, hnoExponent, hgathered, hvalue⟩ := spelling_of_integer h
  obtain ⟨hn, hzero⟩ := ofSignificand_eq_integer hvalue
  rw [spelled_of_gather hgathered] at hn hzero
  obtain ⟨sign, whole, fraction, exponent, rfl, hsign, hwhole, hfraction, hexponent⟩ := hform
  obtain ⟨rfl, rfl, hnegative, hdigits⟩ :=
    spelling_of_form hsign hwhole hfraction hexponent rfl hnoFraction hnoExponent
  rw [hnegative, hdigits] at hn hzero
  have hdecimal := decimal_spelled hwhole
  rw [List.append_nil, List.append_nil, integerOctets_eq]
  rcases hsign with rfl | rfl
  · have hn : n = spelled 0 whole := by simpa using hn
    rw [if_neg (by omega), hn, Int.natAbs_natCast, hdecimal]
  · have hn : n = -(spelled 0 whole : Int) := by simpa using hn
    have hpos := hzero (by decide)
    rw [if_pos (by omega), hn, Int.natAbs_neg, Int.natAbs_natCast, hdecimal]

/-! ### Forms -/

theorem ascii_append (a b : List Char) : ascii (a ++ b) = ascii a ++ ascii b := List.map_append

theorem digits_decimal (n : Nat) : Digits (decimal n) := ⟨decimal_ne_nil n, isDigit_of_mem_decimal⟩

/-- Only zero starts with a zero, and it has no digit after that. -/
theorem decimal_of_head? {n : Nat} (h : (decimal n).head? = some 0x30) : decimal n = [0x30] := by
  by_cases hn : n = 0
  · subst hn
    rfl
  · exact absurd h (head?_decimal hn)

/-- The first digits of a number may stand before a point. -/
theorem whole_of_append {a b : Bytes} {n : Nat} (ha : a ≠ []) (h : a ++ b = decimal n) :
    Whole a := by
  have hdigits : ∀ octet ∈ a, isDigit octet = true := by
    intro octet hoctet
    apply isDigit_of_mem_decimal (n := n)
    rw [← h]
    exact List.mem_append_left b hoctet
  refine ⟨⟨ha, hdigits⟩, fun hhead => ?_⟩
  have hzero : (decimal n).head? = some 0x30 := by
    rw [← h, List.head?_append_of_ne_nil a ha, hhead]
  obtain ⟨octet, rest, rfl⟩ := List.exists_cons_of_ne_nil ha
  rw [decimal_of_head? hzero, List.cons_append, List.cons.injEq, List.append_eq_nil_iff] at h
  rw [h.1, h.2.1]

theorem whole_decimal (n : Nat) : Whole (decimal n) :=
  whole_of_append (decimal_ne_nil n) (List.append_nil _)

theorem digits_singleton {octet : UInt8} (h : isDigit octet = true) : Digits [octet] := by
  refine ⟨List.cons_ne_nil _ _, fun o ho => ?_⟩
  rwa [List.mem_singleton.1 ho]

theorem Digits.append {a b : Bytes} (ha : Digits a) (hb : ∀ octet ∈ b, isDigit octet = true) :
    Digits (a ++ b) := by
  refine ⟨List.append_ne_nil_of_left_ne_nil ha.1 b, fun octet hoctet => ?_⟩
  exact (List.mem_append.1 hoctet).elim (ha.2 octet) (hb octet)

theorem ascii_zeros (n : Nat) : ascii (List.replicate n '0') = List.replicate n 0x30 :=
  List.map_replicate

theorem isDigit_of_mem_zeros {n : Nat} {octet : UInt8} (h : octet ∈ List.replicate n 0x30) :
    isDigit octet = true := by
  rw [List.eq_of_mem_replicate h]
  rfl

/-- An integer without fraction and exponent. -/
theorem form_integer (n : Int) : Form (integerOctets n) := by
  refine ⟨if n < 0 then [0x2D] else [], decimal n.natAbs, [], [], ?_, ?_, whole_decimal _,
    .inl rfl, .inl rfl⟩
  · rw [integerOctets_eq, List.append_nil, List.append_nil]
  · split
    · exact .inr rfl
    · exact .inl rfl

/-- Digits with a point among them, if a zero is followed by nothing but the point. -/
theorem form_pointed {sign : Bytes} (hsign : sign = [] ∨ sign = [0x2D]) (n : Nat) {whole : Int}
    (hzero : n = 0 → whole ≤ 1) :
    Form (sign ++ ascii (pointed (Nat.toDigits 10 n) whole)) := by
  have hlength : (Nat.toDigits 10 n).length = (decimal n).length := (List.length_map _).symm
  rw [pointed]
  split
  · -- zeros between the point and the digits
    refine ⟨sign, [0x30], 0x2E :: (List.replicate (-whole).toNat 0x30 ++ decimal n), [], ?_, hsign,
      whole_decimal 0, .inr ⟨_, rfl, ?_⟩, .inl rfl⟩
    · rw [ascii_append, ascii_append, ascii_zeros, List.append_nil]
      rfl
    · refine ⟨List.append_ne_nil_of_right_ne_nil _ (decimal_ne_nil n), fun octet hoctet => ?_⟩
      exact (List.mem_append.1 hoctet).elim isDigit_of_mem_zeros (isDigit_of_mem_decimal octet)
  split
  · -- zeros between the digits and the point
    refine ⟨sign, decimal n ++ List.replicate (whole.toNat - (Nat.toDigits 10 n).length) 0x30,
      [0x2E, 0x30], [], ?_, hsign, ⟨(digits_decimal n).append fun _ => isDigit_of_mem_zeros, ?_⟩,
      .inr ⟨[0x30], rfl, digits_singleton rfl⟩, .inl rfl⟩
    · rw [ascii_append, ascii_append, ascii_zeros, List.append_nil]
      rfl
    · intro hhead
      rw [List.head?_append_of_ne_nil _ (decimal_ne_nil n)] at hhead
      have hdecimal := decimal_of_head? hhead
      have hn : n = 0 := by
        rw [← spelled_decimal n, hdecimal]
        rfl
      have hnone : whole.toNat - (Nat.toDigits 10 n).length = 0 := by
        have hone := hzero hn
        rw [hlength, hdecimal, List.length_singleton]
        omega
      rw [hdecimal, hnone, List.replicate_zero, List.append_nil]
  · -- the point between the digits
    next hpositive hshort =>
    rw [hlength] at hshort
    have hfirst : (decimal n).take whole.toNat ≠ [] := by
      rw [Ne, List.take_eq_nil_iff]
      exact fun h => h.elim (by omega) (decimal_ne_nil n)
    have hlast : (decimal n).drop whole.toNat ≠ [] := by
      rw [Ne, List.drop_eq_nil_iff]
      omega
    refine ⟨sign, (decimal n).take whole.toNat, 0x2E :: (decimal n).drop whole.toNat, [], ?_, hsign,
      whole_of_append hfirst (List.take_append_drop whole.toNat (decimal n)),
      .inr ⟨_, rfl, hlast, fun octet h => isDigit_of_mem_decimal octet (List.mem_of_mem_drop h)⟩,
      .inl rfl⟩
    simp [ascii, decimal]

/-- A digit, the point and the other digits if there are any, and an exponent. -/
theorem form_scientific {sign : Bytes} (hsign : sign = [] ∨ sign = [0x2D]) (n : Nat)
    (exponent : Int) : Form (sign ++ ascii (scientific (Nat.toDigits 10 n) exponent)) := by
  have hlength : (Nat.toDigits 10 n).length = (decimal n).length := (List.length_map _).symm
  have hfirst : (decimal n).take 1 ≠ [] := by
    rw [Ne, List.take_eq_nil_iff]
    exact fun h => h.elim (by decide) (decimal_ne_nil n)
  have hexponent : Exponent (ascii (['e', if exponent < 0 then '-' else '+'] ++
      Nat.toDigits 10 exponent.natAbs)) := by
    refine .inr ⟨0x65, [if exponent < 0 then 0x2D else 0x2B], decimal exponent.natAbs, ?_, .inl rfl,
      ?_, digits_decimal _⟩
    · rw [ascii_append]
      split <;> rfl
    · split
      · exact .inr (.inr rfl)
      · exact .inr (.inl rfl)
  refine ⟨sign, (decimal n).take 1,
    ascii (if (Nat.toDigits 10 n).length ≤ 1 then [] else '.' :: (Nat.toDigits 10 n).drop 1), _, ?_,
    hsign, whole_of_append hfirst (List.take_append_drop 1 (decimal n)), ?_, hexponent⟩
  · simp [scientific, ascii, decimal]
  · split
    · exact .inl rfl
    · next hmore =>
      rw [hlength] at hmore
      refine .inr ⟨(decimal n).drop 1, by simp [ascii, decimal], ?_, fun octet h => ?_⟩
      · rw [Ne, List.drop_eq_nil_iff]
        exact hmore
      · exact isDigit_of_mem_decimal octet (List.mem_of_mem_drop h)

/-- Every number is written in the form of a number. -/
theorem form_chars (n : Number) : Form (ascii n.chars) := by
  cases n with
  | integer n _ => exact form_integer n
  | float x =>
    have hsign : ascii (if x.negative then ['-'] else []) = [] ∨
        ascii (if x.negative then ['-'] else []) = [0x2D] := by
      split
      · exact .inr rfl
      · exact .inl rfl
    rw [chars, floatChars, ascii_append]
    generalize ascii (if x.negative then ['-'] else []) = sign at hsign ⊢
    split
    · refine form_pointed hsign _ fun hzero => ?_
      rw [hzero, Binary64.exponent_of_shortest hzero]
      decide
    · exact form_scientific hsign _ _

end TokenVault.Json.Number
