import Mathlib.FieldTheory.Finite.Basic
import Mathlib.NumberTheory.LucasLehmer
import TokenVault.Proofs.Rsa.Signature

/-!
# One signature for each message

Modulo a product of two distinct primes, an exponent that is prime to the order of the units
permutes the numbers: `pow_injective_of_primes`.  So under a usable key of this kind every
message has exactly one signature, and whatever is changed in it, it is no signature any more:
`PublicKey.accepts_exactly_one`.
-/

namespace TokenVault.Rsa

/-! ### Powers -/

/-- Modulo a prime `p`, an exponent that is prime to `p - 1` takes different numbers to
different powers. -/
theorem pow_injective_of_prime {p e : Nat} (hp : p.Prime) (he : e ≠ 0)
    (hcoprime : e.Coprime (p - 1)) : Function.Injective fun x : ZMod p => x ^ e := by
  have : Fact p.Prime := ⟨hp⟩
  have hunits : (Nat.card (ZMod p)ˣ).Coprime e := by
    rw [Nat.card_eq_fintype_card, ZMod.card_units]
    exact hcoprime.symm
  intro x y hpow
  -- zero is the only root of zero, and all the others are units
  by_cases hx : x = 0
  · subst hx
    have hzero : y ^ e = 0 := by simpa [he] using hpow.symm
    exact ((pow_eq_zero_iff he).1 hzero).symm
  · have hy : y ≠ 0 := by
      rintro rfl
      exact hx ((pow_eq_zero_iff he).1 (by simpa [he] using hpow))
    have hroots : Units.mk0 x hx ^ e = Units.mk0 y hy ^ e := Units.ext hpow
    exact congrArg Units.val (hunits.pow_left_bijective.injective hroots)

/-- The same modulo a product of two primes, where a number is a pair of remainders. -/
theorem pow_injective_of_primes {p q e : Nat} (hp : p.Prime) (hq : q.Prime) (hne : p ≠ q)
    (he : e ≠ 0) (hcoprime : e.Coprime ((p - 1) * (q - 1))) :
    Function.Injective fun x : ZMod (p * q) => x ^ e := by
  have hpq : p.Coprime q := (Nat.coprime_primes hp hq).2 hne
  have hfirst := pow_injective_of_prime hp he (Nat.Coprime.coprime_mul_right_right hcoprime)
  have hsecond := pow_injective_of_prime hq he (Nat.Coprime.coprime_mul_left_right hcoprime)
  let remainders := ZMod.chineseRemainder hpq
  intro x y hpow
  have hpair : remainders x ^ e = remainders y ^ e := by
    rw [← map_pow, ← map_pow]
    exact congrArg remainders hpow
  have hremainders := Prod.ext_iff.1 hpair
  exact remainders.injective (Prod.ext (hfirst hremainders.1) (hsecond hremainders.2))

/-! ### Roots -/

/-- Whether the modulus is a product of two distinct primes, and the exponent prime to the
order of the units. -/
def PublicNumbers.HasTwoPrimes (key : PublicNumbers) : Prop :=
  ∃ p q : Nat, p.Prime ∧ q.Prime ∧ p ≠ q ∧ key.modulus = p * q ∧
    key.exponent.Coprime ((p - 1) * (q - 1))

namespace PublicNumbers.HasTwoPrimes

variable {key : PublicNumbers}

theorem pow_injective (h : key.HasTwoPrimes) :
    Function.Injective fun x : ZMod key.modulus => x ^ key.exponent := by
  obtain ⟨p, q, hp, hq, hne, hmodulus, hcoprime⟩ := h
  have hexponent : key.exponent ≠ 0 := by
    have hle := key.le_exponent
    omega
  rw [hmodulus]
  exact pow_injective_of_primes hp hq hne hexponent hcoprime

theorem root_unique (h : key.HasTwoPrimes) {s t : Nat} (hs : s < key.modulus)
    (ht : t < key.modulus)
    (hpow : powMod s key.exponent key.modulus = powMod t key.exponent key.modulus) : s = t := by
  rw [powMod_eq, powMod_eq, Nat.pow_eq, Nat.pow_eq, ← ZMod.natCast_eq_natCast_iff',
    Nat.cast_pow, Nat.cast_pow] at hpow
  have hcast := h.pow_injective hpow
  rwa [ZMod.natCast_eq_natCast_iff', Nat.mod_eq_of_lt hs, Nat.mod_eq_of_lt ht] at hcast

theorem exists_root (h : key.HasTwoPrimes) {b : Nat} (hb : b < key.modulus) :
    ∃ s < key.modulus, powMod s key.exponent key.modulus = b := by
  have : NeZero key.modulus := ⟨by omega⟩
  -- a map of finitely many numbers that keeps them apart reaches all of them
  obtain ⟨x, hx⟩ := Finite.injective_iff_surjective.1 h.pow_injective (b : ZMod key.modulus)
  refine ⟨x.val, x.val_lt, ?_⟩
  have hcast : ((x.val ^ key.exponent : Nat) : ZMod key.modulus) = (b : ZMod key.modulus) := by
    rw [Nat.cast_pow, ZMod.natCast_zmod_val]
    exact hx
  rw [powMod_eq, Nat.pow_eq, (ZMod.natCast_eq_natCast_iff' _ _ _).1 hcast,
    Nat.mod_eq_of_lt hb]

end PublicNumbers.HasTwoPrimes

/-! ### Signatures -/

/-- The padded block begins with a zero octet. -/
theorem toNat_paddedBlock_lt {size : Nat} (h : 86 ≤ size) (digest : Digest) (message : Bytes) :
    Bytes.toNat (paddedBlock size digest message) < Nat.pow 256 (size - 1) := by
  obtain ⟨rest, hblock⟩ : ∃ rest, paddedBlock size digest message = 0x00 :: rest := ⟨_, rfl⟩
  have hlength := length_paddedBlock size digest message h
  rw [hblock, List.length_cons] at hlength
  have hzero : (0x00 : UInt8).toNat = 0 := rfl
  rw [hblock, Bytes.toNat_cons, hzero, Nat.zero_mul, Nat.zero_add, ← hlength,
    Nat.add_sub_cancel]
  exact toNat_lt rest

/-- The modulus of a usable key is written without leading zeros. -/
theorem PublicKey.le_modulus {key : PublicKey} {numbers : PublicNumbers}
    (h : key.numbers? = some numbers) : Nat.pow 256 (numbers.size - 1) ≤ numbers.modulus := by
  obtain ⟨modulus, exponent, -, hnumbers⟩ := numbers?_eq_some_iff.1 h
  obtain ⟨hmodulus, -, hsize⟩ := PublicNumbers.ofOctets_eq_ok_iff.1 hnumbers
  obtain ⟨hne, hhead, -⟩ := publicModulus_spelling hmodulus
  rw [hsize, (publicModulus_eq_ok hmodulus).1]
  exact Bytes.le_toNat hne hhead

theorem PublicNumbers.HasTwoPrimes.accepts_unique {key : PublicNumbers} (h : key.HasTwoPrimes)
    {digest : Digest} {message s t : Bytes} (hs : key.accepts digest message s = true)
    (ht : key.accepts digest message t = true) : s = t := by
  obtain ⟨hslength, -, hslt, hspower⟩ := (key.accepts_iff _ _ _).1 hs
  obtain ⟨htlength, -, htlt, htpower⟩ := (key.accepts_iff _ _ _).1 ht
  have hvalue := h.root_unique hslt htlt (hspower.trans htpower.symm)
  rw [← Bytes.ofNat_toNat s, ← Bytes.ofNat_toNat t, hslength, htlength, hvalue]

theorem PublicKey.exists_accepts {key : PublicKey} {numbers : PublicNumbers}
    (hnumbers : key.numbers? = some numbers) (h : numbers.HasTwoPrimes) (digest : Digest)
    (message : Bytes) : ∃ signature, key.accepts digest message signature = true := by
  have hblock := toNat_paddedBlock_lt (Nat.le_trans (by decide) numbers.le_size) digest message
  obtain ⟨s, hlt, hpower⟩ := h.exists_root (Nat.lt_of_lt_of_le hblock (le_modulus hnumbers))
  refine ⟨Bytes.ofNat numbers.size s, ?_⟩
  rw [accepts_of_numbers hnumbers]
  exact PublicNumbers.accepts_of_root hlt hpower

/-- Under a usable key whose modulus is a product of two distinct primes and whose exponent is
prime to the order of the units, every message has exactly one signature.  So it is none any
more once an octet is changed, octets are added or dropped anywhere, or the modulus is added to
the number that it denotes. -/
theorem PublicKey.accepts_exactly_one {key : PublicKey} {numbers : PublicNumbers}
    (hnumbers : key.numbers? = some numbers) {p q : Nat} (hp : p.Prime) (hq : q.Prime)
    (hne : p ≠ q) (hmodulus : numbers.modulus = p * q)
    (hexponent : numbers.exponent.Coprime ((p - 1) * (q - 1))) (digest : Digest)
    (message : Bytes) :
    (∃! signature, key.accepts digest message signature = true) ∧
    ∀ signature, key.accepts digest message signature = true →
      (∀ (i : Nat) (hi : i < signature.length) (octet : UInt8), octet ≠ signature[i] →
        key.accepts digest message (signature.set i octet) = false) ∧
      (∀ other : Bytes, other.length ≠ signature.length →
        key.accepts digest message other = false) ∧
      ∀ other : Bytes, Bytes.toNat other = Bytes.toNat signature + numbers.modulus →
        key.accepts digest message other = false := by
  have hprimes : numbers.HasTwoPrimes := ⟨p, q, hp, hq, hne, hmodulus, hexponent⟩
  have hunique : ∀ s t, key.accepts digest message s = true →
      key.accepts digest message t = true → s = t := by
    intro s t hs ht
    rw [accepts_of_numbers hnumbers] at hs ht
    exact hprimes.accepts_unique hs ht
  constructor
  · obtain ⟨signature, haccepts⟩ := exists_accepts hnumbers hprimes digest message
    exact ⟨signature, haccepts, fun other hother => hunique _ _ hother haccepts⟩
  · intro signature haccepts
    have hother : ∀ other, other ≠ signature → key.accepts digest message other = false := by
      intro other hdiffers
      rw [Bool.eq_false_iff]
      exact fun hright => hdiffers (hunique _ _ hright haccepts)
    refine ⟨?_, ?_, ?_⟩
    · intro i hi octet hoctet
      apply hother
      intro hset
      apply hoctet
      have hat : (signature.set i octet)[i]? = some octet := List.getElem?_set_self hi
      rw [hset, List.getElem?_eq_getElem hi] at hat
      exact (Option.some.inj hat).symm
    · intro other hlength
      exact hother other fun hequal => hlength (congrArg List.length hequal)
    · intro other hvalue
      apply hother
      rintro rfl
      have hpositive := numbers.modulus_pos
      omega

/-- A key whose modulus is the product of two Mersenne primes, 2²²⁰³ - 1 and 2¹²⁷⁹ - 1. -/
def PublicKey.ofMersennePrimes : PublicKey :=
  .components (0x03 :: List.replicate 159 0xFF ++ 0xF7 :: List.replicate 115 0xFF ++
    0x80 :: List.replicate 158 0x00 ++ [0x01]) [0x01, 0x00, 0x01]

theorem PublicKey.numbers?_ofMersennePrimes :
    ∃ numbers, ofMersennePrimes.numbers? = some numbers ∧
      numbers.modulus = mersenne 2203 * mersenne 1279 ∧ numbers.exponent = 65537 := by
  have hmodulus : publicModulus .checking (0x03 :: List.replicate 159 0xFF ++
      0xF7 :: List.replicate 115 0xFF ++ 0x80 :: List.replicate 158 0x00 ++ [0x01]) =
        .ok (mersenne 2203 * mersenne 1279) := by decide +kernel
  have hexponent : publicExponent .checking [0x01, 0x00, 0x01] = .ok 65537 := by decide +kernel
  obtain ⟨numbers, hnumbers⟩ := PublicNumbers.exists_ofOctets hmodulus hexponent
  obtain ⟨hn, he, -⟩ := PublicNumbers.ofOctets_eq_ok_iff.1 hnumbers
  exact ⟨numbers, numbers?_eq_some_iff.2 ⟨_, _, rfl, hnumbers⟩,
    Except.ok.inj (hn.symm.trans hmodulus), Except.ok.inj (he.symm.trans hexponent)⟩

/-- The signature of a message under this key: no other value of an octet, no zero octet in
front and no longer spelling of the number with the modulus added takes its place. -/
theorem PublicKey.accepts_exactly_one_mersenne :
    (mersenne 2203).Prime ∧ (mersenne 1279).Prime ∧ mersenne 2203 ≠ mersenne 1279 ∧
    Nat.Coprime 65537 ((mersenne 2203 - 1) * (mersenne 1279 - 1)) ∧
    ∃ signature : Bytes, ofMersennePrimes.accepts .sha256 [0x61] signature = true ∧
      (∀ (i : Nat) (hi : i < signature.length),
        ofMersennePrimes.accepts .sha256 [0x61] (signature.set i (signature[i] + 1)) = false) ∧
      ofMersennePrimes.accepts .sha256 [0x61] (0x00 :: signature) = false ∧
      ofMersennePrimes.accepts .sha256 [0x61] (Bytes.ofNat 437
        (Bytes.toNat signature + mersenne 2203 * mersenne 1279)) = false := by
  have hp : (mersenne 2203).Prime := lucas_lehmer_sufficiency _ (by decide) (by norm_num)
  have hq : (mersenne 1279).Prime := lucas_lehmer_sufficiency _ (by decide) (by norm_num)
  have hne : mersenne 2203 ≠ mersenne 1279 := by decide +kernel
  have hcoprime : Nat.Coprime 65537 ((mersenne 2203 - 1) * (mersenne 1279 - 1)) := by
    decide +kernel
  obtain ⟨numbers, hnumbers, hmodulus, hexponent⟩ := numbers?_ofMersennePrimes
  obtain ⟨⟨signature, haccepts, -⟩, hedits⟩ := accepts_exactly_one hnumbers hp hq hne hmodulus
    (by rw [hexponent]; exact hcoprime) .sha256 [0x61]
  obtain ⟨hoctet, hlength, hvalue⟩ := hedits signature haccepts
  refine ⟨hp, hq, hne, hcoprime, signature, haccepts, ?_, hlength _ (by simp), hvalue _ ?_⟩
  · intro i hi
    exact hoctet i hi _ (by simp)
  · -- the sum still fits one octet more than the modulus has
    have hwidth : 2 * (mersenne 2203 * mersenne 1279) < Nat.pow 256 437 := by decide +kernel
    rw [accepts_of_numbers hnumbers, PublicNumbers.accepts_iff, hmodulus] at haccepts
    have hsum : Bytes.toNat signature + mersenne 2203 * mersenne 1279 <
        2 * (mersenne 2203 * mersenne 1279) := by
      rw [Nat.two_mul]
      exact Nat.add_lt_add_right haccepts.2.2.1 _
    rw [hmodulus, Bytes.toNat_ofNat (Nat.lt_trans hsum hwidth)]

end TokenVault.Rsa
