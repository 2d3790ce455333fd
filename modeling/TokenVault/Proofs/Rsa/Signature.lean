import TokenVault.Proofs.Result
import TokenVault.Proofs.Rsa.Der
import TokenVault.Rsa.PrivateKey

/-!
# Signatures are accepted

What a private key signs its public half accepts: the limits for checking are wider than those
for signing, the document of the public half is read back, and a signature is only given out if
its power is the padded block.
-/

namespace TokenVault.Rsa

theorem PublicNumbers.ofOctets_eq_ok_iff {limits : Limits} {modulus exponent : Bytes}
    {numbers : PublicNumbers} :
    PublicNumbers.ofOctets limits modulus exponent = .ok numbers ↔
      publicModulus limits modulus = .ok numbers.modulus ∧
        publicExponent limits exponent = .ok numbers.exponent ∧
          numbers.size = modulus.length := by
  unfold PublicNumbers.ofOctets
  split
  · next reason hmodulus => simp [hmodulus]
  · next n hmodulus =>
    split
    · next reason hexponent => simp [hexponent]
    · next e hexponent =>
      constructor
      · intro h
        obtain rfl := Except.ok.inj h
        exact ⟨hmodulus, hexponent, rfl⟩
      · rintro ⟨hn, he, hsize⟩
        obtain rfl := Except.ok.inj (hmodulus.symm.trans hn)
        obtain rfl := Except.ok.inj (hexponent.symm.trans he)
        cases numbers
        simp_all

/-- Octets within limits make up a key. -/
theorem PublicNumbers.exists_ofOctets {limits : Limits} {modulus exponent : Bytes} {n e : Nat}
    (hn : publicModulus limits modulus = .ok n) (he : publicExponent limits exponent = .ok e) :
    ∃ numbers, PublicNumbers.ofOctets limits modulus exponent = .ok numbers := by
  unfold PublicNumbers.ofOctets
  split
  · next reason hmodulus => cases hmodulus.symm.trans hn
  · split
    · next reason hexponent => cases hexponent.symm.trans he
    · exact ⟨_, rfl⟩

/-- The limits for checking admit every modulus that those for signing admit. -/
theorem publicModulus_checking {octets : Bytes} {n : Nat}
    (h : publicModulus .signing octets = .ok n) : publicModulus .checking octets = .ok n := by
  obtain ⟨m, hvalue, h⟩ := Result.bind_eq_ok_iff.1 h
  rw [publicModulus, hvalue, Result.ok_bind]
  by_cases hsmall : 8 * octets.length < 2048
  · rw [if_pos hsmall] at h
    cases h
  · rw [if_neg hsmall] at h ⊢
    by_cases hlarge : Limits.signing.modulusBits < bitLength m
    · rw [if_pos hlarge] at h
      cases h
    · have hchecking : ¬Limits.checking.modulusBits < bitLength m := by
        have hbits : ¬4096 < bitLength m := hlarge
        show ¬8192 < bitLength m
        omega
      rw [if_neg hlarge] at h
      rw [if_neg hchecking]
      exact h

theorem publicExponent_eq_ok_iff {limits : Limits} {octets : Bytes} {e : Nat} :
    publicExponent limits octets = .ok e ↔
      octets.length ≤ 5 ∧ octets.head? ≠ some 0 ∧ octets ≠ [] ∧ Bytes.toNat octets = e ∧
        limits.exponent ≤ e ∧ e ≤ largestExponent ∧ e % 2 ≠ 0 := by
  unfold publicExponent
  simp only
  repeat' split
  all_goals grind

/-- The limits for checking admit every exponent that those for signing admit. -/
theorem publicExponent_checking {octets : Bytes} {e : Nat}
    (h : publicExponent .signing octets = .ok e) : publicExponent .checking octets = .ok e := by
  obtain ⟨hlength, hhead, hne, hvalue, hlow, hhigh, hodd⟩ := publicExponent_eq_ok_iff.1 h
  refine publicExponent_eq_ok_iff.2 ⟨hlength, hhead, hne, hvalue, ?_, hhigh, hodd⟩
  have hlimits : Limits.checking.exponent ≤ Limits.signing.exponent := by decide
  exact Nat.le_trans hlimits hlow

theorem PublicNumbers.ofOctets_checking {modulus exponent : Bytes} {numbers : PublicNumbers}
    (h : PublicNumbers.ofOctets .signing modulus exponent = .ok numbers) :
    PublicNumbers.ofOctets .checking modulus exponent = .ok numbers := by
  obtain ⟨hmodulus, hexponent, hsize⟩ := PublicNumbers.ofOctets_eq_ok_iff.1 h
  exact PublicNumbers.ofOctets_eq_ok_iff.2
    ⟨publicModulus_checking hmodulus, publicExponent_checking hexponent, hsize⟩

theorem publicModulus_spelling {limits : Limits} {octets : Bytes} {n : Nat}
    (h : publicModulus limits octets = .ok n) :
    octets ≠ [] ∧ octets.head? ≠ some 0 ∧ octets.length ≤ 1024 := by
  obtain ⟨-, -, hshort, hlong⟩ := publicModulus_eq_ok h
  obtain ⟨m, hvalue, -⟩ := Result.bind_eq_ok_iff.1 h
  refine ⟨?_, (modulusValue_eq_ok hvalue).2.2.2, hlong⟩
  rintro rfl
  simp at hshort

/-- A key can be used if its octets are those of numbers within the limits for checking. -/
theorem PublicKey.numbers?_eq_some_iff {key : PublicKey} {numbers : PublicNumbers} :
    key.numbers? = some numbers ↔
      ∃ modulus exponent, key.octets? = some (modulus, exponent) ∧
        PublicNumbers.ofOctets .checking modulus exponent = .ok numbers := by
  simp only [numbers?, Option.bind_eq_bind, Option.bind_eq_some_iff, Prod.exists,
    Result.toOption_eq_some_iff]

/-- The numbers of the public half are those of the private key. -/
theorem PrivateKey.numbers?_publicKey (key : PrivateKey) :
    key.publicKey.numbers? = some key.numbers := by
  obtain ⟨hmodulus, hexponent, -⟩ := PublicNumbers.ofOctets_eq_ok_iff.1 key.numbers_eq
  obtain ⟨hm, hmhead, hmlength⟩ := publicModulus_spelling hmodulus
  obtain ⟨helength, hehead, he, -⟩ := publicExponent_eq_ok_iff.1 hexponent
  have hmodulusFits := length_writeInteger_le key.modulusOctets
  have hexponentFits := length_writeInteger_le key.exponentOctets
  have hdocument := documentOctets?_publicDocument hm he hmhead hehead
    (by rw [List.length_append]; omega)
  exact PublicKey.numbers?_eq_some_iff.2
    ⟨_, _, hdocument, PublicNumbers.ofOctets_checking key.numbers_eq⟩

theorem toNat_paddedBlock_pos (size : Nat) (digest : Digest) (message : Bytes) :
    0 < Bytes.toNat (paddedBlock size digest message) :=
  Bytes.toNat_pos (List.mem_cons_of_mem 0 List.mem_cons_self) (by decide : (1 : UInt8) ≠ 0)

theorem PublicNumbers.modulus_pos (key : PublicNumbers) : 0 < key.modulus := by
  have hodd := key.modulus_odd
  omega

/-- Zero is a root of zero only. -/
theorem PublicNumbers.root_pos {key : PublicNumbers} {s b : Nat}
    (h : powMod s key.exponent key.modulus = b) (hb : 0 < b) : 0 < s := by
  apply Nat.pos_of_ne_zero
  rintro rfl
  have hexponent := key.le_exponent
  rw [← h, powMod_eq, Nat.pow_eq, Nat.zero_pow (by omega), Nat.zero_mod] at hb
  exact Nat.lt_irrefl 0 hb

theorem PrivateKey.root_lt (key : PrivateKey) (m : Nat) : key.root m < key.numbers.modulus :=
  Nat.mod_lt _ key.numbers.modulus_pos

/-- A signature is right if it is as long as the modulus and denotes a number between zero and
the modulus whose power is the padded block. -/
theorem PublicNumbers.accepts_iff (key : PublicNumbers) (digest : Digest)
    (message signature : Bytes) :
    key.accepts digest message signature = true ↔
      signature.length = key.size ∧ 0 < Bytes.toNat signature ∧
        Bytes.toNat signature < key.modulus ∧
          powMod (Bytes.toNat signature) key.exponent key.modulus =
            Bytes.toNat (paddedBlock key.size digest message) := by
  have hsize : (paddedBlock key.size digest message).length = key.size :=
    length_paddedBlock _ _ _ (Nat.le_trans (by decide) key.le_size)
  have hwritten := Bytes.ofNat_toNat (paddedBlock key.size digest message)
  rw [hsize] at hwritten
  have hpower := Nat.lt_trans
    (powMod_lt (Bytes.toNat signature) key.exponent key.modulus_pos) key.modulus_lt
  -- octets of one length are equal if the numbers are that they denote
  have hblock : Bytes.ofNat key.size (powMod (Bytes.toNat signature) key.exponent key.modulus) =
      paddedBlock key.size digest message ↔
        powMod (Bytes.toNat signature) key.exponent key.modulus =
          Bytes.toNat (paddedBlock key.size digest message) := by
    constructor
    · intro h
      rw [← h, Bytes.toNat_ofNat hpower]
    · intro h
      rw [h, hwritten]
  simp [accepts, hblock, Nat.pos_iff_ne_zero, and_assoc]

/-- The octets of a root of the padded block are a signature. -/
theorem PublicNumbers.accepts_of_root {key : PublicNumbers} {digest : Digest} {message : Bytes}
    {s : Nat} (hlt : s < key.modulus)
    (hpower : powMod s key.exponent key.modulus =
      Bytes.toNat (paddedBlock key.size digest message)) :
    key.accepts digest message (Bytes.ofNat key.size s) = true := by
  rw [accepts_iff, Bytes.toNat_ofNat (Nat.lt_trans hlt key.modulus_lt)]
  exact ⟨Bytes.length_ofNat _ _, root_pos hpower (toNat_paddedBlock_pos _ _ _), hlt, hpower⟩

theorem PublicKey.accepts_of_numbers {key : PublicKey} {numbers : PublicNumbers}
    (h : key.numbers? = some numbers) (digest : Digest) (message signature : Bytes) :
    key.accepts digest message signature = numbers.accepts digest message signature := by
  rw [accepts, h]

/-- A signature is given out if what was computed is a root of the padded block. -/
theorem PrivateKey.sign?_eq_some_iff {key : PrivateKey} {digest : Digest}
    {message signature : Bytes} :
    key.sign? digest message = some signature ↔
      powMod (key.root (Bytes.toNat (paddedBlock key.size digest message)))
          key.numbers.exponent key.numbers.modulus =
        Bytes.toNat (paddedBlock key.size digest message) ∧
      Bytes.ofNat key.size (key.root (Bytes.toNat (paddedBlock key.size digest message))) =
        signature := by
  simp only [sign?, Option.ite_none_right_eq_some, Option.some.injEq]

/-- A signature that is given out is right under the public half. -/
theorem PrivateKey.accepts_of_sign? {key : PrivateKey} {digest : Digest}
    {message signature : Bytes} (h : key.sign? digest message = some signature) :
    key.publicKey.accepts digest message signature = true := by
  obtain ⟨hpower, rfl⟩ := sign?_eq_some_iff.1 h
  rw [PublicKey.accepts_of_numbers key.numbers?_publicKey]
  exact PublicNumbers.accepts_of_root (key.root_lt _) hpower

theorem PrivateKey.length_of_sign? {key : PrivateKey} {digest : Digest}
    {message signature : Bytes} (h : key.sign? digest message = some signature) :
    signature.length = key.size := by
  obtain ⟨-, rfl⟩ := sign?_eq_some_iff.1 h
  exact Bytes.length_ofNat _ _

end TokenVault.Rsa
