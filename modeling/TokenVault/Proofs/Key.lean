import TokenVault.Proofs.Rsa.Signature
import TokenVault.Token.Compact

/-!
# Keys and families

What a key signs is accepted by the key that belongs to it, and how long it is follows from the
digest or from the modulus.  Under an algorithm of the other family a key signs nothing and
accepts nothing.  `SigningKey.signs_within_family` says both.
-/

namespace TokenVault

/-- The family that a key belongs to. -/
def VerificationKey.family : VerificationKey → Family
  | mac _ => .mac
  | rsa _ => .rsa

/-- Octets of a signature: those of a tag under a shared secret, those of the modulus under a
private key. -/
def SigningKey.signatureLength (key : SigningKey) (algorithm : Algorithm) : Nat :=
  match key with
  | mac _ => algorithm.digest.outputLength
  | rsa key => key.size

namespace SigningKey

variable {key : SigningKey} {algorithm : Algorithm} {message signature : Bytes}

/-- What a key signs is a tag under a shared secret, or what a private key yields. -/
theorem sign_eq_ok_iff :
    key.sign algorithm message = .ok signature ↔
      algorithm.family = key.family ∧
        match key with
        | mac key => signature = key.tag algorithm.digest message
        | rsa key => key.sign? algorithm.digest message = some signature := by
  cases key with
  | mac key =>
    cases hfamily : algorithm.family with
    | mac => simp [sign, family, hfamily, eq_comm]
    | rsa => simp [sign, family, hfamily]
  | rsa key =>
    cases hfamily : algorithm.family with
    | mac => simp [sign, family, hfamily]
    | rsa =>
      simp only [sign, family, hfamily, true_and, Rsa.PrivateKey.sign]
      cases key.sign? algorithm.digest message <;> simp

theorem sign_of_family_ne (h : algorithm.family ≠ key.family) :
    key.sign algorithm message = .error (.otherFamily key.family algorithm) := by
  cases key <;> cases hfamily : algorithm.family <;> simp_all [sign, family]

/-- Within its family a key signs, unless it is a private key that does not match its public
half. -/
theorem sign_of_family_eq (h : algorithm.family = key.family) :
    (∃ signature, key.sign algorithm message = .ok signature) ∨
      key.family = .rsa ∧ key.sign algorithm message = .error .mismatched := by
  cases key with
  | mac key => exact .inl ⟨_, sign_eq_ok_iff.2 ⟨h, rfl⟩⟩
  | rsa key =>
    cases hsign : key.sign? algorithm.digest message with
    | some signature => exact .inl ⟨signature, sign_eq_ok_iff.2 ⟨h, hsign⟩⟩
    | none =>
      rw [family] at h
      simp [sign, family, h, Rsa.PrivateKey.sign, hsign]

/-- What a key signs is accepted by the key that belongs to it. -/
theorem accepts_of_sign (h : key.sign algorithm message = .ok signature) :
    key.verificationKey.accepts algorithm message signature = true := by
  obtain ⟨hfamily, hsignature⟩ := sign_eq_ok_iff.1 h
  cases key with
  | mac key =>
    rw [family] at hfamily
    simp [verificationKey, VerificationKey.accepts, hfamily, MacKey.accepts_iff, hsignature]
  | rsa key =>
    rw [family] at hfamily
    simp [verificationKey, VerificationKey.accepts, hfamily,
      Rsa.PrivateKey.accepts_of_sign? hsignature]

theorem length_of_sign (h : key.sign algorithm message = .ok signature) :
    signature.length = key.signatureLength algorithm := by
  obtain ⟨-, hsignature⟩ := sign_eq_ok_iff.1 h
  cases key with
  | mac key =>
    obtain rfl := hsignature
    exact key.length_tag algorithm.digest message
  | rsa key => exact Rsa.PrivateKey.length_of_sign? hsignature

end SigningKey

/-- A key accepts nothing under an algorithm of the other family. -/
theorem VerificationKey.accepts_of_family_ne {key : VerificationKey} {algorithm : Algorithm}
    (h : algorithm.family ≠ key.family) (message signature : Bytes) :
    key.accepts algorithm message signature = false := by
  cases key <;> cases hfamily : algorithm.family <;> simp_all [accepts, family]

/-- A signature that a key gives out is accepted by the key that belongs to it, and it has as
many octets as the digest or the modulus.  Within its family a key always signs, but for private
keys that do not match their public half.  It refuses to sign under an algorithm of the other
family, and no key of the other family accepts anything under it. -/
theorem SigningKey.signs_within_family (key : SigningKey) (algorithm : Algorithm)
    (message : Bytes) :
    (∀ signature, key.sign algorithm message = .ok signature →
      key.verificationKey.accepts algorithm message signature = true ∧
        signature.length = key.signatureLength algorithm) ∧
    (algorithm.family = key.family →
      (∃ signature, key.sign algorithm message = .ok signature) ∨
        key.family = .rsa ∧ key.sign algorithm message = .error .mismatched) ∧
    (algorithm.family ≠ key.family →
      key.sign algorithm message = .error (.otherFamily key.family algorithm) ∧
        (TokenError.key (.otherFamily key.family algorithm)).kind = .signing) ∧
    ∀ other : VerificationKey, algorithm.family ≠ other.family →
      ∀ content signature : Bytes, other.accepts algorithm content signature = false := by
  refine ⟨?_, sign_of_family_eq, ?_, ?_⟩
  · intro signature hsign
    exact ⟨accepts_of_sign hsign, length_of_sign hsign⟩
  · intro hfamily
    exact ⟨sign_of_family_ne hfamily, rfl⟩
  · intro other hfamily content signature
    exact VerificationKey.accepts_of_family_ne hfamily content signature

/-- A document of a private key whose primes are no primes but powers of three and of five.
The exponents modulo the primes belong to the public one, and the private exponent is anything
that is long enough. -/
def Rsa.PrivateKey.primePowerDocument : Bytes :=
  let p := Nat.pow 3 646
  let q := Nat.pow 5 441
  -- inverses of 65537: the factors in front make the quotients whole
  let dP := (8195 * (2 * Nat.pow 3 645) + 1) / 65537
  let dQ := (25018 * (4 * Nat.pow 5 440) + 1) / 65537
  let qInv := Rsa.powMod 5 (2 * Nat.pow 3 645 - 441) p
  Rsa.writeElement .sequence (Rsa.writeElement .integer [0x00] ++
    Rsa.writeInteger (Bytes.ofNat 128 (p * q / Nat.pow 256 128) ++ Bytes.ofNat 128 (p * q)) ++
    Rsa.writeInteger [0x01, 0x00, 0x01] ++
    Rsa.writeInteger (0x01 :: List.replicate 128 0x00 ++ [0x01]) ++
    ([p, q, dP, dQ, qInv].flatMap fun n => Rsa.writeInteger (Bytes.ofNat 128 n)))

/-- The document is loaded, since nothing checks that the primes are prime, and the key signs. -/
theorem Rsa.PrivateKey.exists_sign?_primePowerDocument :
    ∃ key signature, PrivateKey.load .bare primePowerDocument = .ok key ∧
      key.sign? .sha256 [0x62] = some signature ∧ key.size = 256 := by
  have hsigned : ((PrivateKey.load .bare primePowerDocument).toOption.bind fun key =>
      (key.sign? .sha256 [0x62]).map fun _ => key.size) = some 256 := by
    decide +kernel
  obtain ⟨key, hkey, hsigned⟩ := Option.bind_eq_some_iff.1 hsigned
  obtain ⟨signature, hsign, hsize⟩ := Option.map_eq_some_iff.1 hsigned
  exact ⟨key, signature, Result.toOption_eq_some_iff.1 hkey, hsign, hsize⟩

/-- What this key signs is accepted, and within its family only. -/
theorem SigningKey.signs_within_family_prime_powers :
    ∃ (key : Rsa.PrivateKey) (signature : Bytes),
      Rsa.PrivateKey.load .bare Rsa.PrivateKey.primePowerDocument = .ok key ∧
      (SigningKey.rsa key).sign .rs256 [0x62] = .ok signature ∧
      (SigningKey.rsa key).verificationKey.accepts .rs256 [0x62] signature = true ∧
      signature.length = 256 ∧
      (SigningKey.rsa key).sign .hs256 [0x62] = .error (.otherFamily .rsa .hs256) ∧
      (VerificationKey.mac ⟨[0x6B], by decide⟩).accepts .rs256 [0x62] signature = false := by
  obtain ⟨key, signature, hload, hsign, hsize⟩ := Rsa.PrivateKey.exists_sign?_primePowerDocument
  have hsigned : (rsa key).sign .rs256 [0x62] = .ok signature := sign_eq_ok_iff.2 ⟨rfl, hsign⟩
  obtain ⟨haccepted, -, -, hother⟩ := signs_within_family (rsa key) .rs256 [0x62]
  obtain ⟨-, -, hrefused, -⟩ := signs_within_family (rsa key) .hs256 [0x62]
  obtain ⟨haccepts, hlength⟩ := haccepted signature hsigned
  exact ⟨key, signature, hload, hsigned, haccepts, hlength.trans hsize,
    (hrefused Family.noConfusion).1, hother (.mac _) Family.noConfusion _ _⟩

end TokenVault
