import TokenVault.Digest
import TokenVault.Rsa.Der

/-!
# Public keys

A key arrives as a document or as two octet strings and is looked at only when a
signature is checked; one that cannot be used verifies nothing.  `PublicNumbers` are the
modulus and the exponent of a usable key, with the bounds that make them so.
-/

namespace TokenVault.Rsa

/-! ### Powers modulo a number -/

/-- `base ^ exponent` modulo `modulus`, by halving the exponent. -/
def powMod (base exponent modulus : Nat) : Nat :=
  if h : exponent = 0 then 1 % modulus
  else
    let half := powMod (base * base % modulus) (exponent / 2) modulus
    if exponent % 2 = 1 then base * half % modulus else half
termination_by exponent
decreasing_by omega

theorem powMod_eq (base exponent modulus : Nat) :
    powMod base exponent modulus = Nat.pow base exponent % modulus := by
  induction exponent using Nat.strongRecOn generalizing base with
  | _ exponent ih =>
    rw [Nat.pow_eq]
    unfold powMod
    split
    · next h => simp [h]
    · next h =>
      have hpow : (base * base) ^ (exponent / 2) = base ^ (2 * (exponent / 2)) := by
        rw [Nat.pow_mul, Nat.pow_two]
      rw [ih (exponent / 2) (by omega), Nat.pow_eq, ← Nat.pow_mod, hpow]
      split
      · next hodd =>
        have hexp : exponent = 2 * (exponent / 2) + 1 := by omega
        conv => rhs; rw [hexp, Nat.pow_succ, Nat.mul_comm]
        rw [Nat.mul_mod_mod]
      · next heven =>
        have hexp : 2 * (exponent / 2) = exponent := by omega
        rw [hexp]

theorem powMod_lt (base exponent : Nat) {modulus : Nat} (h : 0 < modulus) :
    powMod base exponent modulus < modulus := by
  rw [powMod_eq]
  exact Nat.mod_lt _ h

/-! ### The padded block

What is signed is not the message but a block as long as the modulus: `00 01`, octets `ff`,
`00`, the name of the digest, the digest.  The name precedes the digest, so a block made
with one digest is never the block of another. -/

/-- The octets that name a digest in front of its value. -/
def digestName : Digest → Bytes
  | .sha1 => [0x30, 0x21, 0x30, 0x09, 0x06, 0x05, 0x2B, 0x0E, 0x03, 0x02, 0x1A, 0x05, 0x00,
      0x04, 0x14]
  | .sha256 => [0x30, 0x31, 0x30, 0x0D, 0x06, 0x09, 0x60, 0x86, 0x48, 0x01, 0x65, 0x03,
      0x04, 0x02, 0x01, 0x05, 0x00, 0x04, 0x20]
  | .sha384 => [0x30, 0x41, 0x30, 0x0D, 0x06, 0x09, 0x60, 0x86, 0x48, 0x01, 0x65, 0x03,
      0x04, 0x02, 0x02, 0x05, 0x00, 0x04, 0x30]
  | .sha512 => [0x30, 0x51, 0x30, 0x0D, 0x06, 0x09, 0x60, 0x86, 0x48, 0x01, 0x65, 0x03,
      0x04, 0x02, 0x03, 0x05, 0x00, 0x04, 0x40]

/-- The named digest of a message. -/
def digestInfo (digest : Digest) (message : Bytes) : Bytes :=
  digestName digest ++ digest.hash message

/-- The block of `size` octets that stands for a message. -/
def paddedBlock (size : Nat) (digest : Digest) (message : Bytes) : Bytes :=
  let info := digestInfo digest message
  0x00 :: 0x01 :: List.replicate (size - info.length - 3) 0xFF ++ 0x00 :: info

@[simp] theorem length_digestInfo (digest : Digest) (message : Bytes) :
    (digestInfo digest message).length =
      (digestName digest).length + digest.outputLength := by
  simp [digestInfo]

theorem length_digestInfo_le (digest : Digest) (message : Bytes) :
    (digestInfo digest message).length ≤ 83 := by
  cases digest <;> simp [digestName, Digest.outputLength]

theorem length_paddedBlock (size : Nat) (digest : Digest) (message : Bytes)
    (h : 86 ≤ size) : (paddedBlock size digest message).length = size := by
  have hinfo := length_digestInfo_le digest message
  simp only [paddedBlock, List.length_append, List.length_cons, List.length_replicate]
  omega

/-! ### Keys -/

/-- Why a key is refused. -/
inductive Rejection
  | invalidEncoding
  | versionNotSupported
  | wrongAlgorithm
  | tooSmall
  | tooLarge
  | invalidComponent
  | inconsistentComponents
  | unexpected
  | primeLength
  deriving DecidableEq, Repr

/-- The name of a reason. -/
def Rejection.name : Rejection → String
  | invalidEncoding => "InvalidEncoding"
  | versionNotSupported => "VersionNotSupported"
  | wrongAlgorithm => "WrongAlgorithm"
  | tooSmall => "TooSmall"
  | tooLarge => "TooLarge"
  | invalidComponent => "InvalidComponent"
  | inconsistentComponents => "InconsistentComponents"
  | unexpected => "UnexpectedError"
  | primeLength => "PrivateModulusLenNotMultipleOf512Bits"

/-- Bits that a number takes; zero takes none. -/
def bitLength (n : Nat) : Nat := if n = 0 then 0 else n.log2 + 1

/-- A number that one can compute modulo: of four to 128 words of 64 bits, written without
leading zeros, odd. -/
def modulusValue (octets : Bytes) : Except Rejection Nat :=
  let words := (octets.length + 7) / 8
  if words < 4 then .error .unexpected
  else if 128 < words then .error .tooLarge
  else if octets.head? = some 0 then .error .invalidEncoding
  else if Bytes.toNat octets % 2 = 0 then .error .invalidComponent
  else .ok (Bytes.toNat octets)

/-- The sizes that a use of a key admits. -/
structure Limits where
  modulusBits : Nat
  exponent : Nat
  modulusBits_le : modulusBits ≤ 8192 := by decide
  le_exponent : 3 ≤ exponent := by decide

/-- Signatures are checked under moduli of up to 8192 bits and exponents from three on. -/
def Limits.checking : Limits where
  modulusBits := 8192
  exponent := 3

/-- Signatures are made with moduli of up to 4096 bits and exponents from 65537 on. -/
def Limits.signing : Limits where
  modulusBits := 4096
  exponent := 65537

/-- The largest exponent, of 33 bits. -/
def largestExponent : Nat := 0x1FFFFFFFF

/-- The modulus and the exponent of a usable key.  `size` counts the octets of the
modulus, and so of a signature. -/
structure PublicNumbers where
  modulus : Nat
  exponent : Nat
  size : Nat
  modulus_odd : modulus % 2 = 1
  modulus_lt : modulus < Nat.pow 256 size
  le_size : 256 ≤ size
  size_le : size ≤ 1024
  exponent_odd : exponent % 2 = 1
  le_exponent : 3 ≤ exponent
  exponent_le : exponent ≤ largestExponent

/-- A modulus within limits, of at least 2048 bits counted in whole octets. -/
def publicModulus (limits : Limits) (octets : Bytes) : Except Rejection Nat := do
  let n ← modulusValue octets
  if 8 * octets.length < 2048 then .error .tooSmall
  else if limits.modulusBits < bitLength n then .error .tooLarge
  else return n

/-- An exponent within limits, of at most five octets. -/
def publicExponent (limits : Limits) (octets : Bytes) : Except Rejection Nat :=
  let e := Bytes.toNat octets
  if 5 < octets.length then .error .tooLarge
  else if octets.head? = some 0 ∨ octets = [] then .error .invalidEncoding
  else if e < limits.exponent then .error .tooSmall
  else if largestExponent < e then .error .tooLarge
  else if e % 2 = 0 then .error .invalidComponent
  else .ok e

theorem toNat_lt (octets : Bytes) : Bytes.toNat octets < Nat.pow 256 octets.length := by
  have hfold : ∀ (bytes : Bytes) (acc bound : Nat), acc < bound →
      bytes.foldl (fun acc b => acc * 256 + b.toNat) acc < bound * Nat.pow 256 bytes.length := by
    intro bytes
    induction bytes with
    | nil => intro acc bound h; simpa using h
    | cons b rest ih =>
      intro acc bound h
      have hb := b.toNat_lt
      have hstep := ih (acc * 256 + b.toNat) (bound * 256) (by omega)
      simpa [Nat.pow_succ, Nat.mul_assoc, Nat.mul_comm 256] using hstep
  simpa [Bytes.toNat] using hfold octets 0 1 (by decide)

theorem modulusValue_eq_ok {octets : Bytes} {n : Nat} (h : modulusValue octets = .ok n) :
    n = Bytes.toNat octets ∧ n % 2 = 1 ∧ octets.length ≤ 1024 ∧ octets.head? ≠ some 0 := by
  unfold modulusValue at h
  simp only at h
  repeat' split at h
  all_goals simp_all
  omega

theorem publicModulus_eq_ok {limits : Limits} {octets : Bytes} {n : Nat}
    (h : publicModulus limits octets = .ok n) :
    n = Bytes.toNat octets ∧ n % 2 = 1 ∧ 256 ≤ octets.length ∧ octets.length ≤ 1024 := by
  unfold publicModulus at h
  cases hm : modulusValue octets with
  | error e => simp [hm, bind, Except.bind] at h
  | ok m =>
    have hvalue := modulusValue_eq_ok hm
    simp only [hm, bind, Except.bind] at h
    split at h
    · simp at h
    · split at h
      · simp at h
      · simp only [pure, Except.pure, Except.ok.injEq] at h
        subst h
        exact ⟨hvalue.1, hvalue.2.1, by omega, hvalue.2.2.1⟩

theorem publicExponent_eq_ok {limits : Limits} {octets : Bytes} {e : Nat}
    (h : publicExponent limits octets = .ok e) :
    e % 2 = 1 ∧ limits.exponent ≤ e ∧ e ≤ largestExponent := by
  unfold publicExponent at h
  simp only at h
  repeat' split at h
  all_goals simp_all

/-- The numbers of a key from the octets of its modulus and its exponent; the modulus is
looked at first. -/
def PublicNumbers.ofOctets (limits : Limits) (modulus exponent : Bytes) :
    Except Rejection PublicNumbers :=
  match hn : publicModulus limits modulus with
  | .error reason => .error reason
  | .ok n =>
    match he : publicExponent limits exponent with
    | .error reason => .error reason
    | .ok e =>
      have hmodulus := publicModulus_eq_ok hn
      have hexponent := publicExponent_eq_ok he
      .ok {
        modulus := n
        exponent := e
        size := modulus.length
        modulus_odd := hmodulus.2.1
        modulus_lt := hmodulus.1 ▸ toNat_lt modulus
        le_size := hmodulus.2.2.1
        size_le := hmodulus.2.2.2
        exponent_odd := hexponent.1
        le_exponent := Nat.le_trans limits.le_exponent hexponent.2.1
        exponent_le := hexponent.2.2 }

/-- Whether a signature is right: it is as long as the modulus, it denotes a number
between zero and the modulus, and its power is the padded block of the message. -/
def PublicNumbers.accepts (key : PublicNumbers) (digest : Digest)
    (message signature : Bytes) : Bool :=
  let s := Bytes.toNat signature
  signature.length = key.size && s ≠ 0 && s < key.modulus &&
    Bytes.ofNat key.size (powMod s key.exponent key.modulus) ==
      paddedBlock key.size digest message

/-- A public key as it arrives. -/
inductive PublicKey
  /-- A document that holds the modulus and the exponent. -/
  | document (der : Bytes)
  /-- The two numbers in big-endian octets. -/
  | components (modulus exponent : Bytes)

/-- The modulus and exponent octets that a document holds. -/
def documentOctets? (der : Bytes) : Option (Bytes × Bytes) := do
  let (content, after) ← element? .sequence der
  let (modulus, rest) ← positive? content
  let (exponent, trailing) ← positive? rest
  if after = [] ∧ trailing = [] then return (modulus, exponent) else none

/-- The octets of the modulus and of the exponent. -/
def PublicKey.octets? : PublicKey → Option (Bytes × Bytes)
  | document der => documentOctets? der
  | components modulus exponent => some (modulus, exponent)

/-- The numbers of a key that can be used. -/
def PublicKey.numbers? (key : PublicKey) : Option PublicNumbers := do
  let (modulus, exponent) ← key.octets?
  (PublicNumbers.ofOctets .checking modulus exponent).toOption

/-- Whether a signature is right under a key.  Nothing is right under an unusable one. -/
def PublicKey.accepts (key : PublicKey) (digest : Digest) (message signature : Bytes) :
    Bool :=
  match key.numbers? with
  | some numbers => numbers.accepts digest message signature
  | none => false

/-- The document that holds a modulus and an exponent without leading zeros. -/
def publicDocument (modulus exponent : Bytes) : Bytes :=
  writeElement .sequence (writeInteger modulus ++ writeInteger exponent)

end TokenVault.Rsa
