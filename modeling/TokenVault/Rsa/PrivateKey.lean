import TokenVault.Rsa.PublicKey

/-!
# Private keys

A private key is a modulus with its two primes and what the primes are used with.  Its
parts are checked against each other when it is loaded, in a fixed order, and the first
check that fails names the reason.  Signing works modulo each prime and then checks its
result against the public exponent, so it yields a good signature or none.
-/

namespace TokenVault.Rsa

/-- The two documents that a private key comes in. -/
inductive Form
  /-- The key wrapped together with the name of its algorithm. -/
  | wrapped
  /-- The bare key. -/
  | bare
  deriving DecidableEq, Repr

/-- A private key whose parts fit together. -/
structure PrivateKey where
  numbers : PublicNumbers
  /-- The octets of the modulus and the exponent as they stood in the document. -/
  modulusOctets : Bytes
  exponentOctets : Bytes
  numbers_eq : PublicNumbers.ofOctets .signing modulusOctets exponentOctets = .ok numbers
  p : Nat
  q : Nat
  /-- The exponents modulo `p` and modulo `q`. -/
  dP : Nat
  dQ : Nat
  /-- The inverse of `q` modulo `p`. -/
  qInv : Nat

/-- The numbers of a key document, as octets. -/
structure Parts where
  n : Bytes
  e : Bytes
  d : Bytes
  p : Bytes
  q : Bytes
  dP : Bytes
  dQ : Bytes
  qInv : Bytes

/-- The number modulo which half of the work is done: half as long as the modulus, and a
multiple of 512 bits. -/
def primeValue (half : Nat) (octets : Bytes) : Except Rejection Nat := do
  let value ← modulusValue octets
  if bitLength value ≠ half then .error .inconsistentComponents
  else if half % 512 ≠ 0 then .error .primeLength
  else return value

/-- The exponent that belongs to a prime: odd and below it. -/
def primeExponent (prime : Nat) (octets : Bytes) : Except Rejection Nat :=
  let value := Bytes.toNat octets
  if prime ≤ value ∨ value % 2 = 0 then .error .inconsistentComponents else .ok value

/-- Checks that the private exponent is plausible; it is not used otherwise. -/
def checkExponent (modulus half : Nat) (octets : Bytes) : Except Rejection Unit :=
  match modulusValue octets with
  | .error _ => .error .invalidComponent
  | .ok value =>
    if bitLength value ≤ half ∨ modulus ≤ value then .error .inconsistentComponents
    else .ok ()

/-- Checks the parts of a key, in the order modulus, public exponent, primes, their
product, private exponent, inverse, exponents of the primes. -/
def PrivateKey.ofParts (parts : Parts) : Except Rejection PrivateKey :=
  match hnumbers : PublicNumbers.ofOctets .signing parts.n parts.e with
  | .error reason => .error reason
  | .ok numbers => do
    let n := numbers.modulus
    let half := (bitLength n + 1) / 2
    let p ← primeValue half parts.p
    let q ← primeValue half parts.q
    if n ≤ q ∨ n ≤ p ∨ p * q % n ≠ 0 then .error .inconsistentComponents
    checkExponent n half parts.d
    let qInv := Bytes.toNat parts.qInv
    if p ≤ qInv then .error .invalidComponent
    if qInv * q % p ≠ 1 then .error .inconsistentComponents
    let dP ← primeExponent p parts.dP
    let dQ ← primeExponent q parts.dQ
    return {
      numbers, modulusOctets := parts.n, exponentOctets := parts.e, numbers_eq := hnumbers
      p, q, dP, dQ, qInv }

/-- The numbers of a bare key after its version, and what follows them. -/
def parts? (input : Bytes) : Option (Parts × Bytes) := do
  let (n, rest) ← integer? input
  let (e, rest) ← integer? rest
  let (d, rest) ← integer? rest
  let (p, rest) ← integer? rest
  let (q, rest) ← integer? rest
  let (dP, rest) ← integer? rest
  let (dQ, rest) ← integer? rest
  let (qInv, rest) ← integer? rest
  return ({ n, e, d, p, q, dP, dQ, qInv }, rest)

/-- A missing element is an error of encoding. -/
def wellFormed {α : Type} : Option α → Except Rejection α
  | some value => .ok value
  | none => .error .invalidEncoding

/-- Refuses octets that follow a complete document. -/
def atEnd (rest : Bytes) : Except Rejection Unit :=
  if rest = [] then .ok () else .error .invalidEncoding

/-- Loads a bare key.  What is wrong with its parts is reported before what follows them. -/
def PrivateKey.ofBare (der : Bytes) : Except Rejection PrivateKey := do
  let (content, after) ← wellFormed (element? .sequence der)
  let (version, content) ← wellFormed (small? content)
  if version ≠ 0 then .error .versionNotSupported
  let (parts, trailing) ← wellFormed (parts? content)
  let key ← PrivateKey.ofParts parts
  atEnd trailing
  atEnd after
  return key

/-- The name of the algorithm in a wrapped key, with its empty parameters. -/
def algorithmName : Bytes :=
  [0x06, 0x09, 0x2A, 0x86, 0x48, 0x86, 0xF7, 0x0D, 0x01, 0x01, 0x01, 0x05, 0x00]

/-- Skips the attributes that may follow a wrapped key. -/
def skipAttributes (input : Bytes) : Except Rejection Bytes :=
  if input.head? = some Tag.attributes.octet then do
    let (_, rest) ← wellFormed (element? .attributes input)
    return rest
  else return input

/-- The bare key inside a wrapped one. -/
def unwrap (der : Bytes) : Except Rejection Bytes := do
  let (content, after) ← wellFormed (element? .sequence der)
  let (version, content) ← wellFormed (small? content)
  if 1 < version then .error .versionNotSupported
  let (algorithm, content) ← wellFormed (element? .sequence content)
  if algorithm ≠ algorithmName then .error .wrongAlgorithm
  if version ≠ 0 then .error .versionNotSupported
  let (key, content) ← wellFormed (element? .octetString content)
  atEnd (← skipAttributes content)
  atEnd after
  return key

/-- Loads a key from either form. -/
def PrivateKey.load : Form → Bytes → Except Rejection PrivateKey
  | .bare, der => PrivateKey.ofBare der
  | .wrapped, der => do PrivateKey.ofBare (← unwrap der)

namespace PrivateKey

/-- Octets of the modulus, and so of a signature. -/
def size (key : PrivateKey) : Nat := key.numbers.size

/-- The public half, as a document. -/
def publicKey (key : PrivateKey) : PublicKey :=
  .document (publicDocument key.modulusOctets key.exponentOctets)

/-- A key shown in a log: only its size. -/
def redacted (key : PrivateKey) : String :=
  "RsaPrivateKey \x7b modulus_bits: " ++ toString (8 * key.size) ++ ", .. \x7d"

/-- The number whose remainders modulo the primes are the powers of `m` there. -/
def root (key : PrivateKey) (m : Nat) : Nat :=
  let m₁ := powMod m key.dP key.p
  let m₂ := powMod m key.dQ key.q
  let h := key.qInv * (m₁ + key.p - m₂ % key.p) % key.p
  (m₂ + h * key.q) % key.numbers.modulus

/-- The signature of a message, if its power gives the padded block back. -/
def sign? (key : PrivateKey) (digest : Digest) (message : Bytes) : Option Bytes :=
  let block := Bytes.toNat (paddedBlock key.size digest message)
  let s := key.root block
  if powMod s key.numbers.exponent key.numbers.modulus = block then
    some (Bytes.ofNat key.size s)
  else none

end PrivateKey

end TokenVault.Rsa
