import TokenVault.Digest.Sha1
import TokenVault.Digest.Sha256
import TokenVault.Digest.Sha512

/-!
# Digests

The hash functions that a signature may be built on, and the lengths that tell their
outputs apart: `Digest.length_hash`.
-/

namespace TokenVault

/-- A hash function. -/
inductive Digest
  /-- SHA-1, only for protocols that mandate it. -/
  | sha1
  | sha256
  | sha384
  | sha512
  deriving DecidableEq, Repr

namespace Digest

/-- The digest of a message. -/
def hash : Digest → Bytes → Bytes
  | sha1 => Sha1.hash
  | sha256 => Sha256.hash
  | sha384 => Sha512.hash384
  | sha512 => Sha512.hash

/-- Octets in a digest. -/
def outputLength : Digest → Nat
  | sha1 => 20
  | sha256 => 32
  | sha384 => 48
  | sha512 => 64

/-- Octets in a block of input. -/
def blockLength : Digest → Nat
  | sha1 | sha256 => 64
  | sha384 | sha512 => 128

/-- The name under which a digest is reported. -/
def name : Digest → String
  | sha1 => "Sha1"
  | sha256 => "Sha256"
  | sha384 => "Sha384"
  | sha512 => "Sha512"

@[simp] theorem length_hash (digest : Digest) (message : Bytes) :
    (digest.hash message).length = digest.outputLength := by
  cases digest <;> simp [hash, outputLength]

theorem outputLength_le_blockLength (digest : Digest) :
    digest.outputLength ≤ digest.blockLength := by
  cases digest <;> decide

/-- Reads a name such as `SHA-256` or `sha256`: case and hyphens do not matter. -/
def ofName? (name : String) : Option Digest :=
  let letters := (name.toList.filter (· ≠ '-')).map Char.toUpper
  if letters = "SHA1".toList then some sha1
  else if letters = "SHA256".toList then some sha256
  else if letters = "SHA384".toList then some sha384
  else if letters = "SHA512".toList then some sha512
  else none

end Digest

end TokenVault
