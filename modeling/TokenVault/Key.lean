import TokenVault.Algorithm
import TokenVault.Mac
import TokenVault.Rsa.PrivateKey

/-!
# Keys

A signing key makes signatures and a verification key checks them; each belongs to one
family of algorithms.  A key signs nothing and accepts nothing under an algorithm of the
other family.
-/

namespace TokenVault

/-- Why there is no key or no signature. -/
inductive KeyError
  /-- No digest goes by this name. -/
  | unknownDigest (name : String)
  /-- The shared secret is empty. -/
  | emptySecret
  /-- The private key cannot be loaded. -/
  | rejected (form : Rsa.Form) (reason : Rsa.Rejection)
  /-- The key belongs to the other family. -/
  | otherFamily (key : Family) (algorithm : Algorithm)
  /-- The private key does not match its public half. -/
  | mismatched
  deriving DecidableEq, Repr

/-- The wording of an error; it never shows the key. -/
def KeyError.message : KeyError → String
  | unknownDigest name => "Unsupported MAC digest: " ++ name
  | emptySecret => "MAC secret must not be empty"
  | rejected .wrapped reason => "Invalid PKCS#8 RSA key: " ++ reason.name
  | rejected .bare reason => "Invalid PKCS#1 RSA key: " ++ reason.name
  | otherFamily key algorithm => key.name ++ " key cannot sign " ++ algorithm.name
  | mismatched => "RSA signing failed"

/-- The digest with this name. -/
def Digest.named (name : String) : Except KeyError Digest :=
  match Digest.ofName? name with
  | some digest => .ok digest
  | none => .error (.unknownDigest name)

/-- The key that holds this secret. -/
def MacKey.ofSecret (secret : Bytes) : Except KeyError MacKey :=
  match MacKey.ofSecret? secret with
  | some key => .ok key
  | none => .error .emptySecret

/-- The private key in a document. -/
def Rsa.PrivateKey.ofDocument (form : Rsa.Form) (der : Bytes) :
    Except KeyError Rsa.PrivateKey :=
  (Rsa.PrivateKey.load form der).mapError (.rejected form)

/-- The signature of a message under a private key. -/
def Rsa.PrivateKey.sign (key : Rsa.PrivateKey) (digest : Digest) (message : Bytes) :
    Except KeyError Bytes :=
  match key.sign? digest message with
  | some signature => .ok signature
  | none => .error .mismatched

/-- A key that makes signatures. -/
inductive SigningKey
  | mac (key : MacKey)
  | rsa (key : Rsa.PrivateKey)

/-- A key that checks signatures. -/
inductive VerificationKey
  | mac (key : MacKey)
  | rsa (key : Rsa.PublicKey)

namespace SigningKey

/-- The family that a key belongs to. -/
def family : SigningKey → Family
  | mac _ => .mac
  | rsa _ => .rsa

/-- The signature of a message under an algorithm of the key's family. -/
def sign (key : SigningKey) (algorithm : Algorithm) (message : Bytes) :
    Except KeyError Bytes :=
  match key, algorithm.family with
  | mac key, .mac => .ok (key.tag algorithm.digest message)
  | rsa key, .rsa => key.sign algorithm.digest message
  | key, _ => .error (.otherFamily key.family algorithm)

/-- The key that checks what this one signs. -/
def verificationKey : SigningKey → VerificationKey
  | mac key => .mac key
  | rsa key => .rsa key.publicKey

end SigningKey

/-- Whether a signature is right under an algorithm of the key's family. -/
def VerificationKey.accepts (key : VerificationKey) (algorithm : Algorithm)
    (message signature : Bytes) : Bool :=
  match key, algorithm.family with
  | mac key, .mac => key.accepts algorithm.digest message signature
  | rsa key, .rsa => key.accepts algorithm.digest message signature
  | _, _ => false

end TokenVault
