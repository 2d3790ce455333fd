import TokenVault.Digest

/-!
# Message authentication codes

A tag is a digest of the message keyed on both sides with a shared secret.  Checking a
tag means computing it again, so a message has one tag per secret and digest, and its
length is that of the digest: `length_tag`.
-/

namespace TokenVault

/-- A shared secret.  The empty one authenticates nothing and is no key. -/
structure MacKey where
  secret : Bytes
  secret_ne_nil : secret ≠ []

namespace MacKey

/-- The key that holds this secret. -/
def ofSecret? (secret : Bytes) : Option MacKey :=
  if h : secret = [] then none else some ⟨secret, h⟩

/-- A key shown in a log: the secret never is. -/
def redacted (_ : MacKey) : String := "MacKey \x7b secret: \"[REDACTED]\" \x7d"

/-- The secret brought to the length of a block: hashed if it is longer, then filled up
with zeros. -/
def block (key : MacKey) (digest : Digest) : Bytes :=
  let short :=
    if key.secret.length ≤ digest.blockLength then key.secret else digest.hash key.secret
  short ++ List.replicate (digest.blockLength - short.length) 0

/-- The tag of a message. -/
def tag (key : MacKey) (digest : Digest) (message : Bytes) : Bytes :=
  let inner := (key.block digest).map (· ^^^ 0x36)
  let outer := (key.block digest).map (· ^^^ 0x5C)
  digest.hash (outer ++ digest.hash (inner ++ message))

@[simp] theorem length_tag (key : MacKey) (digest : Digest) (message : Bytes) :
    (key.tag digest message).length = digest.outputLength := by
  simp [tag]

/-- Whether `signature` is the tag of the message. -/
def accepts (key : MacKey) (digest : Digest) (message signature : Bytes) : Bool :=
  key.tag digest message == signature

theorem accepts_iff (key : MacKey) (digest : Digest) (message signature : Bytes) :
    key.accepts digest message signature = true ↔ signature = key.tag digest message := by
  rw [accepts, beq_iff_eq]
  exact eq_comm

theorem ofSecret?_eq_none_iff (secret : Bytes) : ofSecret? secret = none ↔ secret = [] := by
  unfold ofSecret?
  split <;> simp_all

end MacKey

end TokenVault
